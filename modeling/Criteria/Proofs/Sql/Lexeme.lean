import Criteria.Sql.Condition
import Mathlib.Data.List.Basic

/-!
# The lexemes of SQL text

A database sees the text of a condition as a sequence of lexemes: quoted identifiers, string
literals, words, operator signs and punctuation. Where an identifier ends is a matter of the
dialect's quotes, and nothing inside quotes is read as anything else.

The lexer is a machine that takes one character after the other. Its state is what it has read and
the lexeme it is in the middle of (`Unfinished`). Two choices of a general SQL lexer are narrowed:
comments are refused, because what is behind one never ends with the expression it stands in, and so
are the escapes that some dialects have in string literals beside the doubled quote.

* `lexemes?` — the lexemes of a text, `none` if it ends inside quotes or holds a character that no
  lexeme starts with;
* `Lexes` — the same for a text wherever it stands, provided that it is set off from what follows;
* `Lexes.separate` — texts around a separator are read one by one.

`Lexes` is the form in which texts are put together. A separator ends whatever stands before it, so
the lexemes of a long text are those of its parts, and no part needs to be looked at twice.
-/

namespace Criteria

/-! ### Classes of characters -/

/-- A character of keywords, names and numbers, and of placeholders that have a name. -/
def Dialect.isWordChar (dialect : Dialect) (c : Char) : Bool :=
  c.isAlphanum || c = '_' || c = '$' || 128 ≤ c.toNat || (c = '@' && dialect = .mssql)

/-- A character of operator signs. -/
def Dialect.isSignChar (dialect : Dialect) (c : Char) : Bool :=
  "=<>!&|+-*/%^~:".toList.contains c || (c = '@' && dialect ≠ .mssql) ||
    (c = '?' && dialect = .postgres)

/-- Whether a character is a placeholder by itself. -/
def Dialect.isMark (dialect : Dialect) (c : Char) : Bool :=
  c = '?' && (dialect = .mysql || dialect = .sqlite)

namespace Sql

/-- A character that only keeps lexemes apart. -/
def isGap (c : Char) : Bool := c = ' ' || c = '\t' || c = '\n' || c = '\r'

/-! ### The lexer -/

/-- A lexeme of SQL text other than a parenthesis. -/
inductive Token where
  /-- A quoted identifier without its quotes. -/
  | quoted (name : List Char)
  /-- A string literal without its quotes. -/
  | literal (text : List Char)
  /-- A keyword, a name, a number, or a placeholder with a name. -/
  | word (text : List Char)
  /-- An operator sign, or a placeholder without a name. -/
  | sign (text : List Char)
  | comma
  | dot
deriving DecidableEq, Repr

/-- A lexeme of SQL text. -/
inductive Lexeme where
  | opening
  | closing
  | token (token : Token)
deriving DecidableEq, Repr

/-- The lexeme a lexer is in the middle of. -/
inductive Unfinished where
  /-- None. -/
  | gap
  /-- A quoted identifier whose end has not been seen. -/
  | quoted (name : List Char)
  /-- A quoted identifier that ends here, unless the next character doubles its last quote. -/
  | quotedEnd (name : List Char)
  /-- A string literal whose end has not been seen. -/
  | literal (text : List Char)
  /-- A string literal that ends here, unless the next character doubles its last quote. -/
  | literalEnd (text : List Char)
  | word (text : List Char)
  | sign (text : List Char)
deriving DecidableEq, Repr

/-- Whether a run of signs opens a comment. -/
def opensComment : List Char → Bool
  | '-' :: '-' :: _ => true
  | '/' :: '*' :: _ => true
  | _ :: rest => opensComment rest
  | [] => false

/-- The lexeme that ends where it stands, `none` inside quotes and in front of a comment. -/
def Unfinished.close : Unfinished → Option (List Lexeme)
  | gap => some []
  | quoted _ => none
  | quotedEnd name => some [.token (.quoted name)]
  | literal _ => none
  | literalEnd text => some [.token (.literal text)]
  | word text => some [.token (.word text)]
  | sign text => if opensComment text then none else some [.token (.sign text)]

/-- What a character starts, with the lexeme it is if it is one by itself. -/
def start (dialect : Dialect) (c : Char) : Option (List Lexeme × Unfinished) :=
  if isGap c then some ([], .gap)
  else if c = '(' then some ([.opening], .gap)
  else if c = ')' then some ([.closing], .gap)
  else if c = ',' then some ([.token .comma], .gap)
  else if c = '.' then some ([.token .dot], .gap)
  else if c = '\'' then some ([], .literal [])
  else if c = dialect.openQuote then some ([], .quoted [])
  else if dialect.isMark c then some ([.token (.sign [c])], .gap)
  else if dialect.isWordChar c then some ([], .word [c])
  else if dialect.isSignChar c then some ([], .sign [c])
  else none

/-- Ends the unfinished lexeme and starts another one. -/
def restart (dialect : Dialect) (read : List Lexeme) (unfinished : Unfinished) (c : Char) :
    Option (List Lexeme × Unfinished) :=
  unfinished.close.bind fun last =>
    (start dialect c).map fun (own, next) => (read ++ last ++ own, next)

/-- Takes one character. -/
def step (dialect : Dialect) (state : List Lexeme × Unfinished) (c : Char) :
    Option (List Lexeme × Unfinished) :=
  match state.2 with
  | .quoted name =>
    if c = dialect.closeQuote then some (state.1, .quotedEnd name)
    else some (state.1, .quoted (name ++ [c]))
  | .quotedEnd name =>
    if c = dialect.closeQuote then some (state.1, .quoted (name ++ [c]))
    else restart dialect state.1 state.2 c
  | .literal text =>
    if c = '\'' then some (state.1, .literalEnd text)
    else some (state.1, .literal (text ++ [c]))
  | .literalEnd text =>
    if c = '\'' then some (state.1, .literal (text ++ [c]))
    else restart dialect state.1 state.2 c
  | .word text =>
    if dialect.isWordChar c then some (state.1, .word (text ++ [c]))
    else restart dialect state.1 state.2 c
  | .sign text =>
    if dialect.isSignChar c then some (state.1, .sign (text ++ [c]))
    else restart dialect state.1 state.2 c
  | .gap => restart dialect state.1 state.2 c

/-- Takes the characters of a text in turn. -/
def scan (dialect : Dialect) (state : List Lexeme × Unfinished) (text : List Char) :
    Option (List Lexeme × Unfinished) :=
  text.foldlM (step dialect) state

/-- The lexemes of a text. -/
def lexemes? (dialect : Dialect) (text : List Char) : Option (List Lexeme) :=
  (scan dialect ([], .gap) text).bind fun (read, unfinished) =>
    unfinished.close.map fun last => read ++ last

@[simp] theorem scan_nil (dialect : Dialect) (state : List Lexeme × Unfinished) :
    scan dialect state [] = some state := rfl

theorem scan_cons (dialect : Dialect) (state : List Lexeme × Unfinished) (c : Char)
    (text : List Char) :
    scan dialect state (c :: text) = (step dialect state c).bind (scan dialect · text) := rfl

theorem scan_append (dialect : Dialect) (state : List Lexeme × Unfinished)
    (text others : List Char) :
    scan dialect state (text ++ others) = (scan dialect state text).bind (scan dialect · others) :=
  List.foldlM_append

/-! ### What was read before does not matter -/

theorem restart_append (dialect : Dialect) (before read : List Lexeme) (unfinished : Unfinished)
    (c : Char) :
    restart dialect (before ++ read) unfinished c =
      (restart dialect read unfinished c).map fun (done, next) => (before ++ done, next) := by
  unfold restart
  cases unfinished.close with
  | none => rfl
  | some last => cases start dialect c <;> simp

theorem step_append (dialect : Dialect) (before read : List Lexeme) (unfinished : Unfinished)
    (c : Char) :
    step dialect (before ++ read, unfinished) c =
      (step dialect (read, unfinished) c).map fun (done, next) => (before ++ done, next) := by
  -- only a lexeme that ends is added to what was read before
  cases unfinished <;> simp only [step] <;> first
    | exact restart_append dialect before read _ c
    | split <;> first | rfl | exact restart_append dialect before read _ c

theorem scan_append_left (dialect : Dialect) (before : List Lexeme) (text : List Char) :
    ∀ (read : List Lexeme) (unfinished : Unfinished),
      scan dialect (before ++ read, unfinished) text =
        (scan dialect (read, unfinished) text).map fun (done, next) => (before ++ done, next) := by
  -- every character may add lexemes, so the induction is over all that has been read
  induction text with
  | nil => intro read unfinished; rfl
  | cons c text ih =>
    intro read unfinished
    rw [scan_cons, scan_cons, step_append]
    cases step dialect (read, unfinished) c with
    | none => rfl
    | some state => exact ih state.1 state.2

/-! ### Texts that are set off from what follows -/

/-- A text is read as these lexemes wherever a lexeme may start, if it is set off from what follows
it. -/
def Lexes (dialect : Dialect) (text : List Char) (lexemes : List Lexeme) : Prop :=
  ∃ read unfinished last, scan dialect ([], .gap) text = some (read, unfinished) ∧
    unfinished.close = some last ∧ lexemes = read ++ last

/-- A text by itself is set off by its end. -/
theorem lexemes?_eq_some_iff {dialect : Dialect} {text : List Char} {lexemes : List Lexeme} :
    lexemes? dialect text = some lexemes ↔ Lexes dialect text lexemes := by
  unfold lexemes? Lexes
  constructor
  · intro h
    obtain ⟨⟨read, unfinished⟩, hscan, h⟩ := Option.bind_eq_some_iff.1 h
    obtain ⟨last, hclose, rfl⟩ := Option.map_eq_some_iff.1 h
    exact ⟨read, unfinished, last, hscan, hclose, rfl⟩
  · rintro ⟨read, unfinished, last, hscan, hclose, rfl⟩
    rw [hscan, Option.bind_some]
    simp only [hclose, Option.map_some]

/-- A character that ends whatever stands before it, and the lexeme it is. -/
inductive Separates : Char → List Lexeme → Prop
  | gap : Separates ' ' []
  | opening : Separates '(' [.opening]
  | closing : Separates ')' [.closing]
  | comma : Separates ',' [.token .comma]
  | dot : Separates '.' [.token .dot]

namespace Separates

variable {c : Char} {own : List Lexeme}

theorem start (h : Separates c own) (dialect : Dialect) :
    Sql.start dialect c = some (own, .gap) := by
  cases h <;> rfl

theorem not_isWordChar (h : Separates c own) (dialect : Dialect) :
    dialect.isWordChar c = false := by
  cases h <;> cases dialect <;> decide

theorem not_isSignChar (h : Separates c own) (dialect : Dialect) :
    dialect.isSignChar c = false := by
  cases h <;> cases dialect <;> decide

theorem ne_closeQuote (h : Separates c own) (dialect : Dialect) : c ≠ dialect.closeQuote := by
  cases h <;> cases dialect <;> decide

theorem ne_apostrophe (h : Separates c own) : c ≠ '\'' := by
  cases h <;> decide

/-- A separator ends what can end. -/
theorem step (h : Separates c own) (dialect : Dialect) (read : List Lexeme)
    {unfinished : Unfinished} {last : List Lexeme} (hclose : unfinished.close = some last) :
    Sql.step dialect (read, unfinished) c = some (read ++ last ++ own, .gap) := by
  have hrestart : restart dialect read unfinished c = some (read ++ last ++ own, .gap) := by
    rw [restart, hclose, Option.bind_some, h.start, Option.map_some]
  -- inside quotes nothing can end, and in all other states a separator continues nothing
  cases unfinished with
  | gap => exact hrestart
  | quoted name => exact absurd hclose (by simp [Unfinished.close])
  | quotedEnd name =>
    rw [Sql.step]
    exact (if_neg (h.ne_closeQuote dialect)).trans hrestart
  | literal text => exact absurd hclose (by simp [Unfinished.close])
  | literalEnd text =>
    rw [Sql.step]
    exact (if_neg h.ne_apostrophe).trans hrestart
  | word text =>
    rw [Sql.step]
    exact (if_neg (by simp [h.not_isWordChar dialect])).trans hrestart
  | sign text =>
    rw [Sql.step]
    exact (if_neg (by simp [h.not_isSignChar dialect])).trans hrestart

end Separates

namespace Lexes

variable {dialect : Dialect} {text others : List Char} {lexemes rest own : List Lexeme} {c : Char}

theorem nil : Lexes dialect [] [] := ⟨[], .gap, [], rfl, rfl, rfl⟩

/-- **Texts around a separator are read one by one.** -/
theorem separate (h : Lexes dialect text lexemes) (hc : Separates c own)
    (hothers : Lexes dialect others rest) :
    Lexes dialect (text ++ c :: others) (lexemes ++ own ++ rest) := by
  obtain ⟨read, unfinished, last, hscan, hclose, rfl⟩ := h
  obtain ⟨read', unfinished', last', hscan', hclose', rfl⟩ := hothers
  refine ⟨read ++ last ++ own ++ read', unfinished', last', ?_, hclose', ?_⟩
  · -- the second text is scanned behind what the first one gave
    have hbefore := scan_append_left dialect (read ++ last ++ own) others [] .gap
    rw [List.append_nil] at hbefore
    calc scan dialect ([], .gap) (text ++ c :: others)
        = scan dialect (read, unfinished) (c :: others) := by
          rw [scan_append, hscan, Option.bind_some]
      _ = scan dialect (read ++ last ++ own, .gap) others := by
          rw [scan_cons, hc.step dialect read hclose, Option.bind_some]
      _ = some (read ++ last ++ own ++ read', unfinished') := by
          rw [hbefore, hscan', Option.map_some]
  · simp only [List.append_assoc]

theorem blank (h : Lexes dialect text lexemes) (hothers : Lexes dialect others rest) :
    Lexes dialect (text ++ ' ' :: others) (lexemes ++ rest) := by
  have hboth := h.separate .gap hothers
  rwa [List.append_nil] at hboth

theorem closed (h : Lexes dialect text lexemes) :
    Lexes dialect (text ++ [')']) (lexemes ++ [.closing]) := by
  have hclosed := h.separate .closing nil
  rwa [List.append_nil] at hclosed

/-- A text between parentheses. -/
theorem enclose (h : Lexes dialect text lexemes) :
    Lexes dialect ('(' :: (text ++ [')'])) (.opening :: (lexemes ++ [.closing])) :=
  nil.separate .opening h.closed

/-- A text between parentheses behind a word, such as a call. -/
theorem call (h : Lexes dialect text lexemes) (hothers : Lexes dialect others rest) :
    Lexes dialect (text ++ '(' :: (others ++ [')']))
      (lexemes ++ .opening :: (rest ++ [.closing])) := by
  have hboth := h.separate .opening hothers.closed
  rwa [List.append_assoc] at hboth

end Lexes

/-! ### Words and signs -/

section Words

variable {dialect : Dialect} {c : Char} {text : List Char}

/-- A character of words starts a word. -/
theorem start_of_isWordChar (hc : dialect.isWordChar c = true) :
    start dialect c = some ([], .word [c]) := by
  -- all characters that are asked for before are no characters of words
  have hne : ∀ other, dialect.isWordChar other = false → c ≠ other := by
    rintro other hother rfl
    exact absurd (hc.symm.trans hother) (by simp)
  have hgap : isGap c = false := by
    simp [isGap, hne ' ' (by cases dialect <;> decide), hne '\t' (by cases dialect <;> decide),
      hne '\n' (by cases dialect <;> decide), hne '\r' (by cases dialect <;> decide)]
  have hmark : dialect.isMark c = false := by
    simp [Dialect.isMark, hne '?' (by cases dialect <;> decide)]
  have hquote : c ≠ dialect.openQuote := hne _ (by cases dialect <;> decide)
  simp [start, hgap, hmark, hquote, hc, hne '(' (by cases dialect <;> decide),
    hne ')' (by cases dialect <;> decide), hne ',' (by cases dialect <;> decide),
    hne '.' (by cases dialect <;> decide), hne '\'' (by cases dialect <;> decide)]

theorem scan_word (read : List Lexeme) :
    ∀ (word text : List Char), (∀ c ∈ text, dialect.isWordChar c = true) →
      scan dialect (read, .word word) text = some (read, .word (word ++ text)) := by
  intro word text
  -- the word grows from step to step
  induction text generalizing word with
  | nil => intro _; simp
  | cons c text ih =>
    intro h
    have hstep : step dialect (read, .word word) c = some (read, .word (word ++ [c])) :=
      if_pos (h c List.mem_cons_self)
    rw [scan_cons, hstep, Option.bind_some, ih _ fun c hc => h c (List.mem_cons_of_mem _ hc),
      List.append_assoc, List.singleton_append]

/-- A run of word characters is one word. -/
theorem Lexes.word (hne : text ≠ []) (h : ∀ c ∈ text, dialect.isWordChar c = true) :
    Lexes dialect text [.token (.word text)] := by
  cases text with
  | nil => exact absurd rfl hne
  | cons c text =>
    refine ⟨[], .word (c :: text), [.token (.word (c :: text))], ?_, rfl, rfl⟩
    have hstart : step dialect ([], .gap) c = some ([], .word [c]) := by
      change restart dialect [] .gap c = _
      rw [restart, start_of_isWordChar (h c List.mem_cons_self)]
      rfl
    rw [scan_cons, hstart, Option.bind_some,
      scan_word [] [c] text fun c hc => h c (List.mem_cons_of_mem _ hc)]
    rfl

/-- Letters are characters of words in every dialect. -/
theorem Lexes.keyword (hne : text ≠ []) (h : text.all Char.isAlpha = true) :
    Lexes dialect text [.token (.word text)] := by
  refine Lexes.word hne fun c hc => ?_
  have halpha : c.isAlpha = true := List.all_eq_true.1 h c hc
  simp [Dialect.isWordChar, Char.isAlphanum, halpha]

end Words

/-! ### Quoted identifiers -/

section Quoted

variable (dialect : Dialect)

/-- Inside quotes a doubled closing quote stands for itself, and every other character too. -/
theorem scan_doubleQuotes (read : List Lexeme) (segment : List Char) :
    ∀ name, scan dialect (read, .quoted name) (dialect.doubleQuotes segment) =
      some (read, .quoted (name ++ segment)) := by
  induction segment with
  | nil => intro name; simp [Dialect.doubleQuotes]
  | cons c segment ih =>
    intro name
    have hchar : scan dialect (read, .quoted name)
        (if c = dialect.closeQuote then [c, c] else [c]) = some (read, .quoted (name ++ [c])) := by
      -- the first of two closing quotes seems to end the name, and the second one goes on with it
      split
      · next hc => simp [scan_cons, step, hc]
      · next hc => simp [scan_cons, step, hc]
    change scan dialect _ (_ ++ dialect.doubleQuotes segment) = _
    rw [scan_append, hchar, Option.bind_some, ih, List.append_assoc, List.singleton_append]

/-- A quoted segment is one lexeme, whatever characters it holds. -/
theorem Lexes.quoted (segment : List Char) :
    Lexes dialect (dialect.quoteSegment segment) [.token (.quoted segment)] := by
  refine ⟨[], .quotedEnd segment, [.token (.quoted segment)], ?_, rfl, rfl⟩
  have hopen : step dialect ([], .gap) dialect.openQuote = some ([], .quoted []) := by
    cases dialect <;> rfl
  have hclose : step dialect ([], .quoted segment) dialect.closeQuote =
      some ([], .quotedEnd segment) := if_pos rfl
  change scan dialect _ (_ :: (dialect.doubleQuotes segment ++ [dialect.closeQuote])) = _
  rw [scan_cons, hopen, Option.bind_some, scan_append, scan_doubleQuotes, Option.bind_some,
    List.nil_append, scan_cons, hclose, Option.bind_some, scan_nil]

/-- The tokens of a dotted path. -/
def pathTokens : List (List Char) → List Token
  | [] => []
  | [segment] => [.quoted segment]
  | segment :: rest => .quoted segment :: .dot :: pathTokens rest

/-- A path consists of quoted segments and dots. -/
theorem mem_pathTokens {segments : List (List Char)} {token : Token}
    (h : token ∈ pathTokens segments) : token = .dot ∨ ∃ segment, token = .quoted segment := by
  induction segments with
  | nil => exact absurd h List.not_mem_nil
  | cons segment rest ih =>
    cases rest with
    | nil => exact .inr ⟨segment, List.mem_singleton.1 h⟩
    | cons next rest =>
      rcases List.mem_cons.1 h with rfl | h
      · exact .inr ⟨segment, rfl⟩
      rcases List.mem_cons.1 h with rfl | h
      · exact .inl rfl
      · exact ih h

theorem Lexes.path (segments : List (List Char)) :
    Lexes dialect (Text.join ['.'] (segments.map dialect.quoteSegment))
      ((pathTokens segments).map .token) := by
  induction segments with
  | nil => exact Lexes.nil
  | cons segment rest ih =>
    cases rest with
    | nil => exact Lexes.quoted dialect segment
    | cons next rest =>
      have hboth := (Lexes.quoted dialect segment).separate .dot ih
      simpa [Text.join, pathTokens] using hboth

/-- A column is read as the segments of its reference, each in quotes of its own. -/
theorem Lexes.column (reference : String) :
    Lexes dialect (dialect.quote reference).toList
      ((pathTokens (Text.split '.' reference.toList)).map .token) := by
  rw [Dialect.quote, String.toList_ofList]
  exact Lexes.path dialect _

end Quoted

/-! ### Placeholders -/

section Placeholders

variable (dialect : Dialect) (number : Nat)

/-- The token of the placeholder with a number. -/
def paramToken : Token :=
  if dialect.placeholder = .question then .sign ['?']
  else .word (dialect.placeholder.text number).toList

theorem toList_dollar : (Placeholder.dollar.text number).toList = '$' :: (toString number).toList :=
  String.toList_append

theorem toList_named :
    (Placeholder.named.text number).toList = '@' :: 'p' :: (toString number).toList :=
  String.toList_append

theorem toList_question : (Placeholder.question.text number).toList = ['?'] := by
  simp [Placeholder.text]

theorem Lexes.param : Lexes dialect (dialect.placeholder.text number).toList
    [.token (paramToken dialect number)] := by
  -- a number is set behind the mark without a gap, so both are one word
  have hdigits : ∀ d : Dialect, ∀ c ∈ (toString number).toList, d.isWordChar c = true := by
    intro d c hc
    have hdigit : c.isDigit = true := Nat.isDigit_of_mem_toDigits (by decide) (by decide)
      (Nat.toList_repr ▸ hc)
    simp [Dialect.isWordChar, Char.isAlphanum, hdigit]
  cases dialect with
  | postgres =>
    rw [paramToken, if_neg (by decide), Dialect.placeholder, toList_dollar]
    refine Lexes.word (by simp) fun c hc => ?_
    rcases List.mem_cons.1 hc with rfl | hc
    · rfl
    · exact hdigits _ c hc
  | mssql =>
    rw [paramToken, if_neg (by decide), Dialect.placeholder, toList_named]
    refine Lexes.word (by simp) fun c hc => ?_
    rcases List.mem_cons.1 hc with rfl | hc
    · rfl
    rcases List.mem_cons.1 hc with rfl | hc
    · rfl
    · exact hdigits _ c hc
  | mysql =>
    rw [paramToken, if_pos (by decide), Dialect.placeholder, toList_question]
    exact ⟨[.token (.sign ['?'])], .gap, [], rfl, rfl, rfl⟩
  | sqlite =>
    rw [paramToken, if_pos (by decide), Dialect.placeholder, toList_question]
    exact ⟨[.token (.sign ['?'])], .gap, [], rfl, rfl, rfl⟩

/-- The placeholder a token is in a dialect. -/
def Token.placeholder? (token : Token) : Option (List Char) :=
  match dialect.placeholder, token with
  | .dollar, .word ('$' :: number) => some ('$' :: number)
  | .named, .word ('@' :: name) => some ('@' :: name)
  | .question, .sign ['?'] => some ['?']
  | _, _ => none

theorem placeholder?_paramToken :
    (paramToken dialect number).placeholder? dialect =
      some (dialect.placeholder.text number).toList := by
  cases dialect with
  | postgres =>
    rw [paramToken, if_neg (by decide), Dialect.placeholder, toList_dollar]
    rfl
  | mssql =>
    rw [paramToken, if_neg (by decide), Dialect.placeholder, toList_named]
    rfl
  | mysql =>
    rw [Dialect.placeholder, toList_question]
    rfl
  | sqlite =>
    rw [Dialect.placeholder, toList_question]
    rfl

end Placeholders

end Sql

end Criteria
