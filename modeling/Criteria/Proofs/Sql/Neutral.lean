import Criteria.Proofs.Sql.Spelling

/-!
# Texts apart from their dialect

Dialects differ in how they quote identifiers and in how they refer to parameters. A text is brought
to a form that they share by taking the quotes off every identifier and the number off every
placeholder, whose position tells it anyhow; all other characters are kept, those of string literals
among them. What is left can be spelled in any dialect again.

A quoted identifier ends at the first closing quote that is not doubled, and a placeholder with a
number ends where the digits do. So in a text that is made of pieces a column or a parameter must be
followed by a character that is neither. Pieces in which this is so are *spaced*.

* `neutral?` — a text in the shared form;
* `respell` — the spelling of a shared form in a dialect;
* `isSpaced` — pieces that are set off from each other;
* `neutral?_chars`, `respell_glyphs` — the text of spaced pieces has their shared form, and is the
  spelling of it.
-/

namespace Criteria

/-- The character that placeholders of a dialect start with. -/
def Dialect.mark : Dialect → Char
  | postgres => '$'
  | mysql | sqlite => '?'
  | mssql => '@'

/-- Whether a character behind the mark belongs to a placeholder. -/
def Dialect.continuesMark (dialect : Dialect) (c : Char) : Bool :=
  dialect.placeholder ≠ .question && c.isAlphanum

namespace Sql

/-! ### The shared form -/

/-- A part of SQL text in the form that the dialects share. -/
inductive Glyph where
  /-- A character as it stands. -/
  | char (c : Char)
  /-- A quoted identifier without its quotes. -/
  | name (segment : List Char)
  /-- A placeholder. Its number is its position among the placeholders. -/
  | param
deriving DecidableEq, Repr

/-- What a reader of a text is in the midst of. -/
inductive Midst where
  /-- Nothing. -/
  | plain
  /-- A quoted identifier whose end has not been seen. -/
  | name (segment : List Char)
  /-- A quoted identifier that ends here, unless the next character doubles its last quote. -/
  | nameEnd (segment : List Char)
  /-- A string literal. -/
  | literal
  /-- A placeholder. -/
  | param
deriving DecidableEq, Repr

/-- What ends where nothing goes on with it, `none` inside quotes. -/
def Midst.close : Midst → Option (List Glyph)
  | plain => some []
  | name _ => none
  | nameEnd segment => some [.name segment]
  | literal => none
  | param => some [.param]

variable (dialect : Dialect)

/-- What a character starts. -/
def begins (c : Char) : List Glyph × Midst :=
  if c = dialect.openQuote then ([], .name [])
  else if c = dialect.mark then ([], .param)
  else if c = '\'' then ([.char c], .literal)
  else ([.char c], .plain)

/-- What a character adds, and what the reader is in the midst of then. -/
def proceed (c : Char) : Midst → List Glyph × Midst
  | .plain => begins dialect c
  | .name segment =>
    if c = dialect.closeQuote then ([], .nameEnd segment) else ([], .name (segment ++ [c]))
  | .nameEnd segment =>
    if c = dialect.closeQuote then ([], .name (segment ++ [c]))
    else (.name segment :: (begins dialect c).1, (begins dialect c).2)
  | .literal => ([.char c], if c = '\'' then .plain else .literal)
  | .param =>
    if dialect.continuesMark c then ([], .param)
    else (.param :: (begins dialect c).1, (begins dialect c).2)

/-- The shared form of what is left of a text. -/
def neutralFrom? (midst : Midst) : List Char → Option (List Glyph)
  | [] => midst.close
  | c :: rest =>
    (neutralFrom? (proceed dialect c midst).2 rest).map ((proceed dialect c midst).1 ++ ·)

/-- A text in the form that the dialects share, `none` if it ends inside quotes. -/
def neutral? (text : List Char) : Option (List Glyph) := neutralFrom? dialect .plain text

/-- The spelling of a shared form, its placeholders numbered from `number` on. -/
def respell (number : Nat) : List Glyph → List Char
  | [] => []
  | .char c :: rest => c :: respell number rest
  | .name segment :: rest => dialect.quoteSegment segment ++ respell number rest
  | .param :: rest => (dialect.placeholder.text number).toList ++ respell (number + 1) rest

/-- The same condition in two dialects, with a quote inside an identifier and one of the marks
inside a literal. -/
example :
    neutral? .mssql "[a]]b].[c] LIKE @p1 ESCAPE '@'".toList =
        neutral? .postgres "\"a]b\".\"c\" LIKE $1 ESCAPE '@'".toList ∧
      (neutral? .mssql "[a]]b].[c] LIKE @p1 ESCAPE '@'".toList).map (respell .mysql 1) =
        some "\x60a]b\x60.\x60c\x60 LIKE ? ESCAPE '@'".toList := by
  decide

/-! ### Reading on -/

variable {dialect}

theorem neutralFrom?_cons {midst next : Midst} {c : Char} {own : List Glyph}
    (h : proceed dialect c midst = (own, next)) (rest : List Char) :
    neutralFrom? dialect midst (c :: rest) =
      (neutralFrom? dialect next rest).map (own ++ ·) := by
  rw [neutralFrom?, h]

/-- A character that ends an identifier and a placeholder. -/
def isSeparator (c : Char) : Bool := c = ' ' || c = ',' || c = '.' || c = '(' || c = ')'

/-- A text does not go on with what stands before it. -/
def SetOff : List Char → Prop
  | [] => True
  | c :: _ => isSeparator c = true

theorem ne_closeQuote_of_isSeparator {c : Char} (h : isSeparator c = true) :
    c ≠ dialect.closeQuote := by
  rintro rfl
  cases dialect <;> exact absurd h (by decide)

theorem not_continuesMark_of_isSeparator {c : Char} (h : isSeparator c = true) :
    dialect.continuesMark c = false := by
  simp only [isSeparator, Bool.or_eq_true, decide_eq_true_eq] at h
  rcases h with (((rfl | rfl) | rfl) | rfl) | rfl <;> cases dialect <;> decide

theorem neutralFrom?_nameEnd (segment : List Char) {rest : List Char} (hrest : SetOff rest) :
    neutralFrom? dialect (.nameEnd segment) rest =
      (neutralFrom? dialect .plain rest).map (.name segment :: ·) := by
  cases rest with
  | nil => rfl
  | cons c rest =>
    have hne : c ≠ dialect.closeQuote := ne_closeQuote_of_isSeparator hrest
    have hplain : proceed dialect c .plain = begins dialect c := rfl
    have hends : proceed dialect c (.nameEnd segment) =
        (.name segment :: (begins dialect c).1, (begins dialect c).2) := if_neg hne
    rw [neutralFrom?_cons hends, neutralFrom?_cons hplain, Option.map_map]
    rfl

theorem neutralFrom?_param {rest : List Char} (hrest : SetOff rest) :
    neutralFrom? dialect .param rest =
      (neutralFrom? dialect .plain rest).map (.param :: ·) := by
  cases rest with
  | nil => rfl
  | cons c rest =>
    have hstop : dialect.continuesMark c = false := not_continuesMark_of_isSeparator hrest
    have hplain : proceed dialect c .plain = begins dialect c := rfl
    have hends : proceed dialect c .param =
        (.param :: (begins dialect c).1, (begins dialect c).2) := if_neg (by simp [hstop])
    rw [neutralFrom?_cons hends, neutralFrom?_cons hplain, Option.map_map]
    rfl

/-! ### Texts, columns and placeholders -/

/-- Whether a text has no quoted identifier, no placeholder and no end inside a literal, if it
starts outside of one or `inside`. -/
def isPlainText (dialect : Dialect) (inside : Bool) : List Char → Bool
  | [] => !inside
  | c :: rest =>
    if inside then isPlainText dialect (c ≠ '\'') rest
    else c ≠ dialect.openQuote && c ≠ dialect.mark && isPlainText dialect (c = '\'') rest

/-- What is kept as it stands. -/
theorem neutralFrom?_append_of_isPlainText {inside : Bool} {text : List Char}
    (h : isPlainText dialect inside text = true) (rest : List Char) :
    neutralFrom? dialect (if inside then .literal else .plain) (text ++ rest) =
      (neutralFrom? dialect .plain rest).map (text.map Glyph.char ++ ·) := by
  induction text generalizing inside with
  | nil =>
    cases inside with
    | true => cases h
    | false => simp
  | cons c text ih =>
    -- every character is added as it is; what changes is whether the reader is inside a literal
    have hadd : ∀ after : Bool, isPlainText dialect after text = true →
        proceed dialect c (if inside then .literal else .plain) =
          ([.char c], if after then .literal else .plain) →
        neutralFrom? dialect (if inside then .literal else .plain) (c :: text ++ rest) =
          (neutralFrom? dialect .plain rest).map ((c :: text).map Glyph.char ++ ·) := by
      intro after hafter hproceed
      rw [List.cons_append, neutralFrom?_cons hproceed, ih hafter, Option.map_map]
      rfl
    rw [isPlainText] at h
    cases inside with
    | true => exact hadd _ h (by by_cases hquote : c = '\'' <;> simp [proceed, hquote])
    | false =>
      simp only [Bool.false_eq_true, if_false, Bool.and_eq_true, decide_eq_true_eq] at h
      obtain ⟨⟨hopen, hmark⟩, h⟩ := h
      refine hadd _ h ?_
      change begins dialect c = _
      rw [begins, if_neg hopen, if_neg hmark]
      by_cases hquote : c = '\'' <;> simp [hquote]

/-- A quoted segment is one name. -/
theorem neutralFrom?_quoteSegment (segment : List Char) {rest : List Char} (hrest : SetOff rest) :
    neutralFrom? dialect .plain (dialect.quoteSegment segment ++ rest) =
      (neutralFrom? dialect .plain rest).map (.name segment :: ·) := by
  -- inside the quotes the name grows by one character of the segment after the other
  have hinside : ∀ name, neutralFrom? dialect (.name name)
      (dialect.doubleQuotes segment ++ dialect.closeQuote :: rest) =
        neutralFrom? dialect (.nameEnd (name ++ segment)) rest := by
    induction segment with
    | nil =>
      intro name
      have hend : proceed dialect dialect.closeQuote (.name name) = ([], .nameEnd name) :=
        if_pos rfl
      simp [Dialect.doubleQuotes, neutralFrom?_cons hend]
    | cons c segment ih =>
      intro name
      have hchar : ∀ others, neutralFrom? dialect (.name name)
          ((if c = dialect.closeQuote then [c, c] else [c]) ++ others) =
            neutralFrom? dialect (.name (name ++ [c])) others := by
        intro others
        by_cases hclose : c = dialect.closeQuote
        · have hend : proceed dialect c (.name name) = ([], .nameEnd name) := if_pos hclose
          have hdoubled : proceed dialect c (.nameEnd name) = ([], .name (name ++ [c])) :=
            if_pos hclose
          simp [if_pos hclose, neutralFrom?_cons hend, neutralFrom?_cons hdoubled]
        · have hgrow : proceed dialect c (.name name) = ([], .name (name ++ [c])) := if_neg hclose
          simp [if_neg hclose, neutralFrom?_cons hgrow]
      rw [Dialect.doubleQuotes, List.flatMap_cons, List.append_assoc, hchar]
      exact (ih (name ++ [c])).trans (by rw [List.append_assoc, List.singleton_append])
  have hopen : proceed dialect dialect.openQuote .plain = ([], .name []) := if_pos rfl
  rw [Dialect.quoteSegment, List.cons_append, List.cons_append, neutralFrom?_cons hopen,
    List.append_assoc, List.singleton_append, hinside, List.nil_append,
    neutralFrom?_nameEnd segment hrest, Option.map_map]
  rfl

/-- The names of a dotted path. -/
def pathGlyphs : List (List Char) → List Glyph
  | [] => []
  | [segment] => [.name segment]
  | segment :: rest => .name segment :: .char '.' :: pathGlyphs rest

theorem neutralFrom?_path (segments : List (List Char)) {rest : List Char} (hrest : SetOff rest) :
    neutralFrom? dialect .plain
        (Text.join ['.'] (segments.map dialect.quoteSegment) ++ rest) =
      (neutralFrom? dialect .plain rest).map (pathGlyphs segments ++ ·) := by
  induction segments with
  | nil => simp [Text.join, pathGlyphs]
  | cons segment segments ih =>
    cases segments with
    | nil => simpa [Text.join, pathGlyphs] using neutralFrom?_quoteSegment segment hrest
    | cons next segments =>
      have hdot : proceed dialect '.' .plain = ([.char '.'], .plain) := by cases dialect <;> rfl
      change neutralFrom? dialect .plain
        (dialect.quoteSegment segment ++ ['.'] ++ _ ++ rest) = _
      rw [List.append_assoc, List.append_assoc, List.singleton_append,
        neutralFrom?_quoteSegment segment (show SetOff ('.' :: _) from rfl),
        neutralFrom?_cons hdot, ih, Option.map_map, Option.map_map]
      rfl

theorem neutralFrom?_placeholder (number : Nat) {rest : List Char} (hrest : SetOff rest) :
    neutralFrom? dialect .plain ((dialect.placeholder.text number).toList ++ rest) =
      (neutralFrom? dialect .plain rest).map (.param :: ·) := by
  -- behind the mark there are only characters that go on with the placeholder
  have hrun : ∀ text : List Char, (∀ c ∈ text, dialect.continuesMark c = true) →
      neutralFrom? dialect .param (text ++ rest) = neutralFrom? dialect .param rest := by
    intro text htext
    induction text with
    | nil => rfl
    | cons c text ih =>
      have hgo : proceed dialect c .param = ([], .param) := if_pos (htext c List.mem_cons_self)
      rw [List.cons_append, neutralFrom?_cons hgo,
        ih fun other hother => htext other (List.mem_cons_of_mem _ hother)]
      simp
  have hdigits : ∀ c ∈ (toString number).toList, c.isAlphanum = true := by
    intro c hc
    have hdigit : c.isDigit = true := Nat.isDigit_of_mem_toDigits (by decide) (by decide)
      (Nat.toList_repr ▸ hc)
    simp [Char.isAlphanum, hdigit]
  have hmark : proceed dialect dialect.mark .plain = ([], .param) := by cases dialect <;> rfl
  have htext : ∃ digits, (dialect.placeholder.text number).toList = dialect.mark :: digits ∧
      ∀ c ∈ digits, dialect.continuesMark c = true := by
    cases dialect with
    | postgres =>
      refine ⟨_, toList_dollar number, fun c hc => ?_⟩
      simpa [Dialect.continuesMark, Dialect.placeholder] using hdigits c hc
    | mssql =>
      refine ⟨_, toList_named number, fun c hc => ?_⟩
      rcases List.mem_cons.1 hc with rfl | hc
      · decide
      · simpa [Dialect.continuesMark, Dialect.placeholder] using hdigits c hc
    | mysql | sqlite => exact ⟨[], toList_question number, by simp⟩
  obtain ⟨digits, htext, hcontinues⟩ := htext
  rw [htext, List.cons_append, neutralFrom?_cons hmark, hrun digits hcontinues,
    neutralFrom?_param hrest, Option.map_map]
  rfl

/-! ### Pieces -/

/-- A piece in the form that the dialects share. -/
def Piece.glyphs : Piece → List Glyph
  | fixed sql => sql.toList.map .char
  | column reference => pathGlyphs (Text.split '.' reference.toList)
  | param _ => [.param]
  | verbatim sql => sql.toList.map .char

/-- The number of a parameter. -/
def Piece.number? : Piece → Option Nat
  | param number => some number
  | _ => none

/-- Pieces in the form that the dialects share. -/
def glyphs (pieces : List Piece) : List Glyph := pieces.flatMap Piece.glyphs

/-- Whether pieces do not go on with what stands before them. -/
def areSetOff : List Piece → Bool
  | [] => true
  | .fixed sql :: _ => sql.toList.head?.any isSeparator
  | _ => false

/-- Whether pieces are set off from each other: behind every column and every parameter there is a
separator or nothing, and what stands between them is the same in every dialect. -/
def isSpaced (dialect : Dialect) : List Piece → Bool
  | [] => true
  | .fixed sql :: rest => isPlainText dialect false sql.toList && isSpaced dialect rest
  | .column _ :: rest => areSetOff rest && isSpaced dialect rest
  | .param _ :: rest => areSetOff rest && isSpaced dialect rest
  | .verbatim _ :: _ => false

theorem setOff_chars {pieces : List Piece} (h : areSetOff pieces = true) :
    SetOff (chars dialect pieces) := by
  cases pieces with
  | nil => trivial
  | cons piece rest =>
    cases piece with
    | fixed sql =>
      rw [areSetOff] at h
      rw [chars_cons, text_fixed]
      cases hsql : sql.toList with
      | nil => simp [hsql] at h
      | cons c text => simpa [hsql, SetOff] using h
    | _ => cases h

/-- **The text of spaced pieces has their shared form.** -/
theorem neutral?_chars {pieces : List Piece} (h : isSpaced dialect pieces = true) :
    neutral? dialect (chars dialect pieces) = some (glyphs pieces) := by
  unfold neutral?
  induction pieces with
  | nil => rfl
  | cons piece rest ih =>
    rw [chars_cons, glyphs, List.flatMap_cons]
    cases piece with
    | fixed sql =>
      rw [isSpaced, Bool.and_eq_true] at h
      have hfixed := neutralFrom?_append_of_isPlainText h.1 (chars dialect rest)
      rw [if_neg Bool.false_ne_true, ih h.2] at hfixed
      exact hfixed
    | column reference =>
      rw [isSpaced, Bool.and_eq_true] at h
      rw [text_column, Dialect.quote, String.toList_ofList,
        neutralFrom?_path _ (setOff_chars h.1), ih h.2]
      rfl
    | param number =>
      rw [isSpaced, Bool.and_eq_true] at h
      rw [text_param, neutralFrom?_placeholder number (setOff_chars h.1), ih h.2]
      rfl
    | verbatim sql => cases h

/-! ### Spelling -/

theorem respell_chars (number : Nat) (text : List Char) (rest : List Glyph) :
    respell dialect number (text.map .char ++ rest) = text ++ respell dialect number rest := by
  induction text with
  | nil => rfl
  | cons c text ih => rw [List.map_cons, List.cons_append, respell, ih, List.cons_append]

theorem respell_path (number : Nat) (segments : List (List Char)) (rest : List Glyph) :
    respell dialect number (pathGlyphs segments ++ rest) =
      Text.join ['.'] (segments.map dialect.quoteSegment) ++ respell dialect number rest := by
  induction segments with
  | nil => rfl
  | cons segment segments ih =>
    cases segments with
    | nil => rfl
    | cons next segments =>
      change dialect.quoteSegment segment ++ '.' :: respell dialect number
        (pathGlyphs (next :: segments) ++ rest) = _
      rw [ih]
      simp [Text.join]

/-- **The text of pieces is the spelling of their shared form**, if their parameters are numbered
one after the other. -/
theorem respell_glyphs {pieces : List Piece} {number count : Nat}
    (h : pieces.filterMap Piece.number? = List.range' number count) :
    respell dialect number (glyphs pieces) = chars dialect pieces := by
  induction pieces generalizing number count with
  | nil => rfl
  | cons piece rest ih =>
    rw [chars_cons, glyphs, List.flatMap_cons]
    cases piece with
    | fixed sql => exact (respell_chars number sql.toList _).trans (congrArg _ (ih h))
    | verbatim sql => exact (respell_chars number sql.toList _).trans (congrArg _ (ih h))
    | column reference =>
      rw [text_column, Dialect.quote, String.toList_ofList]
      exact (respell_path number _ _).trans (congrArg _ (ih h))
    | param own =>
      rw [List.filterMap_cons] at h
      cases count with
      | zero => cases h
      | succ count =>
        rw [List.range'_succ] at h
        obtain ⟨rfl, hrest⟩ := List.cons.inj h
        exact congrArg _ (ih hrest)

end Sql

end Criteria
