import Criteria.Proofs.Sql.Lexeme
import Mathlib.Logic.Function.Basic

/-!
# Quoted paths are read back

A custom filter may have any text quoted as a path, and the fields of a schema are quoted the same
way. A database ends a quoted identifier at the first closing quote that is not doubled, so a text
with quotes of its own must neither end its identifier early nor run into the next one, also in the
dialect whose two quotes differ.

The reader here knows nothing of how paths are quoted. `Dialect.readPath?` takes a text for quoted
identifiers with single dots between them, and keeps what stands between the quotes as it is
written; `Dialect.undouble` is what a database makes of that afterwards. `Dialect.unquoted` collects
the characters that are read outside of quotes.

* `readPath?_quote`, `undouble_doubleQuotes` — a quoted path is read up to its end, segment by
  segment;
* `unquotedFrom_quote` — nothing but the dots between the segments is read outside of quotes;
* `quote_reads_back` — the two together, and that different texts are quoted differently.
-/

namespace Criteria

/-! ### Separators -/

/-- There is one part more than there are separators. -/
theorem Text.length_split (sep : Char) (chars : List Char) :
    (Text.split sep chars).length = chars.count sep + 1 := by
  induction chars with
  | nil => rfl
  | cons c rest ih =>
    rw [Text.split]
    by_cases hc : c = sep
    · rw [if_pos hc, List.length_cons, ih, hc, List.count_cons_self]
    · rw [if_neg hc, List.count_cons_of_ne hc]
      cases hsplit : Text.split sep rest with
      | nil => exact absurd hsplit (Text.split_ne_nil sep rest)
      | cons part parts =>
        rw [hsplit] at ih
        exact ih

/-- Different texts have different parts. -/
theorem Text.split_injective (sep : Char) : Function.Injective (Text.split sep) := by
  intro chars others h
  calc chars = Text.join [sep] (Text.split sep chars) := (Text.join_split sep chars).symm
    _ = Text.join [sep] (Text.split sep others) := by rw [h]
    _ = others := Text.join_split sep others

namespace Dialect

/-! ### The reader -/

/-- Where a reader of identifiers stands. -/
inductive Place where
  /-- Outside of quotes. -/
  | outside
  /-- Behind an opening quote. -/
  | inside
  /-- Behind a closing quote, which ends the identifier unless another one follows. -/
  | behind
deriving DecidableEq, Repr

/-- Where a reader stands behind a further character. -/
def Place.next (dialect : Dialect) : Place → Char → Place
  | .inside, c => if c = dialect.closeQuote then .behind else .inside
  | .behind, c =>
    if c = dialect.closeQuote then .inside
    else if c = dialect.openQuote then .inside else .outside
  | .outside, c => if c = dialect.openQuote then .inside else .outside

/-- The characters of a text that are read outside of quotes, the quotes not counted. -/
def unquotedFrom (dialect : Dialect) (place : Place) : List Char → List Char
  | [] => []
  | c :: rest =>
    match place.next dialect c with
    | .outside => c :: unquotedFrom dialect .outside rest
    | next => unquotedFrom dialect next rest

/-- What a text has outside of quotes. -/
def unquoted (dialect : Dialect) (text : List Char) : List Char :=
  unquotedFrom dialect .outside text

/-- Reads quoted identifiers with a dot between each two of them. `content` is what has been read of
the current one, as it is written. `none` if anything else stands outside of quotes, or if the text
ends within quotes or in front of an identifier. -/
def readFrom? (dialect : Dialect) : Place → List Char → List Char → Option (List (List Char))
  | .outside, _, [] => none
  | .inside, _, [] => none
  | .behind, content, [] => some [content]
  | .outside, _, c :: rest =>
    if c = dialect.openQuote then readFrom? dialect .inside [] rest else none
  | .inside, content, c :: rest =>
    if c = dialect.closeQuote then readFrom? dialect .behind content rest
    else readFrom? dialect .inside (content ++ [c]) rest
  | .behind, content, c :: rest =>
    if c = dialect.closeQuote then readFrom? dialect .inside (content ++ [c, c]) rest
    else if c = '.' then (readFrom? dialect .outside [] rest).map (content :: ·) else none

/-- The contents of the identifiers that a text consists of. -/
def readPath? (dialect : Dialect) (text : List Char) : Option (List (List Char)) :=
  readFrom? dialect .outside [] text

/-- The name that a content stands for: of two closing quotes one is meant. -/
def undouble (dialect : Dialect) : List Char → List Char
  | c :: d :: rest =>
    if c = dialect.closeQuote ∧ d = dialect.closeQuote then c :: undouble dialect rest
    else c :: undouble dialect (d :: rest)
  | chars => chars

variable (dialect : Dialect)

theorem dot_ne_closeQuote : '.' ≠ dialect.closeQuote := by
  cases dialect <;> decide

theorem dot_ne_openQuote : '.' ≠ dialect.openQuote := by
  cases dialect <;> decide

/-! ### One segment -/

@[simp] theorem doubleQuotes_nil : dialect.doubleQuotes [] = [] := rfl

theorem doubleQuotes_cons (c : Char) (segment : List Char) :
    dialect.doubleQuotes (c :: segment) =
      (if c = dialect.closeQuote then [c, c] else [c]) ++ dialect.doubleQuotes segment := rfl

/-- Undoubling gives back the segment whose quotes were doubled. -/
theorem undouble_doubleQuotes (segment : List Char) :
    dialect.undouble (dialect.doubleQuotes segment) = segment := by
  induction segment with
  | nil => rfl
  | cons c segment ih =>
    rw [doubleQuotes_cons]
    by_cases hc : c = dialect.closeQuote
    · rw [if_pos hc, List.cons_append, List.cons_append, List.nil_append, undouble,
        if_pos ⟨hc, hc⟩, ih]
    · rw [if_neg hc, List.cons_append, List.nil_append]
      -- what follows does not matter, for the first character is no closing quote
      cases hrest : dialect.doubleQuotes segment with
      | nil =>
        rw [hrest] at ih
        rw [← ih]
        rfl
      | cons d rest =>
        rw [undouble, if_neg (fun h => hc h.1), ← hrest, ih]

/-- The reader goes through the inside of a segment without leaving the quotes. -/
theorem readFrom?_doubleQuotes (segment rest : List Char) :
    ∀ content, readFrom? dialect .inside content (dialect.doubleQuotes segment ++ rest) =
      readFrom? dialect .inside (content ++ dialect.doubleQuotes segment) rest := by
  -- the content that was read grows from character to character
  induction segment with
  | nil => intro content; simp
  | cons c segment ih =>
    intro content
    rw [doubleQuotes_cons]
    by_cases hc : c = dialect.closeQuote
    · rw [if_pos hc, List.append_assoc, List.cons_append, List.cons_append, List.nil_append]
      rw [readFrom?, if_pos hc, readFrom?, if_pos hc, ih, List.append_assoc]
    · rw [if_neg hc, List.append_assoc, List.cons_append, List.nil_append]
      rw [readFrom?, if_neg hc, ih, List.append_assoc]

theorem unquotedFrom_doubleQuotes (segment rest : List Char) :
    dialect.unquotedFrom .inside (dialect.doubleQuotes segment ++ rest) =
      dialect.unquotedFrom .inside rest := by
  induction segment with
  | nil => rfl
  | cons c segment ih =>
    rw [doubleQuotes_cons]
    by_cases hc : c = dialect.closeQuote
    · rw [if_pos hc, List.append_assoc, List.cons_append, List.cons_append, List.nil_append]
      simp only [unquotedFrom, Place.next, if_pos hc, ih]
    · rw [if_neg hc, List.append_assoc, List.cons_append, List.nil_append]
      simp only [unquotedFrom, Place.next, if_neg hc, ih]

theorem quoteSegment_append (segment rest : List Char) :
    dialect.quoteSegment segment ++ rest =
      dialect.openQuote :: (dialect.doubleQuotes segment ++ dialect.closeQuote :: rest) := by
  simp [quoteSegment]

/-- A quoted segment is read up to its own closing quote. -/
theorem readFrom?_quoteSegment (segment rest : List Char) :
    readFrom? dialect .outside [] (dialect.quoteSegment segment ++ rest) =
      readFrom? dialect .behind (dialect.doubleQuotes segment) rest := by
  rw [quoteSegment_append, readFrom?, if_pos rfl, readFrom?_doubleQuotes, List.nil_append,
    readFrom?, if_pos rfl]

/-- All of a quoted segment is read inside of quotes. -/
theorem unquotedFrom_quoteSegment (segment rest : List Char) :
    dialect.unquotedFrom .outside (dialect.quoteSegment segment ++ rest) =
      dialect.unquotedFrom .behind rest := by
  have hopen : Place.outside.next dialect dialect.openQuote = .inside := if_pos rfl
  have hclose : Place.inside.next dialect dialect.closeQuote = .behind := if_pos rfl
  rw [quoteSegment_append, unquotedFrom, hopen]
  change dialect.unquotedFrom .inside _ = _
  rw [unquotedFrom_doubleQuotes, unquotedFrom, hclose]

/-! ### Paths -/

theorem join_cons_cons (segment next : List Char) (segments : List (List Char)) :
    Text.join ['.'] ((segment :: next :: segments).map dialect.quoteSegment) =
      dialect.quoteSegment segment ++
        '.' :: Text.join ['.'] ((next :: segments).map dialect.quoteSegment) := by
  simp [Text.join]

/-- A path is read as its segments, one by one and up to its end. -/
theorem readPath?_join {segments : List (List Char)} (hne : segments ≠ []) :
    dialect.readPath? (Text.join ['.'] (segments.map dialect.quoteSegment)) =
      some (segments.map dialect.doubleQuotes) := by
  unfold readPath?
  induction segments with
  | nil => exact absurd rfl hne
  | cons segment segments ih =>
    cases segments with
    | nil =>
      have hread := readFrom?_quoteSegment dialect segment []
      rw [List.append_nil] at hread
      exact hread
    | cons next segments =>
      rw [join_cons_cons, readFrom?_quoteSegment, readFrom?, if_neg (dot_ne_closeQuote dialect),
        if_pos rfl, ih (List.cons_ne_nil _ _)]
      rfl

/-- A path has a dot between each two segments outside of its quotes. What follows it is read from
behind its last quote. -/
theorem unquotedFrom_join (rest : List Char) (segment : List Char)
    (segments : List (List Char)) :
    dialect.unquotedFrom .outside
        (Text.join ['.'] ((segment :: segments).map dialect.quoteSegment) ++ rest) =
      List.replicate segments.length '.' ++ dialect.unquotedFrom .behind rest := by
  induction segments generalizing segment with
  | nil => exact unquotedFrom_quoteSegment dialect segment rest
  | cons next segments ih =>
    have hdot : Place.behind.next dialect '.' = .outside := by
      rw [Place.next, if_neg (dot_ne_closeQuote dialect), if_neg (dot_ne_openQuote dialect)]
    rw [join_cons_cons, List.append_assoc, List.cons_append, unquotedFrom_quoteSegment,
      unquotedFrom, hdot]
    change '.' :: dialect.unquotedFrom .outside _ = _
    rw [ih]
    rfl

theorem toList_quote (reference : String) :
    (dialect.quote reference).toList =
      Text.join ['.'] ((Text.split '.' reference.toList).map dialect.quoteSegment) := by
  rw [quote, String.toList_ofList]

theorem readPath?_quote (reference : String) :
    dialect.readPath? (dialect.quote reference).toList =
      some ((Text.split '.' reference.toList).map dialect.doubleQuotes) := by
  rw [toList_quote]
  exact readPath?_join dialect (Text.split_ne_nil '.' reference.toList)

/-- Behind a quoted text there is one dot outside of quotes for each dot of the text. -/
theorem unquotedFrom_quote (reference : String) (rest : List Char) :
    dialect.unquotedFrom .outside ((dialect.quote reference).toList ++ rest) =
      List.replicate (reference.toList.count '.') '.' ++ dialect.unquotedFrom .behind rest := by
  have hlength := Text.length_split '.' reference.toList
  rw [toList_quote]
  cases hsplit : Text.split '.' reference.toList with
  | nil => exact absurd hsplit (Text.split_ne_nil '.' reference.toList)
  | cons segment segments =>
    rw [hsplit, List.length_cons, Nat.add_right_cancel_iff] at hlength
    rw [unquotedFrom_join, hlength]

/-- Different texts are quoted differently. -/
theorem quote_injective : Function.Injective dialect.quote := by
  intro reference other h
  have hcontents : (Text.split '.' reference.toList).map dialect.doubleQuotes =
      (Text.split '.' other.toList).map dialect.doubleQuotes := by
    have hread := readPath?_quote dialect reference
    rw [h, readPath?_quote] at hread
    exact (Option.some.inj hread).symm
  have hdouble : Function.Injective dialect.doubleQuotes :=
    Function.LeftInverse.injective (undouble_doubleQuotes dialect)
  have hsegments := hdouble.list_map hcontents
  exact String.toList_inj.1 (Text.split_injective '.' hsegments)

/-- **Quoting is reversible and cannot be escaped from.** In every dialect and for every text, the
quoted text is one quoted identifier for each part between the dots of the text, with single dots
between them and nothing else. The names of the identifiers are those parts. So different texts are
quoted differently, and whatever follows, no part of the text is read outside of quotes: there is
nothing there but a dot for each dot of the text. The lexer of whole conditions sees the same. -/
theorem quote_reads_back :
    (∀ reference, ∃ contents,
      dialect.readPath? (dialect.quote reference).toList = some contents ∧
        contents.map dialect.undouble = Text.split '.' reference.toList) ∧
    Function.Injective dialect.quote ∧
    (∀ (reference : String) (rest : List Char),
      dialect.unquoted ((dialect.quote reference).toList ++ rest) =
        List.replicate (reference.toList.count '.') '.' ++ dialect.unquotedFrom .behind rest) ∧
    ∀ reference, Sql.lexemes? dialect (dialect.quote reference).toList =
      some ((Sql.pathTokens (Text.split '.' reference.toList)).map .token) := by
  refine ⟨fun reference => ?_, quote_injective dialect, unquotedFrom_quote dialect,
    fun reference => ?_⟩
  · refine ⟨_, readPath?_quote dialect reference, ?_⟩
    rw [List.map_map]
    exact List.map_id'' (undouble_doubleQuotes dialect) _
  · exact Sql.lexemes?_eq_some_iff.2 (Sql.Lexes.column dialect reference)

/-- Quotes at the edges of segments, an empty segment, and the two quotes of the dialect in which
they differ. -/
example :
    Dialect.mssql.quote "a]].].[" = "[a]]]]].[]]].[[]" ∧
      Dialect.mssql.readPath? "[a]]]]].[]]].[[]".toList =
        some ["a]]]]".toList, "]]".toList, "[".toList] ∧
      Dialect.sqlite.readPath? "\"\".\"\"\"\"".toList = some [[], ['"', '"']] := by
  decide

end Dialect

end Criteria
