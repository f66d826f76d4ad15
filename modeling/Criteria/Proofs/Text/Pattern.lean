import Mathlib.Data.List.Infix

/-!
# Patterns and the texts they accept

The backends write patterns in several spellings, but they mean the same few things by them: any
text here, any character there, and characters that stand for themselves. A `Pattern` is what is
left of a spelling once it is read, a list of pieces, and `Pattern.accepts` says which texts it
accepts.

Whether letter case matters is up to the backend. Characters are compared by what a function `fold`
makes of them: the identity tells all of them apart, and a function to lower case does not tell the
cases of a letter apart.

* `CharClass`, `Piece`, `Pattern` — what a pattern is made of;
* `Pattern.accepts` — the matcher, which tries every text that a wildcard may stand for;
* `accepts_literal_append` — what may stand before the rest of a pattern;
* `read_flatMap` — how a reader of patterns gives back what was written;
* `accepts_within_iff`, `accepts_atStart_iff`, `accepts_atEnd_iff` — the patterns that look for a
  text anywhere, at the beginning and at the end;
* `likePiece` — the characters of `LIKE` patterns that every backend reads alike.
-/

namespace Criteria

/-- A set of characters. -/
inductive CharClass where
  /-- Every character. -/
  | any
  /-- One character. -/
  | exactly (c : Char)
  /-- The characters inside of some span, or those outside of all spans. -/
  | among (inside : Bool) (spans : List (Char × Char))
deriving DecidableEq, Repr

/-- A piece of a pattern. -/
inductive Piece where
  /-- Any text, the empty one included. -/
  | anything
  /-- A single character of a class. -/
  | one (set : CharClass)
deriving DecidableEq, Repr

/-- A pattern that has been read. -/
abbrev Pattern := List Piece

/-- A character that stands for itself. -/
def Piece.char (c : Char) : Piece := .one (.exactly c)

/-- What a character means in a `LIKE` pattern, if nothing but the two wildcards has a meaning. -/
def likePiece (c : Char) : Piece :=
  if c = '%' then .anything else if c = '_' then .one .any else .char c

namespace Pattern

variable (fold : Char → Char)

/-- Whether a character is of a class. -/
def holds (c : Char) : CharClass → Bool
  | .any => true
  | .exactly d => fold d == fold c
  | .among inside spans =>
    inside == spans.any fun span => decide (fold span.1 ≤ fold c) && decide (fold c ≤ fold span.2)

/-- Whether a pattern accepts a text. -/
def accepts : Pattern → List Char → Bool
  | [], subject => subject.isEmpty
  | .anything :: rest, subject => subject.tails.any fun tail => accepts rest tail
  | .one _ :: _, [] => false
  | .one set :: rest, c :: subject => holds fold c set && accepts rest subject

/-- A wildcard that took the first occurrence of the class behind it would miss this text. -/
example :
    accepts id [.anything, .one (.among true [('a', 'c')]), .char 'x'] "1b2cx".toList = true := by
  decide

/-- The pattern of a text that stands for itself. -/
def literal (text : List Char) : Pattern := text.map .char

variable {fold} {rest : Pattern} {text subject : List Char}

/-! ### The matcher -/

theorem accepts_nil_iff : accepts fold [] subject = true ↔ subject = [] := by
  rw [accepts, List.isEmpty_iff]

/-- A wildcard stands for some text, and the rest of the pattern accepts what comes behind it. -/
theorem accepts_anything_iff :
    accepts fold (.anything :: rest) subject = true ↔
      ∃ before after, subject = before ++ after ∧ accepts fold rest after = true := by
  rw [accepts, List.any_eq_true]
  constructor
  · rintro ⟨after, hafter, hrest⟩
    obtain ⟨before, rfl⟩ := (List.mem_tails _ _).1 hafter
    exact ⟨before, after, rfl, hrest⟩
  · rintro ⟨before, after, rfl, hrest⟩
    exact ⟨after, (List.mem_tails _ _).2 (List.suffix_append before after), hrest⟩

theorem accepts_char_iff {c : Char} :
    accepts fold (.char c :: rest) subject = true ↔
      ∃ d after, subject = d :: after ∧ fold d = fold c ∧ accepts fold rest after = true := by
  cases subject with
  | nil => simp [Piece.char, accepts]
  | cons d after =>
    rw [Piece.char, accepts, holds, Bool.and_eq_true, beq_iff_eq]
    constructor
    · rintro ⟨hsame, hrest⟩
      exact ⟨d, after, rfl, hsame.symm, hrest⟩
    · rintro ⟨_, _, hsubject, hsame, hrest⟩
      obtain ⟨rfl, rfl⟩ := List.cons.inj hsubject
      exact ⟨hsame.symm, hrest⟩

/-- A text that stands for itself stands, up to case, in front of what the rest accepts. -/
theorem accepts_literal_append :
    accepts fold (literal text ++ rest) subject = true ↔
      ∃ before after, subject = before ++ after ∧ before.map fold = text.map fold ∧
        accepts fold rest after = true := by
  induction text generalizing subject with
  | nil =>
    constructor
    · intro h
      exact ⟨[], subject, rfl, rfl, h⟩
    · rintro ⟨before, after, rfl, hbefore, hrest⟩
      rw [List.map_nil, List.map_eq_nil_iff] at hbefore
      rw [hbefore]
      exact hrest
  | cons c text ih =>
    change accepts fold (.char c :: (literal text ++ rest)) subject = true ↔ _
    rw [accepts_char_iff]
    constructor
    · rintro ⟨d, others, rfl, hsame, hothers⟩
      obtain ⟨before, after, rfl, hbefore, hrest⟩ := ih.1 hothers
      exact ⟨d :: before, after, rfl, by rw [List.map_cons, List.map_cons, hsame, hbefore], hrest⟩
    · rintro ⟨before, after, rfl, hbefore, hrest⟩
      obtain ⟨d, before, rfl, hsame, hbefore⟩ := List.map_eq_cons_iff.1 hbefore
      exact ⟨d, before ++ after, rfl, hsame, ih.2 ⟨before, after, rfl, hbefore, hrest⟩⟩

/-- A wildcard at the end of a pattern accepts everything. -/
theorem accepts_anything_nil : accepts fold [.anything] subject = true :=
  accepts_anything_iff.2 ⟨subject, [], (List.append_nil subject).symm, accepts_nil_iff.2 rfl⟩

/-! ### Reading what was written -/

/-- **What is written character by character is read character by character**, if the reader takes
back every single character in front of others. -/
theorem read_flatMap {read : List Char → Pattern} {write : Char → List Char} {piece : Char → Piece}
    (hread : ∀ c others, read (write c ++ others) = piece c :: read others)
    (written others : List Char) :
    read (written.flatMap write ++ others) = written.map piece ++ read others := by
  induction written with
  | nil => rfl
  | cons c written ih =>
    rw [List.flatMap_cons, List.append_assoc, hread, ih, List.map_cons, List.cons_append]

/-! ### Looking for a text -/

theorem accepts_atStart_iff :
    accepts fold (literal text ++ [.anything]) subject = true ↔
      text.map fold <+: subject.map fold := by
  rw [accepts_literal_append]
  constructor
  · rintro ⟨before, after, rfl, hbefore, -⟩
    exact ⟨after.map fold, by rw [List.map_append, hbefore]⟩
  · rintro ⟨after, hafter⟩
    obtain ⟨before, after, rfl, hbefore, -⟩ := List.map_eq_append_iff.1 hafter.symm
    exact ⟨before, after, rfl, hbefore, accepts_anything_nil⟩

theorem accepts_atEnd_iff :
    accepts fold (.anything :: literal text) subject = true ↔
      text.map fold <:+ subject.map fold := by
  rw [accepts_anything_iff]
  constructor
  · rintro ⟨before, after, rfl, hafter⟩
    rw [← List.append_nil (literal text)] at hafter
    obtain ⟨found, rest, rfl, hfound, hrest⟩ := accepts_literal_append.1 hafter
    obtain rfl := accepts_nil_iff.1 hrest
    exact ⟨before.map fold, by rw [List.append_nil, List.map_append, hfound]⟩
  · rintro ⟨before, hbefore⟩
    obtain ⟨before, after, rfl, -, hafter⟩ := List.map_eq_append_iff.1 hbefore.symm
    refine ⟨before, after, rfl, ?_⟩
    rw [← List.append_nil (literal text)]
    exact accepts_literal_append.2 ⟨after, [], (List.append_nil after).symm, hafter,
      accepts_nil_iff.2 rfl⟩

theorem accepts_within_iff :
    accepts fold (.anything :: literal text ++ [.anything]) subject = true ↔
      text.map fold <:+: subject.map fold := by
  rw [List.cons_append, accepts_anything_iff]
  constructor
  · rintro ⟨before, found, rfl, hfound⟩
    obtain ⟨after, hafter⟩ := accepts_atStart_iff.1 hfound
    exact ⟨before.map fold, after, by rw [List.append_assoc, hafter, List.map_append]⟩
  · rintro ⟨before, after, hsubject⟩
    rw [List.append_assoc] at hsubject
    obtain ⟨before, found, rfl, -, hfound⟩ := List.map_eq_append_iff.1 hsubject.symm
    exact ⟨before, found, rfl, accepts_atStart_iff.2 ⟨after, hfound.symm⟩⟩

end Pattern

end Criteria
