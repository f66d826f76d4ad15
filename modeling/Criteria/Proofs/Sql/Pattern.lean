import Criteria.Proofs.Text.Pattern
import Criteria.Sql.Leaf

/-!
# Literal matches in SQL

The operators on parts of a text bind a `LIKE` pattern in which the text of the client is escaped.
A database reads the pattern back in its dialect: `%` and `_` are wildcards, the character behind
the escape character stands for itself, and one dialect takes what stands in brackets for a class of
characters. What is left of the client's text after this reading is the text, so the pattern accepts
what has the text in the place asked for, and nothing else.

* `likePattern` — how a dialect reads a pattern;
* `likeFrom_escapePattern` — an escaped text is read as the text, whatever follows it;
* `likePattern_literalPattern` — the patterns for the three places;
* `leaf_matches_literally` — the operators find their text.
-/

namespace Criteria.Sql

/-! ### Reading patterns -/

/-- Characters and spans of characters, as they stand between brackets. -/
def spans : List Char → List (Char × Char)
  | first :: '-' :: last :: rest => (first, last) :: spans rest
  | c :: rest => (c, c) :: spans rest
  | [] => []

/-- The class that brackets stand for. A caret in front means the characters outside of it. -/
def bracketClass : List Char → CharClass
  | '^' :: chars => .among false (spans chars)
  | chars => .among true (spans chars)

/-- Where the reader of a pattern stands. -/
inductive LikeState where
  /-- In front of a piece. -/
  | plain
  /-- Behind the escape character. -/
  | escaped
  /-- In brackets, behind some characters of the class. -/
  | bracketed (chars : List Char)

/-- Reads a pattern with the escape character from a state on. A bracket that is not closed and an
escape character at the very end stand for themselves. -/
def likeFrom (dialect : Dialect) : LikeState → List Char → Pattern
  | .plain, [] => []
  | .escaped, [] => [.char escapeMark]
  | .bracketed _, [] => []
  | .plain, c :: rest =>
    if c = escapeMark then likeFrom dialect .escaped rest
    else if c = '[' ∧ dialect = .mssql ∧ ']' ∈ rest then likeFrom dialect (.bracketed []) rest
    else likePiece c :: likeFrom dialect .plain rest
  | .escaped, c :: rest => .char c :: likeFrom dialect .plain rest
  | .bracketed chars, c :: rest =>
    if c = ']' then .one (bracketClass chars) :: likeFrom dialect .plain rest
    else likeFrom dialect (.bracketed (chars ++ [c])) rest

/-- How a dialect reads a pattern of `LIKE` with the escape character. -/
def likePattern (dialect : Dialect) (pattern : String) : Pattern :=
  likeFrom dialect .plain pattern.toList

/-- Two dialects read brackets in two ways, unless they are escaped. -/
example :
    likePattern .mssql "[^a-c_]![x]%" =
        [.one (.among false [('a', 'c'), ('_', '_')]), .char '[', .char 'x', .char ']',
          .anything] ∧
      likePattern .sqlite "[_]![" = [.char '[', .one .any, .char ']', .char '['] := by
  decide

variable {dialect : Dialect}

theorem likePiece_of_not_isSpecial {c : Char} (h : isSpecial dialect c = false) :
    likePiece c = .char c := by
  simp only [isSpecial, Bool.or_eq_false_iff, decide_eq_false_iff_not] at h
  obtain ⟨⟨⟨hpercent, hunderscore⟩, -⟩, -⟩ := h
  rw [likePiece, if_neg hpercent, if_neg hunderscore]

/-- Whether it is escaped or not, a character of an escaped text is read as itself. -/
theorem likeFrom_escaped (c : Char) (rest : List Char) :
    likeFrom dialect .plain ((if isSpecial dialect c then [escapeMark, c] else [c]) ++ rest) =
      .char c :: likeFrom dialect .plain rest := by
  cases hspecial : isSpecial dialect c with
  | true =>
    -- behind the mark any character stands for itself
    rw [if_pos rfl, List.cons_append, likeFrom, if_pos rfl, List.cons_append, likeFrom,
      List.nil_append]
  | false =>
    have hmark : c ≠ escapeMark := by
      rintro rfl
      cases hspecial
    have hbracket (closed : Prop) : ¬ (c = '[' ∧ dialect = .mssql ∧ closed) := by
      rintro ⟨rfl, rfl, -⟩
      cases hspecial
    rw [if_neg Bool.false_ne_true, List.cons_append, List.nil_append, likeFrom, if_neg hmark,
      if_neg (hbracket _), likePiece_of_not_isSpecial hspecial]

/-- **An escaped text is read as the text.** -/
theorem likeFrom_escapePattern (text rest : List Char) :
    likeFrom dialect .plain (escapePattern dialect text ++ rest) =
      Pattern.literal text ++ likeFrom dialect .plain rest :=
  Pattern.read_flatMap likeFrom_escaped text rest

/-! ### Places -/

/-- The operator that looks for a text at a place. -/
def Placement.operator : Placement → Operator
  | .within => .contains
  | .atStart => .startsWith
  | .atEnd => .endsWith

/-- A text has another one at a place. -/
def Placement.Finds : Placement → List Char → List Char → Prop
  | .within, text, subject => text <:+: subject
  | .atStart, text, subject => text <+: subject
  | .atEnd, text, subject => text <:+ subject

/-- The pattern of a text at a place, once it is read. -/
def Placement.pattern : Placement → List Char → Pattern
  | .within, text => .anything :: Pattern.literal text ++ [.anything]
  | .atStart, text => Pattern.literal text ++ [.anything]
  | .atEnd, text => .anything :: Pattern.literal text

theorem Placement.accepts_pattern_iff {fold : Char → Char} (placement : Placement)
    {text subject : List Char} :
    Pattern.accepts fold (placement.pattern text) subject = true ↔
      placement.Finds (text.map fold) (subject.map fold) := by
  cases placement with
  | within => exact Pattern.accepts_within_iff
  | atStart => exact Pattern.accepts_atStart_iff
  | atEnd => exact Pattern.accepts_atEnd_iff

/-- A wildcard in front of a pattern is no escape character and no bracket. -/
theorem likeFrom_anything (rest : List Char) :
    likeFrom dialect .plain ('%' :: rest) = .anything :: likeFrom dialect .plain rest := by
  rw [likeFrom, if_neg (by decide), if_neg (by simp)]
  rfl

theorem likePattern_literalPattern (placement : Placement) (text : String) :
    likePattern dialect (literalPattern dialect placement text) =
      placement.pattern text.toList := by
  have hclosed : likeFrom dialect .plain ['%'] = [.anything] := likeFrom_anything []
  unfold likePattern literalPattern
  rw [String.toList_ofList]
  cases placement with
  | within =>
    change likeFrom dialect .plain ('%' :: (escapePattern dialect text.toList ++ ['%'])) = _
    rw [likeFrom_anything, likeFrom_escapePattern, hclosed]
    rfl
  | atStart =>
    change likeFrom dialect .plain (escapePattern dialect text.toList ++ ['%']) = _
    rw [likeFrom_escapePattern, hclosed]
    rfl
  | atEnd =>
    change likeFrom dialect .plain ('%' :: escapePattern dialect text.toList) = _
    rw [likeFrom_anything, ← List.append_nil (escapePattern dialect text.toList),
      likeFrom_escapePattern]
    exact congrArg (Piece.anything :: ·) (List.append_nil _)

/-! ### Leaves -/

theorem leaf_operator {bound : Nat} {field : Field} {placement : Placement} {operand : Json}
    (hfield : placement = .within → field.kind ≠ .array) :
    leaf dialect bound field placement.operator operand =
      literalMatch dialect bound field placement.operator placement operand := by
  cases placement with
  | within => exact if_neg (hfield rfl)
  | atStart => rfl
  | atEnd => rfl

/-- **The operators on parts of a text match it literally.** In every dialect the text of the client
becomes a single pattern, and this accepts exactly the texts that have the client's text anywhere, at
the beginning or at the end, as the operator says. It does so for every way of comparing letters. -/
theorem leaf_matches_literally (dialect : Dialect) (bound : Nat) (field : Field)
    (placement : Placement) (text : String)
    (hfield : placement = .within → field.kind ≠ .array) :
    ∃ pattern, leaf dialect bound field placement.operator (.string text) =
        .ok (.test field.reference (.likeEscaped (bound + 1)), [.string pattern]) ∧
      ∀ (fold : Char → Char) (subject : String),
        Pattern.accepts fold (likePattern dialect pattern) subject.toList = true ↔
          placement.Finds (text.toList.map fold) (subject.toList.map fold) := by
  refine ⟨literalPattern dialect placement text, leaf_operator hfield, fun fold subject => ?_⟩
  rw [likePattern_literalPattern]
  exact placement.accepts_pattern_iff

/-- A text of nothing but characters with a meaning, in the dialect that has the most of them. -/
theorem leaf_matches_literally_metacharacters :
    let field : Field := .declare "name" .string
    let pattern := "%!%!_!!![]!%%"
    field.kind ≠ .array ∧
      leaf .mssql 4 field .contains (.string "%_![]%") =
        .ok (.test field.reference (.likeEscaped 5), [.string pattern]) ∧
      (∀ (fold : Char → Char) (subject : String),
        Pattern.accepts fold (likePattern .mssql pattern) subject.toList = true ↔
          "%_![]%".toList.map fold <:+: subject.toList.map fold) ∧
      Pattern.accepts Char.toLower (likePattern .mssql pattern) "A%_![]%a".toList = true ∧
      Pattern.accepts Char.toLower (likePattern .mssql pattern) "AxyB![]%a".toList = false := by
  intro field pattern
  have hkind : Placement.within = .within → field.kind ≠ .array := fun _ => by decide
  obtain ⟨found, hleaf, hfinds⟩ := leaf_matches_literally .mssql 4 field .within "%_![]%" hkind
  have hbound : leaf .mssql 4 field .contains (.string "%_![]%") =
      .ok (.test field.reference (.likeEscaped 5), [.string pattern]) := rfl
  obtain rfl : found = pattern := by
    have hsame := hleaf.symm.trans hbound
    simpa using hsame
  exact ⟨hkind rfl, hbound, hfinds, by decide, by decide⟩

end Criteria.Sql
