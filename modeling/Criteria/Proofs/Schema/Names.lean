import Criteria.Schema
import Mathlib

/-!
# Names as languages

The names that a schema accepts are said here as languages, in the way they are usually written
down: an identifier is `[A-Za-z_][A-Za-z0-9_]*`, and a part of a native reference is
`[A-Za-z_][A-Za-z0-9_$]*`. All characters are ASCII, and a name is never empty. The checks of a
schema go over the characters of a name once; they accept exactly these languages.

* `identifiers`, `nativeNames` — the languages;
* `IsClass` — languages of single characters, which the languages of names are made of;
* `isIdentifier_iff`, `isNativeName_iff` — what the checks accept;
* `split_eq_splitOn` — a reference is cut at its dots.
-/

namespace Criteria.Schema

open scoped Computability

variable {first second : Language Char} {p q : Char → Prop} {word : List Char}

/-! ### Languages -/

/-- The single characters of an interval. -/
def between (low high : Char) : Language Char := {word | ∃ c, word = [c] ∧ low ≤ c ∧ c ≤ high}

/-- The class `[A-Za-z_]`. -/
def nameStarts : Language Char := between 'A' 'Z' + between 'a' 'z' + between '_' '_'

/-- The class `[A-Za-z0-9_]`. -/
def nameParts : Language Char :=
  between 'A' 'Z' + between 'a' 'z' + between '0' '9' + between '_' '_'

/-- The language `[A-Za-z_][A-Za-z0-9_]*`. -/
def identifiers : Language Char := nameStarts * nameParts∗

/-- The language `[A-Za-z_][A-Za-z0-9_$]*`. -/
def nativeNames : Language Char := nameStarts * (nameParts + between '$' '$')∗

/-! ### Classes of characters -/

/-- A language has the single characters with a property, and no other words. -/
def IsClass (language : Language Char) (p : Char → Prop) : Prop :=
  ∀ word, word ∈ language ↔ ∃ c, word = [c] ∧ p c

namespace IsClass

theorem between (low high : Char) : IsClass (between low high) fun c => low ≤ c ∧ c ≤ high :=
  fun _ => Iff.rfl

theorem add (hfirst : IsClass first p) (hsecond : IsClass second q) :
    IsClass (first + second) fun c => p c ∨ q c := by
  intro word
  rw [Language.mem_add, hfirst, hsecond]
  constructor
  · rintro (⟨c, hword, hc⟩ | ⟨c, hword, hc⟩)
    · exact ⟨c, hword, .inl hc⟩
    · exact ⟨c, hword, .inr hc⟩
  · rintro ⟨c, hword, hc | hc⟩
    · exact .inl ⟨c, hword, hc⟩
    · exact .inr ⟨c, hword, hc⟩

/-- The words over a class are those whose characters are all in it. -/
theorem mem_kstar_iff (hclass : IsClass first p) : word ∈ first∗ ↔ ∀ c ∈ word, p c := by
  rw [Language.mem_kstar]
  constructor
  · rintro ⟨pieces, rfl, hpieces⟩ c hc
    obtain ⟨piece, hpiece, hmem⟩ := List.mem_flatten.1 hc
    obtain ⟨single, rfl, hsingle⟩ := (hclass piece).1 (hpieces piece hpiece)
    rw [List.mem_singleton.1 hmem]
    exact hsingle
  · intro hall
    -- the word is put together from its characters
    refine ⟨word.map fun c => [c], ?_, ?_⟩
    · rw [← List.flatMap_def, List.flatMap_singleton']
    · intro piece hpiece
      obtain ⟨c, hc, rfl⟩ := List.mem_map.1 hpiece
      exact (hclass [c]).2 ⟨c, rfl, hall c hc⟩

/-- A word over a class behind a character of another one. -/
theorem mem_mul_kstar_iff (hfirst : IsClass first p) (hsecond : IsClass second q) :
    word ∈ first * second∗ ↔ ∃ c rest, word = c :: rest ∧ p c ∧ ∀ other ∈ rest, q other := by
  rw [Language.mem_mul]
  constructor
  · rintro ⟨start, hstart, rest, hrest, rfl⟩
    obtain ⟨c, rfl, hc⟩ := (hfirst start).1 hstart
    exact ⟨c, rest, rfl, hc, hsecond.mem_kstar_iff.1 hrest⟩
  · rintro ⟨c, rest, rfl, hc, hall⟩
    exact ⟨[c], (hfirst [c]).2 ⟨c, rfl, hc⟩, rest, hsecond.mem_kstar_iff.2 hall, rfl⟩

end IsClass

/-! ### What the checks accept -/

theorem isAlpha_iff {c : Char} :
    c.isAlpha = true ↔ ('A' ≤ c ∧ c ≤ 'Z') ∨ ('a' ≤ c ∧ c ≤ 'z') := by
  simp [Char.isAlpha, Char.isUpper, Char.isLower, Char.le_def]

theorem isDigit_iff {c : Char} : c.isDigit = true ↔ '0' ≤ c ∧ c ≤ '9' := by
  simp [Char.isDigit, Char.le_def]

theorem eq_iff_between {c d : Char} : c = d ↔ d ≤ c ∧ c ≤ d := by
  constructor
  · rintro rfl
    exact ⟨Char.le_refl _, Char.le_refl _⟩
  · rintro ⟨hle, hge⟩
    exact Char.le_antisymm hge hle

/-- A check of the first character and of the further ones accepts a language. -/
theorem isName_iff {further : Char → Bool} (hclass : IsClass second fun c => further c = true) :
    isName further word = true ↔ word ∈ nameStarts * second∗ := by
  have hstart : IsClass nameStarts fun c => isNameStart c = true := by
    intro word
    have hclass := ((IsClass.between 'A' 'Z').add (.between 'a' 'z')).add (.between '_' '_')
    rw [nameStarts, hclass]
    simp only [isNameStart, Bool.or_eq_true, decide_eq_true_eq, isAlpha_iff, ← eq_iff_between]
  rw [hstart.mem_mul_kstar_iff hclass]
  cases word with
  | nil => simp [isName]
  | cons c rest => simp [isName]

/-- **An identifier** is a letter or an underscore with letters, digits and underscores behind
it. -/
theorem isIdentifier_iff {name : String} :
    isIdentifier name = true ↔ name.toList ∈ identifiers := by
  refine isName_iff fun word => ?_
  have hclass := (((IsClass.between 'A' 'Z').add (.between 'a' 'z')).add (.between '0' '9')).add
    (.between '_' '_')
  rw [nameParts, hclass]
  simp only [Char.isAlphanum, Bool.or_eq_true, decide_eq_true_eq, isAlpha_iff, isDigit_iff,
    ← eq_iff_between]

/-- **A native name** may have dollar signs as well, but not at its beginning. -/
theorem isNativeName_iff : isNativeName word = true ↔ word ∈ nativeNames := by
  refine isName_iff fun word => ?_
  have hclass := ((((IsClass.between 'A' 'Z').add (.between 'a' 'z')).add
    (.between '0' '9')).add (.between '_' '_')).add (.between '$' '$')
  rw [nameParts, hclass]
  simp only [Char.isAlphanum, Bool.or_eq_true, decide_eq_true_eq, isAlpha_iff, isDigit_iff,
    ← eq_iff_between]

/-- A text is cut at each occurrence of the separator, as lists are. -/
theorem split_eq_splitOn (sep : Char) (chars : List Char) :
    Text.split sep chars = chars.splitOn sep := by
  rw [List.splitOn]
  induction chars with
  | nil => rfl
  | cons c rest ih =>
    rw [List.splitOnP_cons_eq_if_modifyHead, ← ih, Text.split]
    by_cases hsep : c = sep
    · rw [if_pos hsep, if_pos (beq_iff_eq.2 hsep)]
    · rw [if_neg hsep, if_neg (by simpa using hsep)]
      -- the character goes to the first part, and there is one
      cases hparts : Text.split sep rest with
      | nil => exact absurd hparts (Text.split_ne_nil sep rest)
      | cons part parts => rfl

end Criteria.Schema
