import Criteria.Text.Blank
import Mathlib.Data.List.TakeWhile

/-!
# Spans of characters

Readers take the characters of a class from the beginning of a text, or drop them from both ends.
What they take is found again in a longer text, provided that the text goes on with a character
outside of the class. `Ends` is this condition.

* `takeWhile_append`, `dropWhile_append` — where a span ends;
* `exists_strip`, `strip_append` — what is dropped from both ends, and what is left;
* `exists_strip_around` — if a text holds something that is kept, all around it is dropped in part;
* `exists_strip_behind` — behind something that is kept, the end alone is dropped;
* `trim_eq_self_iff` — the texts that have no blanks around them.
-/

namespace Criteria.Text

variable {p : Char → Bool} {chars core lead rest trail : List Char}

/-- A text of blanks alone. -/
def IsGap (chars : List Char) : Prop := ∀ c ∈ chars, isBlank c = true

instance (chars : List Char) : Decidable (IsGap chars) :=
  List.decidableBAll (isBlank · = true) chars

/-- In a text without blanks there is no room for them. -/
theorem IsGap.eq_nil (hgap : IsGap chars) (hsolid : ∀ c ∈ chars ++ rest, isBlank c = false) :
    chars = [] := by
  cases chars with
  | nil => rfl
  | cons c chars =>
    have hblank : isBlank c = true := hgap c List.mem_cons_self
    have hnot : isBlank c = false := hsolid c (by simp)
    rw [hblank] at hnot
    cases hnot

/-- A text does not begin with a character of a class. -/
def Ends (p : Char → Bool) (rest : List Char) : Prop := ∀ c ∈ rest.head?, p c = false

@[simp] theorem ends_nil (p : Char → Bool) : Ends p [] := nofun

@[simp] theorem ends_cons {c : Char} : Ends p (c :: rest) ↔ p c = false := by
  simp [Ends]

/-- What is left behind a span does not begin with a character of its class. -/
theorem ends_dropWhile (chars : List Char) : Ends p (chars.dropWhile p) := by
  intro c hc
  have hnot := List.head?_dropWhile_not p chars
  rw [Option.mem_def.1 hc] at hnot
  simpa using hnot

theorem Ends.append (hchars : Ends p chars) (hrest : Ends p rest) : Ends p (chars ++ rest) := by
  cases chars with
  | nil => exact hrest
  | cons c chars => exact ends_cons.2 (ends_cons.1 hchars)

theorem Ends.append_of_ne_nil (hchars : Ends p chars) (hne : chars ≠ []) :
    Ends p (chars ++ rest) := by
  obtain ⟨c, chars, rfl⟩ := List.exists_cons_of_ne_nil hne
  exact ends_cons.2 (ends_cons.1 hchars)

theorem Ends.takeWhile_eq_nil (h : Ends p rest) : rest.takeWhile p = [] := by
  cases rest with
  | nil => rfl
  | cons c rest => exact List.takeWhile_cons_of_neg (by simp [ends_cons.1 h])

theorem Ends.dropWhile_eq_self (h : Ends p rest) : rest.dropWhile p = rest := by
  cases rest with
  | nil => rfl
  | cons c rest => exact List.dropWhile_cons_of_neg (by simp [ends_cons.1 h])

/-- A text that goes on with something outside of a class does so however it is cut short. -/
theorem Ends.of_initial (h : Ends p chars) (hinitial : rest <+: chars) : Ends p rest := by
  obtain ⟨trail, rfl⟩ := hinitial
  cases rest with
  | nil => exact ends_nil p
  | cons c rest => exact ends_cons.2 (ends_cons.1 h)

theorem takeWhile_append (hchars : ∀ c ∈ chars, p c = true) (hrest : Ends p rest) :
    (chars ++ rest).takeWhile p = chars := by
  rw [List.takeWhile_append_of_pos hchars, hrest.takeWhile_eq_nil, List.append_nil]

theorem dropWhile_append (hchars : ∀ c ∈ chars, p c = true) (hrest : Ends p rest) :
    (chars ++ rest).dropWhile p = rest := by
  rw [List.dropWhile_append_of_pos hchars, hrest.dropWhile_eq_self]

/-- A text is its end, as far as it is of a class, behind everything else. -/
theorem eq_append_reverse (p : Char → Bool) (chars : List Char) :
    chars = (chars.reverse.dropWhile p).reverse ++ (chars.reverse.takeWhile p).reverse := by
  rw [← List.reverse_append, List.takeWhile_append_dropWhile, List.reverse_reverse]

/-- A text is what is dropped from its ends, with the rest in between. -/
theorem exists_strip (p : Char → Bool) (chars : List Char) :
    ∃ lead trail, chars = lead ++ strip p chars ++ trail ∧ (∀ c ∈ lead, p c = true) ∧
      ∀ c ∈ trail, p c = true := by
  refine ⟨chars.takeWhile p, ((chars.dropWhile p).reverse.takeWhile p).reverse, ?_, ?_, ?_⟩
  · rw [strip, List.append_assoc, ← eq_append_reverse, List.takeWhile_append_dropWhile]
  · exact fun c hc => List.mem_takeWhile_imp hc
  · exact fun c hc => List.mem_takeWhile_imp (List.mem_reverse.1 hc)

theorem strip_infix (p : Char → Bool) (chars : List Char) : strip p chars <:+: chars := by
  obtain ⟨lead, trail, heq, -, -⟩ := exists_strip p chars
  exact ⟨lead, trail, heq.symm⟩

/-- What is left neither begins nor ends with what is dropped. -/
theorem ends_strip (p : Char → Bool) (chars : List Char) :
    Ends p (strip p chars) ∧ Ends p (strip p chars).reverse := by
  unfold strip
  constructor
  · have hsuffix := List.dropWhile_suffix p (l := (chars.dropWhile p).reverse)
    exact (ends_dropWhile chars).of_initial (List.reverse_suffix.1 (by simpa using hsuffix))
  · rw [List.reverse_reverse]
    exact ends_dropWhile _

/-- What stands between characters of a class is left, if it neither begins nor ends with one. -/
theorem strip_append (hlead : ∀ c ∈ lead, p c = true) (htrail : ∀ c ∈ trail, p c = true)
    (hne : core ≠ []) (hfirst : Ends p core) (hlast : Ends p core.reverse) :
    strip p (lead ++ core ++ trail) = core := by
  rw [strip, List.append_assoc, dropWhile_append hlead (hfirst.append_of_ne_nil hne),
    List.reverse_append,
    dropWhile_append (fun c hc => htrail c (List.mem_reverse.1 hc)) hlast, List.reverse_reverse]

/-- What stands in the middle of a text is kept, and what stands around it is dropped in part. -/
theorem exists_strip_around (lead trail : List Char) (hne : core ≠ []) (hfirst : Ends p core)
    (hlast : Ends p core.reverse) :
    ∃ lead' trail', strip p (lead ++ core ++ trail) = lead' ++ core ++ trail' ∧
      lead' ⊆ lead ∧ trail' ⊆ trail := by
  refine ⟨lead.dropWhile p, (trail.reverse.dropWhile p).reverse, ?_, ?_, ?_⟩
  · have hsplit : lead ++ core ++ trail =
        lead.takeWhile p ++ (lead.dropWhile p ++ core ++ (trail.reverse.dropWhile p).reverse) ++
          (trail.reverse.takeWhile p).reverse :=
      calc lead ++ core ++ trail
          = (lead.takeWhile p ++ lead.dropWhile p) ++ core ++
              ((trail.reverse.dropWhile p).reverse ++ (trail.reverse.takeWhile p).reverse) := by
            rw [List.takeWhile_append_dropWhile, ← eq_append_reverse]
        _ = _ := by simp only [List.append_assoc]
    rw [hsplit]
    -- what is left of the surroundings neither begins nor ends with a character of the class
    apply strip_append
    · exact fun c hc => List.mem_takeWhile_imp hc
    · exact fun c hc => List.mem_takeWhile_imp (List.mem_reverse.1 hc)
    · simp [hne]
    · rw [List.append_assoc]
      exact (ends_dropWhile lead).append (hfirst.append_of_ne_nil hne)
    · rw [List.reverse_append, List.reverse_append, List.reverse_reverse]
      exact (ends_dropWhile _).append (hlast.append_of_ne_nil (by simpa using hne))
  · exact (List.dropWhile_suffix p).subset
  · intro c hc
    have hmem : c ∈ trail.reverse := (List.dropWhile_suffix p).subset (List.mem_reverse.1 hc)
    exact List.mem_reverse.1 hmem

/-- What is dropped from the end of a text makes no difference to what is left. -/
theorem strip_append_of_forall (htrail : ∀ c ∈ trail, p c = true) (chars : List Char) :
    strip p (chars ++ trail) = strip p chars := by
  obtain ⟨lead, trail', heq, hlead, htrail'⟩ := exists_strip p chars
  by_cases hempty : strip p chars = []
  · -- a text of which nothing is left is dropped altogether, with everything behind it
    have hall : ∀ c ∈ chars ++ trail, p c = true := by
      rw [heq, hempty, List.append_nil]
      intro c hc
      rcases List.mem_append.1 hc with hc | hc
      · exact (List.mem_append.1 hc).elim (hlead c) (htrail' c)
      · exact htrail c hc
    rw [hempty, strip, List.dropWhile_eq_nil_iff.2 hall, List.reverse_nil, List.dropWhile_nil,
      List.reverse_nil]
  · have hdropped : ∀ c ∈ trail' ++ trail, p c = true := fun c hc =>
      (List.mem_append.1 hc).elim (htrail' c) (htrail c)
    calc strip p (chars ++ trail)
        = strip p (lead ++ strip p chars ++ (trail' ++ trail)) := by
          rw [← List.append_assoc, ← heq]
      _ = strip p chars :=
          strip_append hlead hdropped hempty (ends_strip p chars).1 (ends_strip p chars).2

/-- Behind something that is kept, only the end of a text is dropped, and what is left of it is what
would be left if it stood alone, up to what stands in front. -/
theorem exists_strip_behind (hne : core ≠ []) (hfirst : Ends p core) (hlast : Ends p core.reverse)
    (chars : List Char) :
    ∃ kept, strip p (core ++ chars) = core ++ kept ∧ strip p kept = strip p chars := by
  have hsplit := eq_append_reverse p chars
  have hdropped : ∀ c ∈ (chars.reverse.takeWhile p).reverse, p c = true := fun c hc =>
    List.mem_takeWhile_imp (List.mem_reverse.1 hc)
  generalize hkept : (chars.reverse.dropWhile p).reverse = kept at hsplit
  have hends : Ends p (core ++ kept).reverse := by
    rw [List.reverse_append, ← hkept, List.reverse_reverse]
    exact (ends_dropWhile chars.reverse).append hlast
  have hlead : ∀ c ∈ ([] : List Char), p c = true := nofun
  refine ⟨kept, ?_, ?_⟩
  · rw [hsplit, ← List.append_assoc]
    exact strip_append hlead hdropped (List.append_ne_nil_of_left_ne_nil hne kept)
      (hfirst.append_of_ne_nil hne) hends
  · rw [hsplit, strip_append_of_forall hdropped]

/-! ### Blanks around a text -/

/-- Nothing is dropped exactly if a text neither begins nor ends with what is dropped. -/
theorem strip_eq_self_iff : strip p chars = chars ↔ Ends p chars ∧ Ends p chars.reverse := by
  constructor
  · intro hself
    have hends := ends_strip p chars
    rwa [hself] at hends
  · rintro ⟨hfirst, hlast⟩
    rw [strip, hfirst.dropWhile_eq_self, hlast.dropWhile_eq_self, List.reverse_reverse]

/-- A text that begins or ends with a blank. -/
def IsPadded (s : String) : Prop :=
  (∃ c ∈ s.toList.head?, isBlank c = true) ∨ ∃ c ∈ s.toList.getLast?, isBlank c = true

theorem trim_eq_self_iff {s : String} : trim s = s ↔ ¬ IsPadded s := by
  rw [trim, ← String.toList_inj, String.toList_ofList, strip_eq_self_iff, IsPadded, Ends, Ends,
    List.head?_reverse]
  simp only [not_or, not_exists, not_and, Bool.not_eq_true]

/-- A trimmed text has no blanks around it. -/
theorem not_isPadded_trim (s : String) : ¬ IsPadded (trim s) := by
  rw [← trim_eq_self_iff, ← String.toList_inj, trim, trim, String.toList_ofList,
    String.toList_ofList]
  exact strip_eq_self_iff.2 (ends_strip isBlank s.toList)

end Criteria.Text
