import Mathlib.Data.Fintype.Order

/-!
# Truth values

Filters are read in two logics. In the first a leaf is true or false; in the second, which is the
one databases use, it may also be unknown, and the connectives are those of Kleene. Both are bounded
lattices with a negation: the conjunction is the meet, the disjunction the join, and the truth of
Kleene's logic is ordered with the unknown value between the other two.

* `Truth` — the three values, with their order and their negation;
* `conj`, `disj` — the conjunction and the disjunction of a list of values;
* `conj_map_filter`, `disj_eq_top_of_mem` — a conjunction may drop what is true, and a disjunction
  with a true part is true;
* `conj_eq_all`, `disj_eq_any` — both where values are true or false.

Nothing here needs a law about negation. All that is rewritten below a negation is equal before it
is negated.
-/

namespace Criteria

/-- The values of Kleene's logic. -/
inductive Truth where
  | no
  | unknown
  | yes
deriving DecidableEq, Repr

namespace Truth

/-- How true a value is. -/
def rank : Truth → Nat
  | no => 0
  | unknown => 1
  | yes => 2

theorem rank_injective : Function.Injective rank := by
  intro a b h
  cases a <;> cases b <;> first | rfl | exact absurd h (by decide)

instance : LinearOrder Truth := LinearOrder.lift' rank rank_injective

instance : BoundedOrder Truth where
  top := yes
  le_top a := by cases a <;> decide
  bot := no
  bot_le a := by cases a <;> decide

/-- Negation turns the order around and keeps the unknown. -/
instance : Compl Truth where
  compl
    | no => yes
    | unknown => unknown
    | yes => no

example : (unknown ⊓ yes, unknown ⊓ no, unknown ⊔ yes, unknown ⊔ no, unknownᶜ) =
    (unknown, no, yes, unknown, unknown) := by decide

end Truth

/-! ### Conjunctions and disjunctions of lists -/

section Lists

variable {α β : Type} [Lattice α] [BoundedOrder α]

/-- The conjunction of values; the empty one is true. -/
def conj (values : List α) : α := values.foldr (· ⊓ ·) ⊤

/-- The disjunction of values; the empty one is false. -/
def disj (values : List α) : α := values.foldr (· ⊔ ·) ⊥

@[simp] theorem conj_nil : conj ([] : List α) = ⊤ := rfl

@[simp] theorem disj_nil : disj ([] : List α) = ⊥ := rfl

@[simp] theorem conj_cons (value : α) (values : List α) :
    conj (value :: values) = value ⊓ conj values := rfl

@[simp] theorem disj_cons (value : α) (values : List α) :
    disj (value :: values) = value ⊔ disj values := rfl

theorem conj_singleton (value : α) : conj [value] = value := by simp

theorem disj_singleton (value : α) : disj [value] = value := by simp

@[simp] theorem conj_append (values others : List α) :
    conj (values ++ others) = conj values ⊓ conj others := by
  induction values with
  | nil => simp
  | cons value values ih => simp [ih, inf_assoc]

@[simp] theorem disj_append (values others : List α) :
    disj (values ++ others) = disj values ⊔ disj others := by
  induction values with
  | nil => simp
  | cons value values ih => simp [ih, sup_assoc]

/-- The conjunction of equal values is that value. -/
theorem conj_eq_of_forall_eq {values : List α} {value : α} (hne : values ≠ [])
    (h : ∀ other ∈ values, other = value) : conj values = value := by
  induction values with
  | nil => exact absurd rfl hne
  | cons first values ih =>
    rw [conj_cons, h first List.mem_cons_self]
    -- the last value meets the true conjunction of nothing
    rcases values.eq_nil_or_concat with rfl | ⟨_, _, hvalues⟩
    · rw [conj_nil, inf_top_eq]
    · rw [ih (by simp [hvalues]) fun other hother => h other (List.mem_cons_of_mem _ hother),
        inf_idem]

/-- The disjunction of equal values is that value. -/
theorem disj_eq_of_forall_eq {values : List α} {value : α} (hne : values ≠ [])
    (h : ∀ other ∈ values, other = value) : disj values = value := by
  induction values with
  | nil => exact absurd rfl hne
  | cons first values ih =>
    rw [disj_cons, h first List.mem_cons_self]
    rcases values.eq_nil_or_concat with rfl | ⟨_, _, hvalues⟩
    · rw [disj_nil, sup_bot_eq]
    · rw [ih (by simp [hvalues]) fun other hother => h other (List.mem_cons_of_mem _ hother),
        sup_idem]

/-- A conjunction of true values is true, also the empty one. -/
theorem conj_eq_top {values : List α} (h : ∀ value ∈ values, value = ⊤) : conj values = ⊤ := by
  induction values with
  | nil => rfl
  | cons value values ih =>
    rw [conj_cons, h value List.mem_cons_self, top_inf_eq]
    exact ih fun other hother => h other (List.mem_cons_of_mem _ hother)

/-- A disjunction of false values is false, also the empty one. -/
theorem disj_eq_bot {values : List α} (h : ∀ value ∈ values, value = ⊥) : disj values = ⊥ := by
  induction values with
  | nil => rfl
  | cons value values ih =>
    rw [disj_cons, h value List.mem_cons_self, bot_sup_eq]
    exact ih fun other hother => h other (List.mem_cons_of_mem _ hother)

/-- A conjunction with a false part is false. -/
theorem conj_eq_bot_of_mem {values : List α} (h : ⊥ ∈ values) : conj values = ⊥ := by
  induction values with
  | nil => exact absurd h List.not_mem_nil
  | cons value values ih =>
    rcases List.mem_cons.1 h with rfl | h
    · rw [conj_cons, bot_inf_eq]
    · rw [conj_cons, ih h, inf_bot_eq]

/-- A disjunction with a true part is true. -/
theorem disj_eq_top_of_mem {values : List α} (h : ⊤ ∈ values) : disj values = ⊤ := by
  induction values with
  | nil => exact absurd h List.not_mem_nil
  | cons value values ih =>
    rcases List.mem_cons.1 h with rfl | h
    · rw [disj_cons, top_sup_eq]
    · rw [disj_cons, ih h, sup_top_eq]

/-- A conjunction may drop parts that are true. -/
theorem conj_map_filter (f : β → α) (keep : β → Bool) (parts : List β)
    (h : ∀ part ∈ parts, keep part = false → f part = ⊤) :
    conj ((parts.filter keep).map f) = conj (parts.map f) := by
  induction parts with
  | nil => rfl
  | cons part parts ih =>
    have hrest := ih fun p hp => h p (List.mem_cons_of_mem _ hp)
    cases hkeep : keep part with
    | true => rw [List.filter_cons_of_pos hkeep, List.map_cons, conj_cons, hrest, List.map_cons,
        conj_cons]
    | false =>
      rw [List.filter_cons_of_neg (by simp [hkeep]), hrest, List.map_cons, conj_cons,
        h part List.mem_cons_self hkeep, top_inf_eq]

end Lists

/-! ### Two values -/

theorem conj_eq_all (values : List Bool) : conj values = values.all id := by
  induction values with
  | nil => rfl
  | cons value values ih =>
    rw [conj_cons, ih, List.all_cons]
    rfl

theorem disj_eq_any (values : List Bool) : disj values = values.any id := by
  induction values with
  | nil => rfl
  | cons value values ih =>
    rw [disj_cons, ih, List.any_cons]
    rfl

end Criteria
