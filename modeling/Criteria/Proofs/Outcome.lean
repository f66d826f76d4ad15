import Mathlib.Data.List.Forall2

/-!
# Outcomes of computations

A computation in several steps succeeds exactly when each step does. The lemmas here take a success
apart, so that no proof about a reader or a compiler unfolds the monad.

The steps for a list succeed when they do one by one (`mapM_eq_ok_iff`), so what holds of a step
holds of a list.

`failure?` looks at an outcome from the other side: it forgets the result and keeps the failure. Two
computations with different results can so be said to fail alike. `FailsWith` says what every
failure of a computation is like.
-/

namespace Criteria

variable {ε α β : Type}

/-- A sequence succeeds when its first step does and the rest succeeds on the result. -/
theorem bind_eq_ok {first : Except ε α} {next : α → Except ε β} {result : β} :
    first >>= next = .ok result ↔ ∃ value, first = .ok value ∧ next value = .ok result := by
  cases first with
  | error e => simp [bind, Except.bind]
  | ok value => simp [bind, Except.bind]

/-- A mapped computation succeeds when the computation itself does. -/
theorem map_eq_ok {f : α → β} {first : Except ε α} {result : β} :
    first.map f = .ok result ↔ ∃ value, first = .ok value ∧ f value = result := by
  cases first with
  | error e => simp [Except.map]
  | ok value => simp [Except.map]

/-- Renaming failures changes no success. -/
@[simp] theorem mapError_eq_ok {ε' : Type} {f : ε → ε'} {outcome : Except ε α} {result : α} :
    outcome.mapError f = .ok result ↔ outcome = .ok result := by
  constructor
  · intro h
    cases outcome with
    | error fault => cases h
    | ok value =>
      cases h
      rfl
  · rintro rfl
    rfl

/-- A check before the rest has to pass. -/
theorem check_bind_eq_ok {check : Except ε Unit} {next : Unit → Except ε β} {result : β} :
    check >>= next = .ok result ↔ check = .ok () ∧ next () = .ok result := by
  cases check with
  | error e => simp [bind, Except.bind]
  | ok value => simp [bind, Except.bind]

/-- What is refused without a condition needs the condition. -/
theorem guard_eq_ok {condition : Prop} [Decidable condition] {fault : ε} {rest : Except ε α}
    {result : α} :
    (if condition then rest else .error fault) = .ok result ↔ condition ∧ rest = .ok result := by
  by_cases h : condition <;> simp [h]

/-- What is refused under a condition needs the condition to fail. -/
theorem refuse_eq_ok {condition : Prop} [Decidable condition] {fault : ε} {rest : Except ε α}
    {result : α} :
    (if condition then .error fault else rest) = .ok result ↔ ¬ condition ∧ rest = .ok result := by
  by_cases h : condition <;> simp [h]

/-- A check of one condition passes if the condition holds. -/
theorem ite_eq_ok {condition : Prop} [Decidable condition] {fault : ε} :
    (if condition then .ok () else .error fault : Except ε Unit) = .ok () ↔ condition := by
  by_cases h : condition <;> simp [h]

@[simp] theorem pure_eq_ok_iff {value result : α} :
    (pure value : Except ε α) = .ok result ↔ value = result := by
  simp [pure, Except.pure]

/-! ### Steps for lists -/

/-- The steps for a list succeed when each of them does. -/
theorem mapM_eq_ok_iff {f : α → Except ε β} :
    ∀ {items : List α} {values : List β}, items.mapM f = .ok values ↔
      List.Forall₂ (fun item value => f item = .ok value) items values := by
  intro items
  induction items with
  | nil =>
    intro values
    rw [List.mapM_nil, pure_eq_ok_iff, List.forall₂_nil_left_iff, eq_comm]
  | cons item items ih =>
    intro values
    rw [List.mapM_cons, List.forall₂_cons_left_iff]
    constructor
    · intro h
      obtain ⟨value, hvalue, h⟩ := bind_eq_ok.1 h
      obtain ⟨rest, hrest, h⟩ := bind_eq_ok.1 h
      exact ⟨value, rest, hvalue, ih.1 hrest, (Except.ok.inj h).symm⟩
    · rintro ⟨value, rest, hvalue, hrest, rfl⟩
      exact bind_eq_ok.2 ⟨value, hvalue, bind_eq_ok.2 ⟨rest, ih.2 hrest, rfl⟩⟩

/-- The steps for a list all succeed exactly if each of them can. -/
theorem exists_mapM_iff {f : α → Except ε β} {items : List α} :
    (∃ values, items.mapM f = .ok values) ↔ ∀ item ∈ items, ∃ value, f item = .ok value := by
  simp only [mapM_eq_ok_iff]
  induction items with
  | nil => exact iff_of_true ⟨[], .nil⟩ (List.forall_mem_nil _)
  | cons item items ih =>
    rw [List.forall_mem_cons, ← ih]
    constructor
    · rintro ⟨_, h⟩
      cases h with
      | cons hitem hitems => exact ⟨⟨_, hitem⟩, _, hitems⟩
    · rintro ⟨⟨value, hitem⟩, values, hitems⟩
      exact ⟨value :: values, .cons hitem hitems⟩

/-- If each step keeps what is read off an item, the steps for a list keep it of all items. -/
theorem map_eq_map_of_mapM_eq_ok {γ : Type} {f : α → Except ε β} {read : α → γ} {read' : β → γ}
    (hread : ∀ item value, f item = .ok value → read' value = read item) {items : List α}
    {values : List β} (h : items.mapM f = .ok values) : values.map read' = items.map read := by
  rw [mapM_eq_ok_iff] at h
  induction h with
  | nil => rfl
  | cons hitem _ ih => rw [List.map_cons, List.map_cons, hread _ _ hitem, ih]

/-- Steps that take items out of what they were put into give back the items. -/
theorem mapM_map_eq_ok {f : β → Except ε α} {put : α → β} (hput : ∀ item, f (put item) = .ok item)
    (items : List α) : (items.map put).mapM f = .ok items := by
  rw [mapM_eq_ok_iff, List.forall₂_map_left_iff, List.forall₂_same]
  exact fun item _ => hput item

/-- Relations between lists, one after the other. -/
theorem forall₂_comp {γ : Type} {R : α → β → Prop} {S : β → γ → Prop} {T : α → γ → Prop}
    (hcomp : ∀ a b c, R a b → S b c → T a c) {as : List α} {bs : List β} {cs : List γ}
    (hR : List.Forall₂ R as bs) (hS : List.Forall₂ S bs cs) : List.Forall₂ T as cs := by
  induction hR generalizing cs with
  | nil =>
    cases hS
    exact .nil
  | cons hab _ ih =>
    cases hS with
    | cons hbc hrest => exact .cons (hcomp _ _ _ hab hbc) (ih hrest)

/-! ### Failures -/

/-- The failure of a computation, `none` if it succeeds. -/
def failure? : Except ε α → Option ε
  | .error fault => some fault
  | .ok _ => none

@[simp] theorem failure?_error (fault : ε) :
    failure? (.error fault : Except ε α) = some fault := rfl

@[simp] theorem failure?_ok (value : α) : failure? (.ok value : Except ε α) = none := rfl

theorem failure?_eq_some {outcome : Except ε α} {fault : ε} :
    failure? outcome = some fault ↔ outcome = .error fault := by
  cases outcome <;> simp

theorem failure?_eq_none {outcome : Except ε α} :
    failure? outcome = none ↔ ∃ value, outcome = .ok value := by
  cases outcome <;> simp

/-- If the rest cannot fail, the first step decides. -/
theorem failure?_bind {first : Except ε α} {next : α → Except ε β}
    (hnext : ∀ value, first = .ok value → failure? (next value) = none) :
    failure? (first >>= next) = failure? first := by
  cases first with
  | error fault => rfl
  | ok value => exact hnext value rfl

/-- Steps that fail alike, with a rest that fails alike, make computations that fail alike. -/
theorem failure?_bind_congr {α' β' : Type} {first : Except ε α} {other : Except ε α'}
    {next : α → Except ε β} {rest : α' → Except ε β'} (hfirst : failure? first = failure? other)
    (hnext : ∀ value value', failure? (next value) = failure? (rest value')) :
    failure? (first >>= next) = failure? (other >>= rest) := by
  cases first <;> cases other <;> simp at hfirst
  · simpa [bind, Except.bind] using hfirst
  · exact hnext _ _

/-! ### What failures are like -/

section

variable {property : ε → Prop}

/-- Whenever the computation fails, its failure has the property. -/
def FailsWith (property : ε → Prop) (outcome : Except ε α) : Prop :=
  ∀ fault, outcome = .error fault → property fault

@[simp] theorem failsWith_ok (value : α) : FailsWith property (.ok value : Except ε α) :=
  fun _ h => nomatch h

@[simp] theorem failsWith_pure (value : α) : FailsWith property (pure value : Except ε α) :=
  failsWith_ok value

@[simp] theorem failsWith_error {fault : ε} :
    FailsWith property (.error fault : Except ε α) ↔ property fault := by
  constructor
  · intro h
    exact h fault rfl
  · intro h other hother
    exact Except.error.inj hother ▸ h

/-- A sequence fails in its first step, or in the rest on the result of the first. -/
theorem FailsWith.bind_of_ok {first : Except ε α} {next : α → Except ε β}
    (hfirst : FailsWith property first)
    (hnext : ∀ value, first = .ok value → FailsWith property (next value)) :
    FailsWith property (first >>= next) := by
  cases first with
  | error fault => exact failsWith_error.2 (failsWith_error.1 hfirst)
  | ok value => exact hnext value rfl

/-- A sequence fails in one of its steps. -/
theorem FailsWith.bind {first : Except ε α} {next : α → Except ε β}
    (hfirst : FailsWith property first) (hnext : ∀ value, FailsWith property (next value)) :
    FailsWith property (first >>= next) :=
  hfirst.bind_of_ok fun value _ => hnext value

/-- A mapped computation fails as the computation itself. -/
theorem FailsWith.map {first : Except ε α} (hfirst : FailsWith property first) (f : α → β) :
    FailsWith property (first.map f) := by
  cases first with
  | error fault => exact failsWith_error.2 (failsWith_error.1 hfirst)
  | ok value => exact failsWith_ok _

/-- A choice fails as what is chosen. -/
theorem FailsWith.ite {condition : Prop} [Decidable condition] {first second : Except ε α}
    (hfirst : condition → FailsWith property first)
    (hsecond : ¬ condition → FailsWith property second) :
    FailsWith property (if condition then first else second) := by
  by_cases h : condition
  · rw [if_pos h]
    exact hfirst h
  · rw [if_neg h]
    exact hsecond h

/-- What is refused without a condition fails so, or as the rest does. -/
theorem FailsWith.guard {condition : Prop} [Decidable condition] {fault : ε} {rest : Except ε α}
    (hfault : property fault) (hrest : condition → FailsWith property rest) :
    FailsWith property (if condition then rest else .error fault) :=
  .ite hrest fun _ => failsWith_error.2 hfault

/-- The steps for a list fail in one of them. -/
theorem FailsWith.mapM {f : α → Except ε β} {items : List α}
    (hstep : ∀ item ∈ items, FailsWith property (f item)) :
    FailsWith property (items.mapM f) := by
  induction items with
  | nil =>
    rw [List.mapM_nil]
    exact failsWith_pure []
  | cons item items ih =>
    obtain ⟨hitem, hitems⟩ := List.forall_mem_cons.1 hstep
    rw [List.mapM_cons]
    refine .bind hitem fun value => ?_
    exact .bind (ih hitems) fun values => failsWith_pure _

end

end Criteria
