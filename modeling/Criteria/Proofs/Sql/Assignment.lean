import Criteria.Proofs.Sql.Expression
import Mathlib.Data.List.Nodup

/-!
# Assignments to the atoms of an expression

When no atom occurs twice, the atoms of an expression may be given any values independently of each
other. Then an expression can be made true and can be made false, and so can several expressions at
once, each as one likes. An expression without parts at some connective is a constant in disguise;
`Proper` excludes it.

* `Expr.atoms` — the atoms from left to right;
* `Expr.eval_congr` — the value depends on them only;
* `Expr.exists_eval_eq` — every value is taken.
-/

namespace Criteria

variable {α β : Type}

/-- Assignments to disjoint atoms can be made together. -/
theorem exists_agree {atoms others : List α} (h : atoms.Disjoint others) (v w : α → β) :
    ∃ u : α → β, (∀ a ∈ atoms, u a = v a) ∧ ∀ a ∈ others, u a = w a := by
  classical
  refine ⟨fun a => if a ∈ atoms then v a else w a, fun a ha => if_pos ha, fun a ha => ?_⟩
  exact if_neg fun hmem => h hmem ha

namespace Expr

/-! ### Atoms -/

mutual

/-- The atoms of an expression from left to right. -/
def atoms : Expr α → List α
  | .atom value => [value]
  | .not part => atoms part
  | .all parts => atomsAll parts
  | .any parts => atomsAll parts

/-- The atoms of expressions in turn. -/
def atomsAll : List (Expr α) → List α
  | [] => []
  | part :: parts => atoms part ++ atomsAll parts

end

@[simp] theorem atomsAll_nil : atomsAll ([] : List (Expr α)) = [] := rfl

@[simp] theorem atomsAll_cons (part : Expr α) (parts : List (Expr α)) :
    atomsAll (part :: parts) = part.atoms ++ atomsAll parts := rfl

@[simp] theorem atoms_atom (value : α) : (atom value).atoms = [value] := rfl

@[simp] theorem atoms_not (part : Expr α) : (not part).atoms = part.atoms := rfl

@[simp] theorem atoms_all (parts : List (Expr α)) : (all parts).atoms = atomsAll parts := rfl

@[simp] theorem atoms_any (parts : List (Expr α)) : (any parts).atoms = atomsAll parts := rfl

@[simp] theorem atomsAll_append (parts others : List (Expr α)) :
    atomsAll (parts ++ others) = atomsAll parts ++ atomsAll others := by
  induction parts with
  | nil => rfl
  | cons part parts ih => simp [ih]

theorem atoms_subset_atomsAll {part : Expr α} {parts : List (Expr α)} (h : part ∈ parts) :
    part.atoms ⊆ atomsAll parts := by
  induction parts with
  | nil => exact absurd h List.not_mem_nil
  | cons first parts ih =>
    rcases List.mem_cons.1 h with rfl | h
    · exact fun a ha => List.mem_append_left _ ha
    · exact fun a ha => List.mem_append_right _ (ih h ha)

@[simp] theorem atoms_conjunction (parts : List (Expr α)) :
    (conjunction parts).atoms = atomsAll parts := by
  unfold conjunction
  split
  · simp
  · rfl

@[simp] theorem atoms_disjunction (parts : List (Expr α)) :
    (disjunction parts).atoms = atomsAll parts := by
  unfold disjunction
  split
  · simp
  · rfl

/-- The atoms of alternatives are those of their factors. -/
@[simp] theorem atoms_ofAlternatives (alternatives : List (List (Expr α))) :
    (ofAlternatives alternatives).atoms = atomsAll alternatives.flatten := by
  rw [ofAlternatives, atoms_disjunction]
  induction alternatives with
  | nil => rfl
  | cons factors alternatives ih => simp [ih]

/-! ### Values depend on atoms only -/

section Eval

variable [Lattice β] [BoundedOrder β] [Compl β] {v w : α → β}

mutual

theorem eval_congr : ∀ part : Expr α, (∀ a ∈ part.atoms, v a = w a) → eval v part = eval w part
  | .atom value, h => by
    rw [eval_atom, eval_atom]
    exact h value (by simp)
  | .not part, h => by rw [eval_not, eval_not, eval_congr part h]
  | .all parts, h => by rw [eval_all, eval_all, map_eval_congr parts h]
  | .any parts, h => by rw [eval_any, eval_any, map_eval_congr parts h]

theorem map_eval_congr : ∀ parts : List (Expr α), (∀ a ∈ atomsAll parts, v a = w a) →
    parts.map (eval v) = parts.map (eval w)
  | [], _ => rfl
  | part :: parts, h => by
    have hpart := eval_congr part fun a ha => h a (List.mem_append_left _ ha)
    have hparts := map_eval_congr parts fun a ha => h a (List.mem_append_right _ ha)
    rw [List.map_cons, List.map_cons, hpart, hparts]

end

end Eval

/-! ### Every value is taken -/

mutual

/-- No connective stands without parts. -/
def Proper : Expr α → Prop
  | .atom _ => True
  | .not part => Proper part
  | .all parts => parts ≠ [] ∧ AllProper parts
  | .any parts => parts ≠ [] ∧ AllProper parts

/-- No connective stands without parts in any of the expressions. -/
def AllProper : List (Expr α) → Prop
  | [] => True
  | part :: parts => Proper part ∧ AllProper parts

end

theorem allProper_iff {parts : List (Expr α)} : AllProper parts ↔ ∀ part ∈ parts, Proper part := by
  induction parts with
  | nil => simp [AllProper]
  | cons part parts ih => simp [AllProper, ih]

mutual

/-- **Without repeated atoms an expression can be given any value.** -/
theorem exists_eval_eq : ∀ part : Expr α, part.Proper → part.atoms.Nodup → ∀ b : Bool,
    ∃ v : α → Bool, eval v part = b
  | .atom value, _, _, b => ⟨fun _ => b, eval_atom _ value⟩
  | .not part, hproper, hnodup, b => by
    -- the other value for the part
    obtain ⟨v, hv⟩ := exists_eval_eq part hproper hnodup (!b)
    refine ⟨v, ?_⟩
    rw [eval_not, hv]
    exact Bool.not_not b
  | .all parts, hproper, hnodup, b => by
    -- the same value for all parts, which would not do if there were none
    obtain ⟨v, hv⟩ := exists_forall_eval_eq parts hproper.2 hnodup b
    refine ⟨v, ?_⟩
    rw [eval_all]
    exact conj_eq_of_forall_eq (by simpa using hproper.1) (by simpa using hv)
  | .any parts, hproper, hnodup, b => by
    obtain ⟨v, hv⟩ := exists_forall_eval_eq parts hproper.2 hnodup b
    refine ⟨v, ?_⟩
    rw [eval_any]
    exact disj_eq_of_forall_eq (by simpa using hproper.1) (by simpa using hv)

theorem exists_forall_eval_eq : ∀ parts : List (Expr α), AllProper parts →
    (atomsAll parts).Nodup → ∀ b : Bool, ∃ v : α → Bool, ∀ part ∈ parts, eval v part = b
  | [], _, _, b => ⟨fun _ => b, by simp⟩
  | part :: parts, hproper, hnodup, b => by
    have hnodup := List.nodup_append'.1 hnodup
    obtain ⟨v, hv⟩ := exists_eval_eq part hproper.1 hnodup.1 b
    obtain ⟨w, hw⟩ := exists_forall_eval_eq parts hproper.2 hnodup.2.1 b
    -- the two assignments concern different atoms, so they can be made together
    obtain ⟨u, huv, huw⟩ := exists_agree hnodup.2.2 v w
    refine ⟨u, fun other hother => ?_⟩
    rcases List.mem_cons.1 hother with rfl | hother
    · rw [eval_congr other huv, hv]
    · rw [eval_congr other fun a ha => huw a (atoms_subset_atomsAll hother ha), hw other hother]

end

end Expr

end Criteria
