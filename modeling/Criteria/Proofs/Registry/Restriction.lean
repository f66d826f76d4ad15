import Criteria.Proofs.Registry.History

/-!
# Restrictions

An enum is restricted by its declaration and any pair of a kind and an adapter by an override. A
restriction that lists operators is kept to: no history makes anything else legal. One that lists
none is not kept to. An empty set stands for a kind without a set of its own, and such a kind has
the operators of the generic kind.

* `Registry.restriction?` — the list that restricts a kind under an adapter;
* `Registry.isLegal_restricted` — what is legal under a restriction;
* `Registry.isLegal_restricted_to_none` — an enum restricted to no operator is compared for
  equality.
-/

namespace Criteria.Registry

variable {calls : List Call} {kind : Kind} {adapter : Adapter} {op : Operator}
  {listed : List Operator}

/-- The list that restricts a kind under an adapter: what the last override of the pair lists, else
what the last declaration of the enum does. -/
def restriction? (calls : List Call) (kind : Kind) (adapter : Adapter) : Option (List Operator) :=
  (lastOverride? calls adapter kind).or (lastRestriction? calls kind)

/-- A restriction is the own set of a kind. -/
theorem ownSet_of_restricted (h : restriction? calls kind adapter = some listed) :
    ownSet calls kind adapter = listed := by
  rw [restriction?] at h
  rw [ownSet]
  cases hoverride : lastOverride? calls adapter kind with
  | some operators =>
    rw [hoverride] at h
    exact Option.some.inj h
  | none =>
    rw [hoverride, Option.none_or] at h
    rw [h, Option.getD_some]

/-- **What is legal under a restriction.** If it lists operators, these. If it lists none, those
that the generic kind has under the adapter. So a restriction only ever narrows unless it is empty
and the generic kind has operators, and then it does not. -/
theorem isLegal_restricted (h : restriction? calls kind adapter = some listed) :
    (listed ≠ [] → ∀ op, (ofHistory calls).isLegal kind adapter op = true ↔ op ∈ listed) ∧
    (listed = [] → ∀ op, (ofHistory calls).isLegal kind adapter op = true ↔
      op ∈ ownSet calls .generic adapter) ∧
    ((∀ op, (ofHistory calls).isLegal kind adapter op = true → op ∈ listed) ↔
      (listed = [] → ownSet calls .generic adapter = [])) := by
  have hlisted : listed ≠ [] →
      ∀ op, (ofHistory calls).isLegal kind adapter op = true ↔ op ∈ listed := by
    intro hne op
    rw [isLegal_ofHistory, resolvedSet, ownSet_of_restricted h, if_neg hne]
  have hnone : listed = [] → ∀ op, (ofHistory calls).isLegal kind adapter op = true ↔
      op ∈ ownSet calls .generic adapter := by
    intro hnil op
    rw [isLegal_ofHistory, resolvedSet, ownSet_of_restricted h, if_pos hnil]
  refine ⟨hlisted, hnone, fun hnarrow hnil => ?_, fun hgeneric op hlegal => ?_⟩
  · -- an operator of the generic kind would be legal without being listed
    refine List.eq_nil_iff_forall_not_mem.2 fun op hop => ?_
    have hmem := hnarrow op ((hnone hnil op).2 hop)
    exact List.not_mem_nil (hnil ▸ hmem)
  · by_cases hnil : listed = []
    · have hop := (hnone hnil op).1 hlegal
      exact absurd (hgeneric hnil ▸ hop) List.not_mem_nil
    · exact (hlisted hnil op).1 hlegal

/-- An enum restricted to one operator, then declared again with two, and the generic kind
overridden by an operator that enums do not have. -/
theorem isLegal_restricted_redeclared :
    let calls : List Call :=
      [.registerEnum ⟨"Status", ["open"], some [.eq]⟩, .overrideKind .search .generic [.like],
        .registerEnum ⟨"Status", ["open", "shut"], some [.isNull, .neq]⟩]
    restriction? calls (.enum "Status") .search = some [.isNull, .neq] ∧
      ∀ op, (ofHistory calls).isLegal (.enum "Status") .search op = true ↔
        op ∈ [Operator.isNull, .neq] := by
  intro calls
  have hrestricted : restriction? calls (.enum "Status") .search = some [.isNull, .neq] := by decide
  exact ⟨hrestricted, (isLegal_restricted hrestricted).1 (by decide)⟩

/-- An enum that is restricted to no operator at all is compared for equality all the same. -/
theorem isLegal_restricted_to_none :
    let calls : List Call := [.registerEnum ⟨"Status", ["open", "shut"], some []⟩]
    restriction? calls (.enum "Status") (.sql .postgres) = some [] ∧
      (ofHistory calls).isLegal (.enum "Status") (.sql .postgres) .eq = true ∧
      Operator.eq ∉ ([] : List Operator) := by
  decide

end Criteria.Registry
