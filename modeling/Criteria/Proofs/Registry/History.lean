import Mathlib.Data.List.Induction
import Criteria.Proofs.Registry.Assembly

/-!
# Registries by their history

A registry is the outcome of the calls that assembled it, refused declarations included. What it
answers can be read off the calls: the set of a kind under an adapter is what the last override of
exactly this pair lists, else what the last declaration of the enum restricts it to, else the base
set; and a kind whose set is empty has the set of the generic kind.

* `Registry.Call`, `Registry.ofHistory` — the calls, and the registry they lead to;
* `Registry.ownSet`, `Registry.resolvedSet` — the sets that the calls give a kind, by the last call
  that is about it;
* `Registry.registerEnums_eq_ok_iff` — enums declared in turn are a history of their own;
* `Registry.operatorsFor_ofHistory` — a look-up finds the own set, in canonical order;
* `Registry.Assembled.legalOperators_eq_filter` — what is listed is what is legal;
* `Registry.lookups_ofHistory` — what is legal, in which order sets are listed, and what a call
  leaves as it was.
-/

namespace Criteria

namespace Operator

/-- An operator stands before another one in the vocabulary. -/
def Precedes (first second : Operator) : Prop := all.idxOf first < all.idxOf second

instance : DecidableRel Precedes := fun first second =>
  inferInstanceAs (Decidable (all.idxOf first < all.idxOf second))

/-- A list in canonical order has no operator twice and none before an earlier one. -/
theorem pairwise_canonical (ops : List Operator) : (canonical ops).Pairwise Precedes := by
  have hall : all.Pairwise Precedes := by decide
  exact hall.sublist List.filter_sublist

@[simp] theorem canonical_eq_nil_iff {ops : List Operator} : canonical ops = [] ↔ ops = [] := by
  simp only [List.eq_nil_iff_forall_not_mem, mem_canonical]

@[simp] theorem canonical_canonical (ops : List Operator) :
    canonical (canonical ops) = canonical ops := by
  refine List.filter_congr fun op _ => ?_
  rw [Bool.eq_iff_iff, List.contains_iff_mem, List.contains_iff_mem, mem_canonical]

end Operator

/-- A registry refuses a declaration under a reserved name, and one that lists an operator which
enums do not have. -/
def EnumDeclaration.Refused (declared : EnumDeclaration) : Prop :=
  Kind.isReserved declared.name = true ∨
    ∃ op ∈ declared.operators.getD [], op ∉ Registry.enumOperators

instance (declared : EnumDeclaration) : Decidable declared.Refused :=
  inferInstanceAs (Decidable (_ ∨ _))

namespace Registry

/-! ### Calls -/

/-- A call that assembles a registry. -/
inductive Call where
  /-- Declares an enum. -/
  | registerEnum (declared : EnumDeclaration)
  /-- Replaces the set of one kind under one adapter. -/
  | overrideKind (adapter : Adapter) (kind : Kind) (operators : List Operator)

/-- The registry after a call. A declaration that is refused leaves it as it was. -/
def apply (registry : Registry) : Call → Registry
  | .registerEnum declared =>
    match registry.registerEnum declared with
    | .ok next => next
    | .error _ => registry
  | .overrideKind adapter kind operators => registry.overrideKind adapter kind operators

/-- The registry that a sequence of calls leads to. -/
def ofHistory (calls : List Call) : Registry := calls.foldl apply .empty

/-- What a call lists for exactly this pair, if it overrides it. -/
def Call.override? (adapter : Adapter) (kind : Kind) : Call → Option (List Operator)
  | .registerEnum _ => none
  | .overrideKind overridden overriddenKind operators =>
    if adapter = overridden ∧ kind = overriddenKind then some operators else none

/-- What a call declares under a name, unless it is refused. -/
def Call.declaration? (name : String) : Call → Option EnumDeclaration
  | .registerEnum declared =>
    if name = declared.name ∧ ¬ declared.Refused then some declared else none
  | .overrideKind .. => none

/-- What the last override of a pair lists. -/
def lastOverride? (calls : List Call) (adapter : Adapter) (kind : Kind) : Option (List Operator) :=
  calls.reverse.findSome? (Call.override? adapter kind)

/-- The last declaration of an enum that was not refused. -/
def lastDeclaration? (calls : List Call) (name : String) : Option EnumDeclaration :=
  calls.reverse.findSome? (Call.declaration? name)

/-- The operators that the last declaration of an enum restricts it to. -/
def lastRestriction? (calls : List Call) : Kind → Option (List Operator)
  | .enum name => (lastDeclaration? calls name).bind EnumDeclaration.operators
  | _ => none

/-- The set that the calls give to exactly this kind under exactly this adapter. -/
def ownSet (calls : List Call) (kind : Kind) (adapter : Adapter) : List Operator :=
  match lastOverride? calls adapter kind with
  | some operators => operators
  | none => (lastRestriction? calls kind).getD (baseOperators kind adapter)

/-- The set that applies to a kind: its own, or the one of the generic kind if its own is empty. -/
def resolvedSet (calls : List Call) (kind : Kind) (adapter : Adapter) : List Operator :=
  if ownSet calls kind adapter = [] then ownSet calls .generic adapter else ownSet calls kind adapter

/-- The call is about this kind under this adapter. -/
def Call.Touches (adapter : Adapter) (kind : Kind) : Call → Prop
  | .registerEnum declared => kind = .enum declared.name
  | .overrideKind overridden overriddenKind _ => adapter = overridden ∧ kind = overriddenKind

/-- The call declares an enum under this name. -/
def Call.Declares (name : String) : Call → Prop
  | .registerEnum declared => name = declared.name
  | .overrideKind .. => False

variable {registry : Registry} {calls : List Call} {call : Call} {declared : EnumDeclaration}
  {adapter : Adapter} {kind : Kind} {name : String}

/-! ### One call -/

/-- A declaration is refused under a reserved name, or for an operator that enums do not have,
whatever was declared before. -/
theorem registerEnum_eq_error_iff :
    (∃ error, registry.registerEnum declared = .error error) ↔ declared.Refused := by
  unfold registerEnum EnumDeclaration.Refused
  -- the name is checked first, then the list is searched for an operator that enums do not have
  split
  · next hreserved => simp [hreserved]
  · next hreserved =>
    split
    · next op hop =>
      have hlisted := List.mem_of_find?_eq_some hop
      have hforeign : op ∉ enumOperators := by simpa using List.find?_some hop
      exact iff_of_true ⟨_, rfl⟩ (.inr ⟨op, hlisted, hforeign⟩)
    · next hallowed =>
      have hlisted : ∀ op ∈ declared.operators.getD [], op ∈ enumOperators := by
        simpa [List.find?_eq_none] using hallowed
      refine iff_of_false (fun h => nomatch h) ?_
      rintro (h | ⟨op, hop, hforeign⟩)
      · exact hreserved h
      · exact hforeign (hlisted op hop)

theorem apply_of_refused (h : declared.Refused) :
    registry.apply (.registerEnum declared) = registry := by
  obtain ⟨error, herror⟩ := registerEnum_eq_error_iff.2 h
  rw [apply, herror]

theorem apply_of_not_refused (h : ¬ declared.Refused) :
    registry.apply (.registerEnum declared) = { registry with
      enums := registry.enums.insert declared.name
        ⟨declared.values, declared.operators.map Operator.canonical⟩ } := by
  cases hregister : registry.registerEnum declared with
  | error error => exact absurd (registerEnum_eq_error_iff.1 ⟨error, hregister⟩) h
  | ok next =>
    obtain ⟨-, -, rfl⟩ := registerEnum_eq_ok hregister
    rw [apply, hregister]

/-- The set of a pair after a call is the one the call lists for it, or the one from before. -/
theorem lookup_apply (registry : Registry) (call : Call) (adapter : Adapter) (kind : Kind) :
    (registry.apply call).overrides.lookup (adapter, kind) =
      ((call.override? adapter kind).map Operator.canonical).or
        (registry.overrides.lookup (adapter, kind)) := by
  cases call with
  | registerEnum declared =>
    by_cases hrefused : declared.Refused
    · rw [apply_of_refused hrefused]
      rfl
    · rw [apply_of_not_refused hrefused]
      rfl
  | overrideKind overridden overriddenKind operators =>
    rw [apply, overrideKind, Call.override?]
    by_cases hpair : adapter = overridden ∧ kind = overriddenKind
    · obtain ⟨rfl, rfl⟩ := hpair
      simp
    · have hbeq : ((adapter, kind) == (overridden, overriddenKind)) = false :=
        beq_false_of_ne fun h => hpair (Prod.mk.inj h)
      rw [List.lookup_cons, hbeq, if_neg hpair]
      rfl

/-- The entry of an enum after a call is the one the call declares, or the one from before. -/
theorem get?_apply (registry : Registry) (call : Call) (name : String) :
    (registry.apply call).enums.get? name =
      ((call.declaration? name).map fun declared =>
        ⟨declared.values, declared.operators.map Operator.canonical⟩).or
          (registry.enums.get? name) := by
  cases call with
  | registerEnum declared =>
    rw [Call.declaration?]
    by_cases hrefused : declared.Refused
    · rw [apply_of_refused hrefused, if_neg fun h => h.2 hrefused]
      rfl
    · rw [apply_of_not_refused hrefused, Catalog.get?_insert]
      by_cases hname : name = declared.name
      · rw [if_pos hname, if_pos ⟨hname, hrefused⟩]
        rfl
      · rw [if_neg hname, if_neg fun h => hname h.1]
        rfl
  | overrideKind => rfl

/-- A call that is not about a pair leaves its set as it was. -/
theorem operatorsFor_apply (h : ¬ call.Touches adapter kind) :
    (registry.apply call).operatorsFor kind adapter = registry.operatorsFor kind adapter := by
  -- neither of the layers above the base set has changed for the pair
  have hoverride : call.override? adapter kind = none := by
    cases call with
    | registerEnum => rfl
    | overrideKind => exact if_neg h
  have hrestriction : (registry.apply call).enumRestriction? kind =
      registry.enumRestriction? kind := by
    cases kind with
    | enum name =>
      have hdeclaration : call.declaration? name = none := by
        cases call with
        | registerEnum declared => exact if_neg fun hname => h (congrArg Kind.enum hname.1)
        | overrideKind => rfl
      rw [enumRestriction?, get?_apply, hdeclaration]
      rfl
    | _ => rfl
  rw [operatorsFor, lookup_apply, hoverride, hrestriction]
  rfl

/-- A call that does not declare an enum leaves its values as they were. -/
theorem enumValues?_apply (h : ¬ call.Declares name) :
    (registry.apply call).enumValues? name = registry.enumValues? name := by
  have hdeclaration : call.declaration? name = none := by
    cases call with
    | registerEnum declared => exact if_neg fun hname => h hname.1
    | overrideKind => rfl
  rw [enumValues?, get?_apply, hdeclaration]
  rfl

theorem effectiveKind_apply (h : ¬ call.Touches adapter kind) :
    (registry.apply call).effectiveKind kind adapter = registry.effectiveKind kind adapter := by
  rw [effectiveKind, operatorsFor_apply h, effectiveKind]

/-- What is legal on a kind changes by a call about it only, or by one about the generic kind if
its own set is empty. -/
theorem legalOperators_apply (h : ¬ call.Touches adapter kind)
    (hgeneric : registry.operatorsFor kind adapter = [] → ¬ call.Touches adapter .generic) :
    (registry.apply call).legalOperators kind adapter = registry.legalOperators kind adapter := by
  rw [legalOperators, effectiveKind_apply h, legalOperators, effectiveKind]
  -- a set that was empty still is, so the generic kind is asked before and after
  split
  · next hempty => exact operatorsFor_apply (hgeneric (List.isEmpty_iff.1 hempty))
  · exact operatorsFor_apply h

/-! ### Histories -/

@[simp] theorem ofHistory_concat (calls : List Call) (call : Call) :
    ofHistory (calls ++ [call]) = (ofHistory calls).apply call := by
  simp [ofHistory]

theorem ofHistory_append (calls later : List Call) :
    ofHistory (calls ++ later) = later.foldl apply (ofHistory calls) := by
  simp [ofHistory]

/-- Enums that are declared in turn are all accepted, and lead to the registry of these calls, or one
of them is refused and nothing comes of it. -/
theorem registerEnums_eq_ok_iff (calls : List Call) (enums : List EnumDeclaration) :
    (ofHistory calls).registerEnums enums = .ok registry ↔
      (∀ declared ∈ enums, ¬ declared.Refused) ∧
        registry = ofHistory (calls ++ enums.map .registerEnum) := by
  induction enums generalizing calls with
  | nil => simp [registerEnums, eq_comm]
  | cons declared rest ih =>
    rw [registerEnums, List.forall_mem_cons, List.map_cons, List.append_cons]
    cases hregister : (ofHistory calls).registerEnum declared with
    | error fault =>
      have hrefused : declared.Refused := registerEnum_eq_error_iff.1 ⟨fault, hregister⟩
      exact iff_of_false nofun fun h => h.1.1 hrefused
    | ok next =>
      have haccepted : ¬ declared.Refused := by
        intro hrefused
        obtain ⟨fault, hfault⟩ := registerEnum_eq_error_iff.2 hrefused
        rw [hregister] at hfault
        cases hfault
      have hnext : ofHistory (calls ++ [.registerEnum declared]) = next := by
        rw [ofHistory_concat, apply, hregister]
      have hrest := ih (calls ++ [.registerEnum declared])
      rw [hnext] at hrest
      simpa [bind, Except.bind, haccepted] using hrest

theorem lastOverride?_concat (calls : List Call) (call : Call) (adapter : Adapter) (kind : Kind) :
    lastOverride? (calls ++ [call]) adapter kind =
      (call.override? adapter kind).or (lastOverride? calls adapter kind) := by
  rw [lastOverride?, List.reverse_concat, List.findSome?_cons]
  cases call.override? adapter kind <;> rfl

theorem lastDeclaration?_concat (calls : List Call) (call : Call) (name : String) :
    lastDeclaration? (calls ++ [call]) name =
      (call.declaration? name).or (lastDeclaration? calls name) := by
  rw [lastDeclaration?, List.reverse_concat, List.findSome?_cons]
  cases call.declaration? name <;> rfl

/-- The override in force is the last one. -/
theorem lookup_ofHistory (calls : List Call) (adapter : Adapter) (kind : Kind) :
    (ofHistory calls).overrides.lookup (adapter, kind) =
      (lastOverride? calls adapter kind).map Operator.canonical := by
  induction calls using List.reverseRecOn with
  | nil => rfl
  | append_singleton calls call ih =>
    rw [ofHistory_concat, lookup_apply, ih, lastOverride?_concat]
    cases call.override? adapter kind <;> rfl

/-- An enum is what its last declaration says that was not refused. -/
theorem get?_ofHistory (calls : List Call) (name : String) :
    (ofHistory calls).enums.get? name =
      (lastDeclaration? calls name).map fun declared =>
        ⟨declared.values, declared.operators.map Operator.canonical⟩ := by
  induction calls using List.reverseRecOn with
  | nil => rfl
  | append_singleton calls call ih =>
    rw [ofHistory_concat, get?_apply, ih, lastDeclaration?_concat]
    cases call.declaration? name <;> rfl

theorem enumRestriction?_ofHistory (calls : List Call) (kind : Kind) :
    (ofHistory calls).enumRestriction? kind =
      (lastRestriction? calls kind).map Operator.canonical := by
  cases kind with
  | enum name =>
    rw [enumRestriction?, get?_ofHistory, lastRestriction?]
    cases lastDeclaration? calls name <;> rfl
  | _ => rfl

/-- The base sets are listed in canonical order. -/
theorem canonical_baseOperators (kind : Kind) (adapter : Adapter) :
    Operator.canonical (baseOperators kind adapter) = baseOperators kind adapter := by
  rcases adapter with dialect | _
  · cases dialect <;> cases kind <;> rfl
  · cases kind <;> rfl

/-- **A look-up finds the own set** of a kind, in canonical order. -/
theorem operatorsFor_ofHistory (calls : List Call) (kind : Kind) (adapter : Adapter) :
    (ofHistory calls).operatorsFor kind adapter =
      Operator.canonical (ownSet calls kind adapter) := by
  rw [operatorsFor, lookup_ofHistory, enumRestriction?_ofHistory, ownSet]
  cases lastOverride? calls adapter kind with
  | some operators => rfl
  | none =>
    cases lastRestriction? calls kind with
    | some operators => rfl
    | none => exact (canonical_baseOperators kind adapter).symm

theorem operatorsFor_eq_nil_iff :
    (ofHistory calls).operatorsFor kind adapter = [] ↔ ownSet calls kind adapter = [] := by
  rw [operatorsFor_ofHistory, Operator.canonical_eq_nil_iff]

/-- What is legal is the resolved set, in canonical order. -/
theorem legalOperators_ofHistory (calls : List Call) (kind : Kind) (adapter : Adapter) :
    (ofHistory calls).legalOperators kind adapter =
      Operator.canonical (resolvedSet calls kind adapter) := by
  rw [legalOperators, effectiveKind, resolvedSet]
  by_cases hempty : ownSet calls kind adapter = []
  · rw [if_pos hempty, if_pos (List.isEmpty_iff.2 (operatorsFor_eq_nil_iff.2 hempty)),
      operatorsFor_ofHistory]
  · rw [if_neg hempty, if_neg fun h => hempty (operatorsFor_eq_nil_iff.1 (List.isEmpty_iff.1 h)),
      operatorsFor_ofHistory]

theorem isLegal_ofHistory {op : Operator} :
    (ofHistory calls).isLegal kind adapter op = true ↔ op ∈ resolvedSet calls kind adapter := by
  rw [isLegal_iff, legalOperators_ofHistory, Operator.mem_canonical]

/-- An assembled registry has a history. -/
theorem Assembled.exists_ofHistory (h : Assembled registry) : ∃ calls, registry = ofHistory calls := by
  induction h with
  | empty => exact ⟨[], rfl⟩
  | @registerEnum registry next declared _ hnext ih =>
    obtain ⟨calls, rfl⟩ := ih
    refine ⟨calls ++ [.registerEnum declared], ?_⟩
    rw [ofHistory_concat, apply, hnext]
  | @overrideKind registry adapter kind operators _ ih =>
    obtain ⟨calls, rfl⟩ := ih
    exact ⟨calls ++ [.overrideKind adapter kind operators], by rw [ofHistory_concat, apply]⟩

/-- **What an assembled registry lists is what is legal**, in the order of the vocabulary. -/
theorem Assembled.legalOperators_eq_filter (h : Assembled registry) :
    registry.legalOperators kind adapter =
      Operator.all.filter fun op => registry.isLegal kind adapter op := by
  obtain ⟨calls, rfl⟩ := h.exists_ofHistory
  have hcanonical : Operator.canonical ((ofHistory calls).legalOperators kind adapter) =
      (ofHistory calls).legalOperators kind adapter := by
    rw [legalOperators_ofHistory, Operator.canonical_canonical]
  exact hcanonical.symm

/-- A refused declaration might as well not have been made. -/
theorem ofHistory_refused (h : declared.Refused) (calls later : List Call) :
    ofHistory (calls ++ .registerEnum declared :: later) = ofHistory (calls ++ later) := by
  rw [ofHistory_append, ofHistory_append, List.foldl_cons, apply_of_refused h]

/-- **The look-ups of a registry, by its history.** Exactly the operators of the resolved set are
legal, and sets are listed in canonical order. A declaration is refused under a reserved name or for
an operator that enums do not have, and then changes nothing. Any call leaves alone what it is not
about, except that a kind without operators of its own follows the generic kind. -/
theorem lookups_ofHistory (calls : List Call) :
    (∀ kind adapter op, (ofHistory calls).isLegal kind adapter op = true ↔
      op ∈ resolvedSet calls kind adapter) ∧
    (∀ kind adapter, ((ofHistory calls).operatorsFor kind adapter).Pairwise Operator.Precedes) ∧
    (∀ declared : EnumDeclaration,
      ((∃ error, (ofHistory calls).registerEnum declared = .error error) ↔ declared.Refused) ∧
      (declared.Refused → ∀ later,
        ofHistory (calls ++ .registerEnum declared :: later) = ofHistory (calls ++ later))) ∧
    ∀ call : Call,
      (∀ name, ¬ call.Declares name →
        (ofHistory (calls ++ [call])).enumValues? name = (ofHistory calls).enumValues? name) ∧
      ∀ kind adapter, ¬ call.Touches adapter kind →
        (ofHistory (calls ++ [call])).operatorsFor kind adapter =
          (ofHistory calls).operatorsFor kind adapter ∧
        (ofHistory (calls ++ [call])).effectiveKind kind adapter =
          (ofHistory calls).effectiveKind kind adapter ∧
        (((ofHistory calls).operatorsFor kind adapter = [] → ¬ call.Touches adapter .generic) →
          ∀ op, (ofHistory (calls ++ [call])).isLegal kind adapter op =
            (ofHistory calls).isLegal kind adapter op) := by
  refine ⟨fun kind adapter op => isLegal_ofHistory, fun kind adapter => ?_,
    fun declared => ⟨registerEnum_eq_error_iff, fun h later => ofHistory_refused h calls later⟩,
    fun call => ?_⟩
  · rw [operatorsFor_ofHistory]
    exact Operator.pairwise_canonical _
  · rw [ofHistory_concat]
    refine ⟨fun name h => enumValues?_apply h, fun kind adapter h =>
      ⟨operatorsFor_apply h, effectiveKind_apply h, fun hgeneric op => ?_⟩⟩
    rw [isLegal, legalOperators_apply h hgeneric, isLegal]

/-- A text that is overridden twice, a refused declaration in between, and integers without a set of
their own, which follow the generic kind when it is overridden. -/
theorem lookups_ofHistory_overridden :
    let calls : List Call :=
      [.overrideKind .search .string [.like], .registerEnum ⟨"String", [], some [.eq]⟩,
        .overrideKind .search .string [.neq, .eq, .neq], .overrideKind .search .integer []]
    let call : Call := .overrideKind .search .generic [.like]
    (∀ op, (ofHistory calls).isLegal .string .search op = true ↔ op ∈ [Operator.neq, .eq, .neq]) ∧
      EnumDeclaration.Refused ⟨"String", [], some [.eq]⟩ ∧
      ¬ call.Touches .search .integer ∧
      (ofHistory (calls ++ [call])).operatorsFor .integer .search = [] ∧
      (ofHistory calls).isLegal .integer .search .like = false ∧
      (ofHistory (calls ++ [call])).isLegal .integer .search .like = true := by
  intro calls call
  obtain ⟨hlegal, -, -, hframe⟩ := lookups_ofHistory calls
  obtain ⟨hlater, -⟩ := lookups_ofHistory (calls ++ [call])
  have htouches : ¬ call.Touches .search .integer := fun h => by cases h.2
  refine ⟨fun op => hlegal .string .search op, by decide, htouches, ?_, ?_, ?_⟩
  · rw [((hframe call).2 .integer .search htouches).1]
    rfl
  · exact Bool.eq_false_iff.2 fun h => absurd ((hlegal .integer .search .like).1 h) (by decide)
  · exact (hlater .integer .search .like).2 (by decide)

end Registry

end Criteria
