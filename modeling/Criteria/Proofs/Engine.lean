import Criteria.Engine
import Criteria.Proofs.Outcome

/-!
# Requests to an engine

An engine asks first whether the entity is declared and then leaves the document to the reader, so
what is proved of the reader holds of the engine's requests.
-/

namespace Criteria.Engine

variable {engine : Engine} {entity : String} {document : Json} {bound : BoundFilter}

/-- A document is read for a declared entity, and the filter is bound to it. -/
theorem readFilter_eq_ok :
    engine.readFilter entity document = .ok bound ↔
      engine.schema.contains entity = true ∧ ∃ root,
        Filter.read (engine.scope entity) document = .ok root ∧
          bound = engine.bind entity root := by
  unfold readFilter
  rw [check_bind_eq_ok, checkEntity, ite_eq_ok, bind_eq_ok]
  constructor
  · rintro ⟨hentity, root, hroot, hbound⟩
    exact ⟨hentity, root, hroot, (Except.ok.inj hbound).symm⟩
  · rintro ⟨hentity, root, hroot, rfl⟩
    exact ⟨hentity, root, hroot, rfl⟩

/-- A filter is bound to the adapter of its engine, so it is not refused for another one. -/
theorem compileFilter_bind (root : Filter) :
    engine.compileFilter (engine.bind entity root) = root.compile (engine.scope entity) :=
  if_pos rfl

/-- An ordering is read for a declared entity. -/
theorem readOrder_eq_ok {clauses : List OrderClause} :
    engine.readOrder entity document = .ok clauses ↔
      engine.schema.contains entity = true ∧
        Order.read (engine.scope entity) document = .ok clauses := by
  unfold readOrder
  rw [check_bind_eq_ok, checkEntity, ite_eq_ok]

/-- A request is read, and what was read is compiled. -/
theorem filter_eq_ok {predicate : Predicate} (h : engine.filter entity document = .ok predicate) :
    ∃ root, Filter.read (engine.scope entity) document = .ok root ∧
      root.compile (engine.scope entity) = .ok predicate := by
  obtain ⟨bound, hread, hcompile⟩ := bind_eq_ok.1 h
  obtain ⟨-, root, hroot, rfl⟩ := readFilter_eq_ok.1 (mapError_eq_ok.1 hread)
  rw [mapError_eq_ok, compileFilter_bind] at hcompile
  exact ⟨root, hroot, hcompile⟩

end Criteria.Engine
