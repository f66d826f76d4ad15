import Criteria.Proofs.Engine
import Criteria.Proofs.Order.Listing

/-!
# Orderings keep their clauses

From the document of a client to the text for the backend, an ordering keeps its clauses: one for
every field that the document names, in its order, with repetitions. Each has the field's column in
the spelling of the adapter and the direction that is asked for. The position of nulls is kept where
the adapter can say it, and dropped where it cannot or where nothing is asked for.

The compiler checks fields once more, because orderings can be built by hand. It refuses exactly the
fields that the reader refuses (`exists_compile_iff`), so nothing that was read is refused by it.

* `compileClause_eq_ok`, `compile_eq_ok` — what a success of the compiler means;
* `answers_of_isRead` — a clause that was read and compiled is what was asked for;
* `order_keeps_clauses` — the whole way, and orderings built by hand.
-/

namespace Criteria

namespace Order

variable {scope : Scope} {clause : OrderClause} {clauses : List OrderClause} {key : SortKey}
  {sorting : Sorting}

/-! ### What compiles -/

theorem compileClause_eq_ok :
    compileClause scope clause = .ok key ↔
      ∃ declared, scope.field? clause.field = some declared ∧ declared.sortable = true ∧
        key = .ofField scope.adapter declared clause.direction clause.nulls := by
  unfold compileClause
  cases scope.field? clause.field with
  | none => simp
  | some declared =>
    dsimp only
    rw [guard_eq_ok]
    constructor
    · rintro ⟨hsortable, h⟩
      exact ⟨declared, rfl, hsortable, (Except.ok.inj h).symm⟩
    · rintro ⟨_, hdeclared, hsortable, rfl⟩
      obtain rfl := Option.some.inj hdeclared
      exact ⟨hsortable, rfl⟩

theorem compile_eq_ok :
    compile scope clauses = .ok sorting ↔
      sorting.adapter = scope.adapter ∧
        List.Forall₂ (fun clause key => compileClause scope clause = .ok key) clauses
          sorting.keys := by
  unfold compile
  rw [bind_eq_ok]
  obtain ⟨adapter, keys⟩ := sorting
  constructor
  · rintro ⟨found, hfound, h⟩
    cases h
    exact ⟨rfl, mapM_eq_ok_iff.1 hfound⟩
  · rintro ⟨rfl, hkeys⟩
    exact ⟨keys, mapM_eq_ok_iff.2 hkeys, rfl⟩

/-- **An ordering compiles exactly if clients may order by all its fields.** -/
theorem exists_compile_iff :
    (∃ sorting, compile scope clauses = .ok sorting) ↔
      ∀ clause ∈ clauses, IsSortable scope clause.field := by
  have hclause : ∀ clause,
      (∃ key, compileClause scope clause = .ok key) ↔ IsSortable scope clause.field := by
    intro clause
    constructor
    · rintro ⟨key, hkey⟩
      obtain ⟨declared, hdeclared, hsortable, -⟩ := compileClause_eq_ok.1 hkey
      exact ⟨declared, hdeclared, hsortable⟩
    · rintro ⟨declared, hdeclared, hsortable⟩
      exact ⟨_, compileClause_eq_ok.2 ⟨declared, hdeclared, hsortable, rfl⟩⟩
  have hkeys : (∃ sorting, compile scope clauses = .ok sorting) ↔
      ∃ keys, clauses.mapM (compileClause scope) = .ok keys := by
    constructor
    · rintro ⟨sorting, h⟩
      exact ⟨sorting.keys, mapM_eq_ok_iff.2 (compile_eq_ok.1 h).2⟩
    · rintro ⟨keys, h⟩
      exact ⟨⟨scope.adapter, keys⟩, compile_eq_ok.2 ⟨rfl, mapM_eq_ok_iff.1 h⟩⟩
  rw [hkeys, exists_mapM_iff]
  exact forall₂_congr fun clause _ => hclause clause

/-- Clients may order by every field that the reader has let through. -/
theorem isSortable_of_isRead {members : Json.Members}
    (h : List.Forall₂ (IsRead scope) members clauses) :
    ∀ clause ∈ clauses, IsSortable scope clause.field := by
  induction h with
  | nil => exact List.forall_mem_nil _
  | cons hread _ ih => exact List.forall_mem_cons.2 ⟨hread.field ▸ hread.sortable, ih⟩

/-- Every key of a compiled ordering is one of its adapter. -/
theorem isOf_of_compile (h : compile scope clauses = .ok sorting) :
    ∀ key ∈ sorting.keys, key.IsOf sorting.adapter := by
  obtain ⟨hadapter, hkeys⟩ := compile_eq_ok.1 h
  rw [hadapter]
  -- the induction is on the list of keys, so they must be free of the ordering
  clear h
  generalize sorting.keys = keys at hkeys ⊢
  induction hkeys with
  | nil => exact List.forall_mem_nil _
  | cons hkey _ ih =>
    obtain ⟨declared, -, -, rfl⟩ := compileClause_eq_ok.1 hkey
    exact List.forall_mem_cons.2 ⟨SortKey.isOf_ofField _ _ _ _, ih⟩

end Order

namespace Engine

variable {engine : Engine} {entity : String} {document : Json} {clauses : List OrderClause}

/-- A native clause is what is asked for: the column of the field in the spelling of the adapter,
the direction, and the position of nulls unless none is asked for or the adapter cannot say it. -/
def Answers (engine : Engine) (entity : String) (member : String × Json) (key : SortKey) : Prop :=
  ∃ declared direction nulls,
    engine.schema.field? entity member.1 = some declared ∧ declared.sortable = true ∧
      Order.Asks member.2 direction nulls ∧
      key.column = engine.adapter.quote declared.reference ∧ key.direction = direction ∧
      key.nulls =
        if nulls = .unspecified ∨ engine.adapter = .sql .mysql ∨ engine.adapter = .sql .mssql then
          none
        else some nulls

/-- The adapters that cannot say where nulls go are two dialects. -/
theorem ordersNulls_eq_false_iff {adapter : Adapter} :
    adapter.ordersNulls = false ↔ adapter = .sql .mysql ∨ adapter = .sql .mssql := by
  rcases adapter with dialect | _
  · cases dialect <;> decide
  · decide

theorem answers_of_isRead {member : String × Json} {clause : OrderClause} {key : SortKey}
    (hread : Order.IsRead (engine.scope entity) member clause)
    (hcompile : Order.compileClause (engine.scope entity) clause = .ok key) :
    engine.Answers entity member key := by
  obtain ⟨declared, hdeclared, hsortable, rfl⟩ := Order.compileClause_eq_ok.1 hcompile
  rw [hread.field] at hdeclared
  refine ⟨declared, clause.direction, clause.nulls, hdeclared, hsortable, hread.asks, rfl, rfl, ?_⟩
  change (if (decide (clause.nulls = .unspecified) || !engine.adapter.ordersNulls) = true then none
    else some clause.nulls) = _
  refine if_congr ?_ rfl rfl
  rw [Bool.or_eq_true, decide_eq_true_eq, Bool.not_eq_true', ordersNulls_eq_false_iff]

/-- **An ordering keeps its clauses from the document to the backend.** What an engine reads it also
compiles. There is one native clause for every field that the document names, in the order of the
document, and each is what is asked for; the text and the sort keys of a search list these clauses
and nothing else. And an ordering that was built by hand compiles exactly if all its fields are
declared and sortable. -/
theorem order_keeps_clauses :
    (∀ (engine : Engine) (entity : String) (document : Json) (clauses : List OrderClause),
      engine.readOrder entity document = .ok clauses →
        ∃ sorting, engine.compileOrder entity clauses = .ok sorting ∧
          engine.order entity document = .ok sorting ∧ sorting.adapter = engine.adapter ∧
          List.Forall₂ (engine.Answers entity) (Order.written document) sorting.keys ∧
          sorting.Lists) ∧
    ∀ (engine : Engine) (entity : String) (clauses : List OrderClause),
      (∃ sorting, engine.compileOrder entity clauses = .ok sorting) ↔
        ∀ clause ∈ clauses, ∃ declared,
          engine.schema.field? entity clause.field = some declared ∧ declared.sortable = true := by
  refine ⟨fun engine entity document clauses hread => ?_,
    fun engine entity clauses => Order.exists_compile_iff⟩
  have hmembers := Order.isRead_of_read (readOrder_eq_ok.1 hread).2
  obtain ⟨sorting, hsorting⟩ := Order.exists_compile_iff.2 (Order.isSortable_of_isRead hmembers)
  obtain ⟨hadapter, hkeys⟩ := Order.compile_eq_ok.1 hsorting
  refine ⟨sorting, hsorting, ?_, hadapter, ?_,
    Sorting.lists_of_isOf (Order.isOf_of_compile hsorting)⟩
  · exact bind_eq_ok.2 ⟨clauses, mapError_eq_ok.2 hread, mapError_eq_ok.2 hsorting⟩
  · refine forall₂_comp ?_ hmembers hkeys
    intro member clause key hclause hkey
    exact answers_of_isRead hclause hkey

/-- People by their age and their name, both columns of a table in a schema of its own. -/
def peopleEngine : Engine where
  schema := ⟨.ofList [("Person", ⟨"Person",
    [⟨"age", "hr.people.age", .integer, true, true⟩, ⟨"name", "na\"me", .string, true, true⟩]⟩)]⟩

/-- A field is named twice, in two spellings, and one of the columns has a quote in its name. -/
theorem order_keeps_clauses_repeated :
    let document := .array [.single "age" (.string "Desc_Nulls_Last"), .single "name" (.object []),
      .single "age" (.object [("nulls", .string "default"), ("direction", .string "asc")])]
    let keys : List SortKey :=
      [⟨"\"hr\".\"people\".\"age\"", .descending, some .last⟩, ⟨"\"na\"\"me\"", .ascending, none⟩,
        ⟨"\"hr\".\"people\".\"age\"", .ascending, none⟩]
    let text := "\"hr\".\"people\".\"age\" DESC NULLS LAST, \"na\"\"me\" ASC, " ++
      "\"hr\".\"people\".\"age\" ASC"
    ∃ clauses sorting, peopleEngine.readOrder "Person" document = .ok clauses ∧
      peopleEngine.compileOrder "Person" clauses = .ok sorting ∧ sorting.keys = keys ∧
      sorting.sql? = some text ∧ Sql.orderBy? .postgres text = some keys := by
  intro document keys text
  have hread : peopleEngine.readOrder "Person" document =
      .ok [⟨"age", .descending, .last⟩, ⟨"name", .ascending, .unspecified⟩,
        ⟨"age", .ascending, .unspecified⟩] := by
    subst document
    rfl
  obtain ⟨sorting, hsorting, -, -, -, hlists⟩ :=
    order_keeps_clauses.1 peopleEngine "Person" document _ hread
  obtain rfl : sorting = ⟨.sql .postgres, keys⟩ := by
    subst keys
    exact (Except.ok.inj (hsorting.symm.trans rfl))
  have htext : (⟨.sql .postgres, keys⟩ : Sorting).sql? = some text := by
    subst keys text
    rfl
  obtain ⟨found, hfound, hkeys⟩ := hlists.2 (List.cons_ne_nil _ _)
  obtain rfl : found = text := Option.some.inj (hfound.symm.trans htext)
  exact ⟨_, _, hread, hsorting, rfl, htext, hkeys⟩

end Engine

end Criteria
