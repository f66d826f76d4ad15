import Criteria.Proofs.Filter.Totality
import Criteria.Proofs.Filter.Typing
import Criteria.Proofs.Sql.Agreement

/-!
# One filter in two dialects

Dialects differ in what they accept and in how they spell it. What two of them both accept is the
same filter, compiled to the same text up to quotes and placeholders, with the same values up to
escaped brackets. The reader asks for the adapter only to refuse an operator, so two adapters that
refuse nothing read the same tree. The compiler asks for the dialect in three places: an operator on
arrays belongs to one dialect, the match without regard to case is spelled in two ways, and brackets
mean something in the patterns of one dialect. Arrays and the match are legal in a single dialect,
so two dialects that accept a document differ in the patterns alone.

* `Scope.under` — the same scope under another adapter;
* `root_eq_of_read` — two adapters that accept a document read the same tree;
* `Lowers.neat`, `Lowers.agrees` — the pieces of a compiled filter, and those in another dialect;
* `Filter.parameters` — the values of a leaf, before a dialect escapes its patterns;
* `Predicate.Spells` — a predicate is the spelling of a shared form;
* `Engine.dialects_agree` — what two dialects make of a document that both accept.
-/

namespace Criteria

/-- The same scope under another adapter. -/
def Scope.under (scope : Scope) (adapter : Adapter) : Scope := { scope with adapter }

/-- Matching without regard to case is legal in a single dialect, if overrides only narrow. -/
theorem Registry.Assembled.eq_postgres_of_ilike {registry : Registry} {kind : Kind}
    {dialect : Dialect} (hassembled : registry.Assembled) (hnarrow : registry.OverridesNarrow)
    (hlegal : registry.isLegal kind (.sql dialect) .ilike = true) : dialect = .postgres := by
  have hgeneric : Operator.ilike ∉ Registry.baseOperators .generic (.sql dialect) := by
    simp [Registry.baseOperators]
  have hop : Operator.ilike ∈ Registry.baseOperators kind (.sql dialect) :=
    (hassembled.mem_baseOperators_of_isLegal hnarrow hlegal).resolve_right hgeneric
  -- texts are the only kind that has it, and not in every dialect
  cases kind with
  | string => cases dialect <;> simp [Registry.baseOperators, Registry.stringOperators] at hop ⊢
  | array => cases dialect <;> simp [Registry.baseOperators, Registry.arrayOperators] at hop
  | _ => simp [Registry.baseOperators, Registry.enumOperators, Registry.geoOperators] at hop

/-- An operator that two dialects have is not the match without regard to case, unless the dialects
are the same. -/
theorem Registry.Assembled.eq_or_ne_ilike {registry : Registry} {kind : Kind} {op : Operator}
    {first second : Dialect} (hassembled : registry.Assembled) (hnarrow : registry.OverridesNarrow)
    (hfirst : registry.isLegal kind (.sql first) op = true)
    (hsecond : registry.isLegal kind (.sql second) op = true) : first = second ∨ op ≠ .ilike := by
  by_cases hop : op = .ilike
  · rw [hop] at hfirst hsecond
    have hpostgres := hassembled.eq_postgres_of_ilike hnarrow hfirst
    exact .inl (hpostgres.trans (hassembled.eq_postgres_of_ilike hnarrow hsecond).symm)
  · exact .inr hop

namespace Filter

section Reading

variable {scope : Scope} {first second : Adapter}

/-! ### Reading under two adapters -/

theorem leaf_eq_of_readLeaf {name key : String} {declared : Option Field} {operand : Json}
    {leaf other : Filter}
    (hfirst : readLeaf (scope.under first) name declared key operand = .ok leaf)
    (hsecond : readLeaf (scope.under second) name declared key operand = .ok other) :
    leaf = other := by
  -- custom filters are the same under both adapters, and a key names one operator
  rcases readLeaf_eq_ok hfirst with ⟨hcustom, rfl⟩ | ⟨hcustom, -, op, -, -, hkey, -, -, rfl⟩ <;>
    rcases readLeaf_eq_ok hsecond with
      ⟨hcustom', rfl⟩ | ⟨hcustom', -, op', -, -, hkey', -, -, rfl⟩
  · rfl
  · cases hcustom.symm.trans hcustom'
  · cases hcustom.symm.trans hcustom'
  · obtain rfl := Option.some.inj (hkey.symm.trans hkey')
    rfl

theorem eq_of_readOperators {name : String} {declared : Option Field}
    {operators : List (String × Json)} :
    ∀ {used : Nat} {result other : List Filter × Nat},
      readOperators (scope.under first) name declared used operators = .ok result →
        readOperators (scope.under second) name declared used operators = .ok other →
          result = other := by
  induction operators with
  | nil =>
    intro used result other hfirst hsecond
    exact Except.ok.inj (hfirst.symm.trans hsecond)
  | cons entry rest ih =>
    intro used result other hfirst hsecond
    obtain ⟨-, leaf, leaves, hleaf, hrest, hresult⟩ := readOperators_cons_eq_ok hfirst
    obtain ⟨-, leaf', leaves', hleaf', hrest', hother⟩ := readOperators_cons_eq_ok hsecond
    obtain ⟨hleaves, hused⟩ := Prod.mk.inj (ih hrest hrest')
    exact Prod.ext (by rw [hresult, hother, leaf_eq_of_readLeaf hleaf hleaf', hleaves]) hused

theorem eq_of_readField {path path' : Path} {used : Nat} {name : String} {value : Json}
    {result other : List Filter × Nat}
    (hfirst : readField (scope.under first) path used name value = .ok result)
    (hsecond : readField (scope.under second) path' used name value = .ok other) :
    result = other := by
  obtain ⟨-, operators, -, rfl, hread⟩ := readField_eq_ok hfirst
  obtain ⟨-, operators', -, hvalue, hread'⟩ := readField_eq_ok hsecond
  obtain rfl := Json.object.inj hvalue
  exact eq_of_readOperators hread hread'

/-! #### Members by their keys -/

section Members

variable {depth used used' : Nat} {path : Path} {key : String} {value : Json} {own : List Filter}

theorem ReadsMember.of_and (h : ReadsMember scope depth path used "_and" value own used') :
    ∃ items parts, value = .array items ∧
      readItems scope (depth + 1) (path ++ [.key "_and"]) 0 used items = .ok (parts, used') ∧
      own = collapseAll parts := by
  generalize hkey : "_and" = key at h
  cases h with
  | all read => exact ⟨_, _, rfl, read, rfl⟩
  | any | not => exact absurd hkey (by decide)
  | field other => exact absurd hkey.symm other.1

theorem ReadsMember.of_or (h : ReadsMember scope depth path used "_or" value own used') :
    ∃ items parts, value = .array items ∧
      readItems scope (depth + 1) (path ++ [.key "_or"]) 0 used items = .ok (parts, used') ∧
      own = collapseAny parts := by
  generalize hkey : "_or" = key at h
  cases h with
  | any read => exact ⟨_, _, rfl, read, rfl⟩
  | all | not => exact absurd hkey (by decide)
  | field other => exact absurd hkey.symm other.2.1

theorem ReadsMember.of_not (h : ReadsMember scope depth path used "_not" value own used') :
    ∃ part, readObject scope (depth + 1) (path ++ [.key "_not"]) used value = .ok (part, used') ∧
      own = [.not part] := by
  generalize hkey : "_not" = key at h
  cases h with
  | not read => exact ⟨_, read, rfl⟩
  | all | any => exact absurd hkey (by decide)
  | field other => exact absurd hkey.symm other.2.2

theorem ReadsMember.of_field (h : ReadsMember scope depth path used key value own used')
    (hkey : IsFieldKey key) :
    readField scope (path ++ [.key key]) used key value = .ok (own, used') := by
  cases h with
  | field _ read => exact read
  | all => exact absurd rfl hkey.1
  | any => exact absurd rfl hkey.2.1
  | not => exact absurd rfl hkey.2.2

end Members

/-! #### Objects, members and items -/

mutual

theorem eq_of_readObject {depth used : Nat} {path : Path} {result other : Filter × Nat}
    (document : Json)
    (hfirst : readObject (scope.under first) depth path used document = .ok result)
    (hsecond : readObject (scope.under second) depth path used document = .ok other) :
    result = other := by
  obtain ⟨-, members, parts, rfl, hread, hresult⟩ := readObject_eq_ok hfirst
  obtain ⟨-, members', parts', hdocument, hread', hother⟩ := readObject_eq_ok hsecond
  obtain rfl := Json.object.inj hdocument
  obtain ⟨rfl, hused⟩ := Prod.mk.inj (eq_of_readMembers members hread hread')
  exact Prod.ext (hresult.trans hother.symm) hused
termination_by sizeOf document

theorem eq_of_readMembers {depth used : Nat} {path : Path} {result other : List Filter × Nat}
    (members : List (String × Json))
    (hfirst : readMembers (scope.under first) depth path used members = .ok result)
    (hsecond : readMembers (scope.under second) depth path used members = .ok other) :
    result = other := by
  match members with
  | [] => exact Except.ok.inj (hfirst.symm.trans hsecond)
  | (key, value) :: rest =>
    obtain ⟨own, between, others, hown, hrest, hresult⟩ := readMembers_cons_eq_ok hfirst
    obtain ⟨own', between', others', hown', hrest', hother⟩ := readMembers_cons_eq_ok hsecond
    have hmember : (own, between) = (own', between') := by
      -- the key is the same, so both took it for the same combinator or for a field
      cases hown with
      | @all items _ _ hread =>
        obtain ⟨_, _, hvalue, hread', rfl⟩ := hown'.of_and
        obtain rfl := Json.array.inj hvalue
        obtain ⟨rfl, rfl⟩ := Prod.mk.inj (eq_of_readItems items hread hread')
        rfl
      | @any items _ _ hread =>
        obtain ⟨_, _, hvalue, hread', rfl⟩ := hown'.of_or
        obtain rfl := Json.array.inj hvalue
        obtain ⟨rfl, rfl⟩ := Prod.mk.inj (eq_of_readItems items hread hread')
        rfl
      | not hread =>
        obtain ⟨_, hread', rfl⟩ := hown'.of_not
        obtain ⟨rfl, rfl⟩ := Prod.mk.inj (eq_of_readObject value hread hread')
        rfl
      | field hkey hread => exact eq_of_readField hread (hown'.of_field hkey)
    obtain ⟨rfl, rfl⟩ := Prod.mk.inj hmember
    obtain ⟨rfl, hused⟩ := Prod.mk.inj (eq_of_readMembers rest hrest hrest')
    exact Prod.ext (hresult.trans hother.symm) hused
termination_by sizeOf members

theorem eq_of_readItems {depth used index : Nat} {path : Path} {result other : List Filter × Nat}
    (items : List Json)
    (hfirst : readItems (scope.under first) depth path index used items = .ok result)
    (hsecond : readItems (scope.under second) depth path index used items = .ok other) :
    result = other := by
  match items with
  | [] => exact Except.ok.inj (hfirst.symm.trans hsecond)
  | item :: items =>
    obtain ⟨part, between, others, hpart, hrest, hresult⟩ := readItems_cons_eq_ok hfirst
    obtain ⟨part', between', others', hpart', hrest', hother⟩ := readItems_cons_eq_ok hsecond
    obtain ⟨rfl, rfl⟩ := Prod.mk.inj (eq_of_readObject item hpart hpart')
    obtain ⟨rfl, hused⟩ := Prod.mk.inj (eq_of_readItems items hrest hrest')
    exact Prod.ext (hresult.trans hother.symm) hused
termination_by sizeOf items

end

/-- **Two adapters that accept a document read the same tree.** -/
theorem root_eq_of_read {document : Json} {root other : Filter}
    (hfirst : read (scope.under first) document = .ok root)
    (hsecond : read (scope.under second) document = .ok other) : root = other := by
  rcases read_eq_ok hfirst with ⟨rfl, rfl⟩ | ⟨used, hread⟩
  · exact Except.ok.inj hsecond
  · rcases read_eq_ok hsecond with ⟨rfl, rfl⟩ | ⟨used', hread'⟩
    · -- `null` is no object
      obtain ⟨-, _, _, hnull, -⟩ := readObject_eq_ok hread
      cases hnull
    · exact (Prod.mk.inj (eq_of_readObject document hread hread')).1

end Reading

/-! ### What is compiled in two dialects -/

section Pieces

open Sql (Condition Neat Parameter)

variable {scope : Scope} {dialect first second : Dialect}

mutual

/-- **The pieces of a part are neat**, with the numbers of the values it binds. -/
theorem Lowers.neat {bound : Nat} {filter : Filter} {condition : Condition} {values : List Json} :
    Lowers scope dialect bound filter condition values → filter.isBuiltin = true →
      Neat dialect (condition.pieces dialect) (List.range' (bound + 1) values.length)
  | .all hparts, hbuiltin => by
    rw [isBuiltin] at hbuiltin
    exact (hparts.neat_joined hbuiltin rfl (by cases dialect <;> decide)).allOf
  | .any hparts, hbuiltin => by
    rw [isBuiltin] at hbuiltin
    exact (hparts.neat_joined hbuiltin rfl (by cases dialect <;> decide)).anyOf
  | .not hpart, hbuiltin => by
    rw [isBuiltin] at hbuiltin
    rw [Condition.pieces]
    exact (hpart.neat hbuiltin).negate
  | .field _ _ hleaf, _ => by
    rcases Sql.leaf_eq_ok hleaf with ⟨value, rfl, rfl, -, -⟩ | ⟨check, rfl, hspec⟩
    · exact Neat.constant value
    · rw [Condition.pieces, ← hspec.params]
      exact Sql.Test.neat _ hspec.suits
  | .custom _ _, hbuiltin => by
    rw [isBuiltin] at hbuiltin
    cases hbuiltin

theorem LowersAll.neat_joined {bound : Nat} {parts : List Filter} {conditions : List Condition}
    {values : List Json} {connective : String} :
    LowersAll scope dialect bound parts conditions values → areBuiltin parts = true →
      Sql.areSetOff [.fixed connective] = true →
        Sql.isPlainText dialect false connective.toList = true →
          Neat dialect (Condition.joined dialect connective conditions)
            (List.range' (bound + 1) values.length)
  | .nil, _, _, _ => by
    rw [Condition.joined]
    exact Neat.nil
  | .cons hpart .nil, hbuiltin, _, _ => by
    rw [areBuiltin, Bool.and_eq_true] at hbuiltin
    rw [Condition.joined, List.append_nil]
    exact hpart.neat hbuiltin.1
  | .cons hpart (.cons hnext hrest), hbuiltin, hset, hplain => by
    rw [areBuiltin, Bool.and_eq_true] at hbuiltin
    have hothers := (LowersAll.cons hnext hrest).neat_joined hbuiltin.2 hset hplain
    -- the count goes on where the first part left it
    rw [Condition.joined, List.length_append, ← List.range'_append_1]
    · rw [Nat.add_right_comm] at hothers
      exact (hpart.neat hbuiltin.1).append hset hplain hothers
    · exact List.cons_ne_nil _ _

end

mutual

/-- **A part has the same pieces in two dialects** that have all its operators. -/
theorem Lowers.agrees (hassembled : scope.registry.Assembled)
    (hnarrow : scope.registry.OverridesNarrow) {bound : Nat} {filter : Filter}
    {condition other : Condition} {values others : List Json} :
    Lowers (scope.under (.sql first)) first bound filter condition values →
      Lowers (scope.under (.sql second)) second bound filter other others →
        filter.isBuiltin = true →
          condition.pieces first = other.pieces second ∧ values.length = others.length
  | .all hparts, .all hparts', hbuiltin => by
    rw [isBuiltin] at hbuiltin
    obtain ⟨hpieces, hlength⟩ := hparts.agree hassembled hnarrow hparts' hbuiltin
    exact ⟨Sql.pieces_allOf_eq hpieces, hlength⟩
  | .any hparts, .any hparts', hbuiltin => by
    rw [isBuiltin] at hbuiltin
    obtain ⟨hpieces, hlength⟩ := hparts.agree hassembled hnarrow hparts' hbuiltin
    exact ⟨Sql.pieces_anyOf_eq hpieces, hlength⟩
  | .not hpart, .not hpart', hbuiltin => by
    rw [isBuiltin] at hbuiltin
    obtain ⟨hpieces, hlength⟩ := hpart.agrees hassembled hnarrow hpart' hbuiltin
    exact ⟨by rw [Condition.pieces, Condition.pieces, hpieces], hlength⟩
  | .field hdeclared hlegal hleaf, .field hdeclared' hlegal' hleaf', _ => by
    obtain rfl := Option.some.inj (hdeclared.symm.trans hdeclared')
    exact Sql.leaf_agrees hleaf hleaf' (hassembled.eq_or_ne_ilike hnarrow hlegal hlegal')
  | .custom _ _, _, hbuiltin => by
    rw [isBuiltin] at hbuiltin
    cases hbuiltin

theorem LowersAll.agree (hassembled : scope.registry.Assembled)
    (hnarrow : scope.registry.OverridesNarrow) {bound : Nat} {parts : List Filter}
    {conditions : List Condition} {found : List Condition} {values others : List Json} :
    LowersAll (scope.under (.sql first)) first bound parts conditions values →
      LowersAll (scope.under (.sql second)) second bound parts found others →
        areBuiltin parts = true →
          conditions.map (Condition.pieces first) = found.map (Condition.pieces second) ∧
            values.length = others.length
  | .nil, .nil, _ => ⟨rfl, rfl⟩
  | .cons hpart hparts, .cons hpart' hparts', hbuiltin => by
    rw [areBuiltin, Bool.and_eq_true] at hbuiltin
    obtain ⟨hpieces, hlength⟩ := hpart.agrees hassembled hnarrow hpart' hbuiltin.1
    -- both bind as many values, so both go on with the same number
    rw [← hlength] at hparts'
    obtain ⟨hothers, hrest⟩ := hparts.agree hassembled hnarrow hparts' hbuiltin.2
    exact ⟨congrArg₂ List.cons hpieces hothers, by simp [hlength, hrest]⟩

end

/-! ### Values in a shared form -/

/-- The values of a leaf in the form that the dialects share. -/
def parameters (scope : Scope) : Filter → List Parameter
  | .field name op operand =>
    match scope.field? name with
    | some declared => Sql.leafParameters declared.kind op operand
    | none => []
  | _ => []

/-- No adapter is asked for the values. -/
theorem parameters_under (adapter : Adapter) :
    parameters (scope.under adapter) = parameters scope := rfl

/-- All leaves of a filter are built-in ones. -/
def HasFieldLeaves (filter : Filter) : Prop :=
  ∀ leaf ∈ filter.leaves, ∃ name op operand, leaf = .field name op operand

theorem HasFieldLeaves.isBuiltin {filter : Filter} (h : filter.HasFieldLeaves) :
    filter.isBuiltin = true := by
  refine isBuiltin_of_leaves filter fun leaf hleaf => ?_
  obtain ⟨name, op, operand, rfl⟩ := h leaf hleaf
  rfl

/-- The values of a filter are those of the shared form, as a dialect binds them. -/
theorem bindings_eq_map {filter : Filter} (h : filter.HasFieldLeaves) :
    filter.bindings scope dialect =
      (filter.leaves.flatMap (parameters scope)).map (Parameter.bind dialect) := by
  rw [bindings_eq_flatMap, List.map_flatMap]
  refine List.flatMap_congr fun leaf hleaf => ?_
  obtain ⟨name, op, operand, rfl⟩ := h leaf hleaf
  rw [bindings, parameters]
  cases scope.field? name with
  | none => rfl
  | some declared => exact Sql.leafBindings_eq_map declared.kind op operand

end Pieces

end Filter

/-! ### Predicates -/

/-- A predicate is the spelling of a shared form: its text is read as the form, and it is the form
with the quotes of the dialect and its placeholders, numbered from one; its parameters are the
shared ones as the dialect binds them. -/
structure Predicate.Spells (predicate : Predicate) (dialect : Dialect) (form : List Sql.Glyph)
    (parameters : List Sql.Parameter) : Prop where
  text : ∃ sql, predicate.sql? = some sql ∧ Sql.neutral? dialect sql.toList = some form ∧
    Sql.respell dialect 1 form = sql.toList
  params : predicate.params = parameters.map (Sql.Parameter.bind dialect)

/-- A filter of built-in leaves that was read compiles, to a spelling of the pieces of its
condition. -/
theorem Filter.spells_of_read {scope : Scope} {dialect : Dialect} {document : Json}
    {filter : Filter} (hassembled : scope.registry.Assembled)
    (hnarrow : scope.registry.OverridesNarrow) (hadapter : scope.adapter = .sql dialect)
    (hleaves : filter.HasFieldLeaves) (hread : Filter.read scope document = .ok filter) :
    ∃ condition predicate, filter.compile scope = .ok predicate ∧
      Filter.Lowers scope dialect 0 filter condition predicate.params ∧
      predicate.Spells dialect (Sql.glyphs (condition.pieces dialect))
        (filter.leaves.flatMap (Filter.parameters scope)) := by
  rcases Filter.compile_of_read hassembled hnarrow hread with
    ⟨predicate, hcompile⟩ | ⟨leaf, hleaf, _, _, hfails⟩
  · obtain ⟨condition, hlowers, hpredicate⟩ := Filter.compile_eq_ok hadapter hcompile
    have hneat := hlowers.neat hleaves.isBuiltin
    refine ⟨condition, predicate, hcompile, hlowers, ⟨condition.text dialect, ?_, ?_, ?_⟩, ?_⟩
    · rw [hpredicate]
      rfl
    · exact Sql.neutral?_chars hneat.spaced
    · exact Sql.respell_glyphs hneat.numbers_eq
    · exact (hlowers.bindings hleaves.isBuiltin).trans (Filter.bindings_eq_map hleaves)
  · -- only custom leaves fail
    obtain ⟨name, op, operand, rfl⟩ := hleaves leaf hleaf
    cases hfails

namespace Engine

/-- The same engine under another adapter. -/
def under (engine : Engine) (adapter : Adapter) : Engine := { engine with adapter }

/-- **Dialects agree.** Without overrides and custom filters, two dialects that accept a document
read the same tree and compile it to the spellings of one form, with the values of its leaves. -/
theorem dialects_agree {engine : Engine} {first second : Dialect} {entity : String}
    {document : Json} {bound other : BoundFilter} (hassembled : engine.registry.Assembled)
    (hoverrides : engine.registry.overrides = []) (hcustom : engine.custom = .empty)
    (hfirst : (engine.under (.sql first)).readFilter entity document = .ok bound)
    (hsecond : (engine.under (.sql second)).readFilter entity document = .ok other) :
    bound.root = other.root ∧ ∃ predicate predicate' form,
      (engine.under (.sql first)).compileFilter bound = .ok predicate ∧
      (engine.under (.sql second)).compileFilter other = .ok predicate' ∧
      predicate.Spells first form
        (bound.root.leaves.flatMap (Filter.parameters (engine.scope entity))) ∧
      predicate'.Spells second form
        (bound.root.leaves.flatMap (Filter.parameters (engine.scope entity))) := by
  have hnarrow := Registry.overridesNarrow_of_nil hoverrides
  obtain ⟨-, root, hread, rfl⟩ := readFilter_eq_ok.1 hfirst
  obtain ⟨-, root', hread', rfl⟩ := readFilter_eq_ok.1 hsecond
  -- the scopes are those of one engine under two adapters
  change Filter.read ((engine.scope entity).under (.sql first)) document = .ok root at hread
  change Filter.read ((engine.scope entity).under (.sql second)) document = .ok root' at hread'
  obtain rfl := Filter.root_eq_of_read hread hread'
  have hleaves : root.HasFieldLeaves := by
    intro leaf hleaf
    have hchecked := Filter.checked_of_read hread leaf hleaf
    obtain ⟨name, op, operand, -, rfl, -⟩ :=
      @isField_of_checked (engine.under (.sql first)) entity hcustom leaf hchecked
    exact ⟨name, op, operand, rfl⟩
  obtain ⟨condition, predicate, hcompile, hlowers, hspells⟩ :=
    Filter.spells_of_read hassembled hnarrow rfl hleaves hread
  obtain ⟨condition', predicate', hcompile', hlowers', hspells'⟩ :=
    Filter.spells_of_read hassembled hnarrow rfl hleaves hread'
  obtain ⟨hpieces, -⟩ := hlowers.agrees hassembled hnarrow hlowers' hleaves.isBuiltin
  rw [Filter.parameters_under] at hspells hspells'
  rw [← hpieces] at hspells'
  exact ⟨rfl, predicate, predicate', _, (compileFilter_bind root).trans hcompile,
    (compileFilter_bind root).trans hcompile', hspells, hspells'⟩

/-- A text with a bracket is looked for in a column with a bracket in its name, next to a list and a
test of an array, which only one of the dialects has. -/
theorem dialects_agree_brackets :
    let entity : Entity := ⟨"User", [⟨"name", "u.na]me", .string, true, true⟩,
      .declare "age" .integer, .declare "tags" .array]⟩
    let engine : Engine := { schema := ⟨.ofList [("User", entity)]⟩ }
    let document : Json := .object
      [("_or", .array [.object [("name", .object [("_contains", .string "a[b")])],
          .object [("age", .object [("_in", .array [.int 1, .int 2])])]]),
        ("tags", .object [("_is_null", .bool true)])]
    let root : Filter :=
      .all [.any [.field "name" .contains (.string "a[b"),
          .field "age" .isIn (.array [.int 1, .int 2])], .field "tags" .isNull (.bool true)]
    engine.registry.Assembled ∧
      (engine.under (.sql .postgres)).readFilter "User" document =
        .ok ⟨.sql .postgres, "User", root⟩ ∧
      (engine.under (.sql .mssql)).readFilter "User" document = .ok ⟨.sql .mssql, "User", root⟩ ∧
      ∃ predicate predicate' form parameters,
        (engine.under (.sql .postgres)).compileFilter ⟨.sql .postgres, "User", root⟩ =
          .ok predicate ∧
        (engine.under (.sql .mssql)).compileFilter ⟨.sql .mssql, "User", root⟩ = .ok predicate' ∧
        predicate.Spells .postgres form parameters ∧ predicate'.Spells .mssql form parameters ∧
        predicate.params = [.string "%a[b%", .int 1, .int 2] ∧
        predicate'.params = [.string "%a![b%", .int 1, .int 2] := by
  intro entity engine document root
  have hpostgres : (engine.under (.sql .postgres)).readFilter "User" document =
      .ok ⟨.sql .postgres, "User", root⟩ := rfl
  have hmssql : (engine.under (.sql .mssql)).readFilter "User" document =
      .ok ⟨.sql .mssql, "User", root⟩ := rfl
  obtain ⟨-, predicate, predicate', form, hcompile, hcompile', hspells, hspells'⟩ :=
    dialects_agree .empty rfl rfl hpostgres hmssql
  exact ⟨.empty, hpostgres, hmssql, predicate, predicate', form, _, hcompile, hcompile', hspells,
    hspells', hspells.params, hspells'.params⟩

end Engine

end Criteria
