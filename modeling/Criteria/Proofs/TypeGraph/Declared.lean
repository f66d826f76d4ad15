import Criteria.Proofs.Catalog
import Criteria.Proofs.Outcome
import Criteria.TypeGraph.Basic

/-!
# The types of a graph

A graph that was built has a node for every declared type, a leaf for every enum that is not a type
as well, and the built-in scalars that were not declared. Names do not repeat, so what stands under
a name is what was declared under it; a built-in scalar only fills a gap.

* `gains_of_addAll` — the nodes that were added, each under its name;
* `get?_addScalars` — the built-in scalars behind them;
* `exists_build_iff` — a graph is built of nodes whose names differ, and of no others;
* `gains_of_build`, `values_perm_of_build` — the nodes of the graph;
* `declaredNodes` — the nodes that a configuration declares;
* `exists_ofConfig`, `node?_of_ofConfig`, `values_perm_of_ofConfig` — a graph of them is built;
* `isEntity_of_ofConfig` — the entities of a graph are the declared types of such a sort.
-/

namespace Criteria.TypeGraph

variable {schema : Config.SchemaSection} {graph : TypeGraph} {types result : Catalog TypeNode}
  {node : TypeNode} {nodes rest : List TypeNode} {name : String}

/-! ### Building -/

/-- A node is added if none stands under its name. -/
theorem addAll_cons_eq_ok :
    addAll types (node :: rest) = .ok result ↔
      types.contains node.name = false ∧
        addAll (types.insert node.name node) rest = .ok result := by
  rw [addAll, refuse_eq_ok, Bool.not_eq_true]

/-- Nodes are added exactly if their names are neither taken nor repeated. -/
theorem exists_addAll_iff {nodes : List TypeNode} : ∀ {types : Catalog TypeNode},
    (∃ result, addAll types nodes = .ok result) ↔ Catalog.Fresh TypeNode.name types nodes := by
  induction nodes with
  | nil =>
    intro types
    exact iff_of_true ⟨types, rfl⟩ Catalog.fresh_nil
  | cons node rest ih =>
    intro types
    simp only [addAll_cons_eq_ok, exists_and_left]
    rw [ih, Catalog.fresh_cons_iff]

/-- **A graph is built exactly of nodes whose names differ.** The built-in scalars are never in
the way. -/
theorem exists_build_iff :
    (∃ graph, build nodes = .ok graph) ↔ (nodes.map TypeNode.name).Nodup := by
  rw [← Catalog.fresh_empty_iff, ← exists_addAll_iff]
  constructor
  · rintro ⟨graph, h⟩
    obtain ⟨types, htypes, -⟩ := bind_eq_ok.1 h
    exact ⟨types, htypes⟩
  · rintro ⟨types, htypes⟩
    exact ⟨⟨addScalars types⟩, bind_eq_ok.2 ⟨types, htypes, rfl⟩⟩

theorem gains_of_addAll {nodes : List TypeNode} :
    ∀ {types result : Catalog TypeNode}, addAll types nodes = .ok result →
      Catalog.Gains TypeNode.name types nodes result := by
  induction nodes with
  | nil =>
    intro types result h
    obtain rfl := Except.ok.inj h
    exact .nil
  | cons node rest ih =>
    intro types result h
    obtain ⟨hfresh, hrest⟩ := addAll_cons_eq_ok.1 h
    exact .cons hfresh (ih hrest)

/-- The node of a built-in scalar. -/
def scalarNode (name : String) : TypeNode := ⟨name, .scalar, []⟩

/-- A scalar is added where nothing stands. -/
theorem get?_addScalar (types : Catalog TypeNode) (scalar name : String) :
    (if types.contains scalar then types
      else types.insert scalar (scalarNode scalar)).get? name =
      (types.get? name).or (if name = scalar then some (scalarNode name) else none) := by
  by_cases hname : name = scalar
  · subst hname
    rw [if_pos rfl]
    cases hfound : types.get? name with
    | some node =>
      rw [if_pos (Catalog.contains_iff.2 ⟨node, hfound⟩), hfound]
      rfl
    | none =>
      have hfresh : ¬ types.contains name = true := by simp [Catalog.contains, hfound]
      rw [if_neg hfresh, Catalog.get?_insert_self]
      rfl
  · rw [if_neg hname, Option.or_none]
    split
    · rfl
    · rw [Catalog.get?_insert, if_neg hname]

/-- **The built-in scalars stand behind what was declared.** -/
theorem get?_addScalars (types : Catalog TypeNode) (name : String) :
    (addScalars types).get? name =
      (types.get? name).or
        (if name ∈ builtinScalars then some (scalarNode name) else none) := by
  unfold addScalars
  generalize builtinScalars = scalars
  induction scalars generalizing types with
  | nil => simp
  | cons scalar scalars ih =>
    rw [List.foldl_cons, ih]
    change ((if types.contains scalar then types
      else types.insert scalar (scalarNode scalar)).get? name).or _ = _
    rw [get?_addScalar, Option.or_assoc]
    congr 1
    by_cases hname : name = scalar
    · simp [hname]
    · simp [hname]

/-- What stands under a name in a graph that was built. -/
theorem node?_of_build (h : build nodes = .ok graph) :
    graph.node? name = some node ↔
      (node ∈ nodes ∧ node.name = name) ∨
        (∀ other ∈ nodes, other.name ≠ name) ∧ name ∈ builtinScalars ∧ node = scalarNode name := by
  obtain ⟨types, htypes, h⟩ := bind_eq_ok.1 h
  obtain rfl := Except.ok.inj h
  have hgains : ∀ other, types.get? name = some other ↔ other ∈ nodes ∧ other.name = name := by
    intro other
    have hempty : (Catalog.empty : Catalog TypeNode).get? name ≠ some other := nofun
    exact (gains_of_addAll htypes name other).trans (or_iff_right hempty)
  -- the second case asks that nothing was declared, so what was looked up tells which case it is
  rw [node?, get?_addScalars]
  cases hfound : types.get? name with
  | some found =>
    have hdeclared := (hgains found).1 hfound
    rw [Option.some_or, ← hfound, hgains]
    exact (or_iff_left fun h => h.1 found hdeclared.1 hdeclared.2).symm
  | none =>
    have hnone : ∀ other ∈ nodes, other.name ≠ name := by
      intro other hother hname
      rw [(hgains other).2 ⟨hother, hname⟩] at hfound
      cases hfound
    rw [Option.none_or, Option.ite_none_right_eq_some, Option.some.injEq]
    constructor
    · rintro ⟨hscalar, rfl⟩
      exact .inr ⟨hnone, hscalar, rfl⟩
    · rintro (⟨hnode, hname⟩ | ⟨-, hscalar, rfl⟩)
      · exact absurd hname (hnone node hnode)
      · exact ⟨hscalar, rfl⟩

/-- The built-in scalars that no node is named like. -/
def missingScalars (nodes : List TypeNode) : List TypeNode :=
  (builtinScalars.filter fun name => name ∉ nodes.map TypeNode.name).map scalarNode

theorem mem_missingScalars_iff :
    node ∈ missingScalars nodes ∧ node.name = name ↔
      (∀ other ∈ nodes, other.name ≠ name) ∧ name ∈ builtinScalars ∧ node = scalarNode name := by
  have hnew : name ∉ nodes.map TypeNode.name ↔ ∀ other ∈ nodes, other.name ≠ name := by
    constructor
    · intro h other hother hname
      exact h (List.mem_map.2 ⟨other, hother, hname⟩)
    · intro h hmem
      obtain ⟨other, hother, hname⟩ := List.mem_map.1 hmem
      exact h other hother hname
  rw [← hnew, missingScalars, List.mem_map]
  constructor
  · rintro ⟨⟨scalar, hscalar, rfl⟩, rfl⟩
    rw [List.mem_filter, decide_eq_true_eq] at hscalar
    exact ⟨hscalar.2, hscalar.1, rfl⟩
  · rintro ⟨hnew, hscalar, rfl⟩
    exact ⟨⟨name, List.mem_filter.2 ⟨hscalar, decide_eq_true hnew⟩, rfl⟩, rfl⟩

/-- A graph has the nodes that it was built of and the missing scalars. -/
theorem gains_of_build (h : build nodes = .ok graph) :
    Catalog.Gains TypeNode.name .empty (nodes ++ missingScalars nodes) graph.types := by
  intro name node
  have hempty : (Catalog.empty : Catalog TypeNode).get? name ≠ some node := nofun
  rw [or_iff_right hempty, List.mem_append, or_and_right, mem_missingScalars_iff]
  exact node?_of_build h

/-- Names that differ still do behind others, if those are left out that stand there already. -/
theorem nodup_append_filter {first second : List String} (hfirst : first.Nodup)
    (hsecond : second.Nodup) : (first ++ second.filter fun name => name ∉ first).Nodup := by
  refine List.nodup_append.2 ⟨hfirst, hsecond.sublist List.filter_sublist, ?_⟩
  rintro name hname _ hother rfl
  exact of_decide_eq_true (List.mem_filter.1 hother).2 hname

/-- **A graph has no other nodes**, and each of these once. -/
theorem values_perm_of_build (h : build nodes = .ok graph) :
    graph.types.values.Perm (nodes ++ missingScalars nodes) := by
  refine (gains_of_build h).values_perm ?_
  have hnames : (missingScalars nodes).map TypeNode.name =
      builtinScalars.filter fun name => name ∉ nodes.map TypeNode.name := by
    rw [missingScalars, List.map_map]
    exact List.map_id _
  rw [List.map_append, hnames]
  have hnodes : (nodes.map TypeNode.name).Nodup := exists_build_iff.1 ⟨graph, h⟩
  have hscalars : builtinScalars.Nodup := by decide
  exact nodup_append_filter hnodes hscalars

/-! ### Configurations -/

/-- The leaf of an enum. -/
def enumNode (name : String) : TypeNode := ⟨name, .enum, []⟩

/-- The nodes that a configuration declares: its types, the enums that are no types, and the
built-in scalars that are neither. -/
def declaredNodes (schema : Config.SchemaSection) : List TypeNode :=
  let types := schema.types.map Config.TypeSection.name
  let enums := schema.enums.map Config.EnumSection.name
  schema.types.map TypeNode.ofConfig ++ (enums.filter fun name => name ∉ types).map enumNode ++
    (builtinScalars.filter fun name => name ∉ types ∧ name ∉ enums).map scalarNode

theorem enumNodes_eq :
    enumNodes schema =
      ((schema.enums.map Config.EnumSection.name).filter fun name =>
        name ∉ schema.types.map Config.TypeSection.name).map enumNode := by
  rw [List.filter_map, List.map_map, enumNodes]
  refine congrArg (List.map _) (List.filter_congr fun enum _ => ?_)
  rw [List.contains_eq_mem, Function.comp_apply, decide_not]

/-- The names of the types, and then those of the enums that are no types. -/
theorem map_name_nodes :
    (schema.types.map TypeNode.ofConfig ++ enumNodes schema).map TypeNode.name =
      schema.types.map Config.TypeSection.name ++
        (schema.enums.map Config.EnumSection.name).filter fun name =>
          name ∉ schema.types.map Config.TypeSection.name := by
  have htypes : (schema.types.map TypeNode.ofConfig).map TypeNode.name =
      schema.types.map Config.TypeSection.name := List.map_map
  rw [List.map_append, htypes, enumNodes_eq, List.map_map]
  exact congrArg (_ ++ ·) (List.map_id _)

/-- A graph is built if the types have different names, and so have the enums. An enum may have the
name of a type. -/
theorem exists_ofConfig (htypes : (schema.types.map Config.TypeSection.name).Nodup)
    (henums : (schema.enums.map Config.EnumSection.name).Nodup) :
    ∃ graph, ofConfig schema = .ok graph := by
  rw [ofConfig, exists_build_iff, map_name_nodes]
  exact nodup_append_filter htypes henums

/-- The nodes that a graph is built of, and the missing scalars, are the declared nodes. -/
theorem nodes_append_missingScalars :
    (schema.types.map TypeNode.ofConfig ++ enumNodes schema) ++
        missingScalars (schema.types.map TypeNode.ofConfig ++ enumNodes schema) =
      declaredNodes schema := by
  have hmissing : ∀ name,
      name ∉ (schema.types.map TypeNode.ofConfig ++ enumNodes schema).map TypeNode.name ↔
        name ∉ schema.types.map Config.TypeSection.name ∧
          name ∉ schema.enums.map Config.EnumSection.name := by
    intro name
    rw [map_name_nodes, List.mem_append, List.mem_filter, decide_eq_true_eq]
    tauto
  rw [declaredNodes, missingScalars, enumNodes_eq]
  refine congrArg (_ ++ List.map _ ·) (List.filter_congr fun name _ => ?_)
  rw [← enumNodes_eq]
  exact decide_eq_decide.2 (hmissing name)

/-- **The nodes of the graph are the declared ones**, each under its name. -/
theorem node?_of_ofConfig (h : ofConfig schema = .ok graph) :
    graph.node? name = some node ↔ node ∈ declaredNodes schema ∧ node.name = name := by
  have hgains := gains_of_build h name node
  rw [nodes_append_missingScalars] at hgains
  have hempty : (Catalog.empty : Catalog TypeNode).get? name ≠ some node := nofun
  exact hgains.trans (or_iff_right hempty)

theorem values_perm_of_ofConfig (h : ofConfig schema = .ok graph) :
    graph.types.values.Perm (declaredNodes schema) := by
  rw [← nodes_append_missingScalars]
  exact values_perm_of_build h

/-- A declared type has its own sort. -/
theorem sort?_of_ofConfig (h : ofConfig schema = .ok graph) {type : Config.TypeSection}
    (htype : type ∈ schema.types) : graph.sort? type.name = some type.sort := by
  have hnode : TypeNode.ofConfig type ∈ declaredNodes schema :=
    List.mem_append_left _ (List.mem_append_left _ (List.mem_map_of_mem htype))
  have hfound : graph.node? type.name = some (TypeNode.ofConfig type) :=
    (node?_of_ofConfig h).2 ⟨hnode, rfl⟩
  rw [sort?, hfound]
  rfl

/-! ### Entities -/

/-- A type is an entity if what stands under its name is of such a sort. -/
theorem isEntity_iff :
    graph.isEntity name = true ↔
      ∃ node, graph.node? name = some node ∧ node.sort.isEntity = true := by
  rw [isEntity, sort?]
  cases graph.node? name with
  | none => simp
  | some node => simp

/-- **The entities of a graph are the declared types of such a sort.** Neither an enum nor a
built-in scalar is one. -/
theorem isEntity_of_ofConfig (h : ofConfig schema = .ok graph) :
    graph.isEntity name = true ↔
      ∃ type ∈ schema.types, type.name = name ∧ type.sort.isEntity = true := by
  rw [isEntity_iff]
  simp only [node?_of_build h]
  constructor
  · -- leaves for enums and for built-in scalars are no entities
    rintro ⟨node, ⟨hnode, rfl⟩ | ⟨-, -, rfl⟩, hentity⟩
    · rcases List.mem_append.1 hnode with hdeclared | henum
      · obtain ⟨type, htype, rfl⟩ := List.mem_map.1 hdeclared
        exact ⟨type, htype, rfl, hentity⟩
      · obtain ⟨enum, -, rfl⟩ := List.mem_map.1 henum
        cases hentity
    · cases hentity
  · rintro ⟨type, htype, rfl, hentity⟩
    have hnode : TypeNode.ofConfig type ∈ schema.types.map TypeNode.ofConfig :=
      List.mem_map_of_mem htype
    exact ⟨TypeNode.ofConfig type, .inl ⟨List.mem_append_left _ hnode, rfl⟩, hentity⟩

end Criteria.TypeGraph
