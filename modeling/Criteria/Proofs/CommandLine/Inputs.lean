import Criteria.CommandLine.Run
import Criteria.Proofs.Inputs.Generated
import Criteria.Proofs.Registry.Assembly
import Criteria.Proofs.Schema.Declared
import Criteria.Proofs.TypeGraph.Declared
import Criteria.Proofs.TypeGraph.Reachability

/-!
# The inputs of what is reached

Three parts of the program read the types of a configuration: the graph of types, which is walked;
the schema, which knows the fields; and the filter for entities between them. Types that one of them
took for an entity and another did not would be lost without a word, because inputs are only made
for entities that the schema has. They agree: an entity is an object or an interface, declared under
its name, for each of them (`Schema.contains_of_ofConfig`, `TypeGraph.isEntity_of_ofConfig`).

* `reachedInputs_listsEach` — the command makes inputs for the entities that are reached.
-/

namespace Criteria

namespace CommandLine

open Inputs

variable {config : Config} {roots types : List String} {graph : TypeGraph} {generated : Inputs}

/-- The roots that a walk starts from: the given ones, or the configured ones if none are given. -/
def startOf (config : Config) (roots : List String) : List String :=
  if roots.isEmpty then config.schema.roots else roots

/-- A walk is one through the graph that the configuration declares. -/
theorem walk_eq_ok :
    walk config roots = .ok (graph, types) ↔
      (startOf config roots).isEmpty = false ∧ TypeGraph.ofConfig config.schema = .ok graph ∧
        graph.discover (startOf config roots) = .ok types := by
  have hwalk : walk config roots =
      if (startOf config roots).isEmpty then .error .noRoots
      else do
        let graph ← (TypeGraph.ofConfig config.schema).mapError .discovery
        let types ← (graph.discover (startOf config roots)).mapError .discovery
        return (graph, types) := rfl
  rw [hwalk, refuse_eq_ok, Bool.not_eq_true]
  refine and_congr_right fun _ => ?_
  constructor
  · intro h
    obtain ⟨built, hgraph, h⟩ := bind_eq_ok.1 h
    obtain ⟨found, hfound, h⟩ := bind_eq_ok.1 h
    obtain ⟨rfl, rfl⟩ := Prod.mk.inj (Except.ok.inj h)
    exact ⟨mapError_eq_ok.1 hgraph, mapError_eq_ok.1 hfound⟩
  · rintro ⟨hgraph, htypes⟩
    refine bind_eq_ok.2 ⟨graph, mapError_eq_ok.2 hgraph, ?_⟩
    exact bind_eq_ok.2 ⟨types, mapError_eq_ok.2 htypes, rfl⟩

/-- A declared object or interface that references lead to from the roots. -/
structure IsReachedEntity (config : Config) (graph : TypeGraph) (roots : List String)
    (name : String) : Prop where
  declared : ∃ type ∈ config.schema.types, type.name = name ∧ type.sort.isEntity = true
  reachable : Reachable graph.referencesOf (startOf config roots) name

/-- **There are inputs for every entity that is reached, and for nothing else.** -/
theorem reachedInputs_listsEach (h : reachedInputs config roots = .ok generated) :
    ∃ graph, TypeGraph.ofConfig config.schema = .ok graph ∧
      inputs config roots = .ok (generated.toJson.pretty ++ "\n") ∧
      ListsEach generated.filterInputs FilterInput.name FilterInput.entity "Filter"
        (IsReachedEntity config graph roots) ∧
      ListsEach generated.orderInputs OrderInput.name OrderInput.entity "Order"
        (IsReachedEntity config graph roots) := by
  have hinputs : inputs config roots = .ok (generated.toJson.pretty ++ "\n") := by
    rw [inputs, h]
    rfl
  obtain ⟨engine, hengine, h⟩ := bind_eq_ok.1 h
  obtain ⟨⟨graph, types⟩, hwalk, h⟩ := bind_eq_ok.1 h
  obtain rfl := Except.ok.inj h
  obtain ⟨-, hgraph, htypes⟩ := walk_eq_ok.1 hwalk
  have hschema : Schema.ofConfig config.schema = .ok engine.schema :=
    Engine.schema_ofConfig (mapError_eq_ok.1 hengine)
  obtain ⟨-, hreachable⟩ := TypeGraph.mem_of_discover htypes
  -- the schema and the graph know the same entities, so that the filter between them loses nothing
  have hreached : ∀ name,
      engine.schema.contains name = true ∧ name ∈ graph.entitiesAmong types ↔
        IsReachedEntity config graph roots name := by
    intro name
    rw [TypeGraph.entitiesAmong, List.mem_filter, TypeGraph.isEntity_of_ofConfig hgraph,
      Schema.contains_of_ofConfig hschema, hreachable]
    constructor
    · rintro ⟨hdeclared, hreached, -⟩
      exact ⟨hdeclared, hreached⟩
    · rintro ⟨hdeclared, hreached⟩
      exact ⟨hdeclared, hreached, hdeclared⟩
  obtain ⟨hfilters, horders⟩ :=
    generate_listsEach (Schema.isProper_of_ofConfig hschema) (graph.entitiesAmong types)
  exact ⟨graph, hgraph, hinputs, hfilters.congr hreached, horders.congr hreached⟩

/-- Posts and users refer to each other and to nothing that is missing; no type refers to drafts. -/
def blogConfig : Config where
  schema :=
    { roots := ["Post"]
      types :=
        [{ name := "Post", fields := [{ name := "author", type := some "User!" }] },
          { name := "User", sort := .interface,
            fields := [{ name := "posts", type := some "[Post!]!" },
              { name := "status", type := some "Status", kind := some "enum:Status" }] },
          { name := "Draft", fields := [{ name := "post", type := some "Post" }] }]
      enums := [{ name := "Status", values := ["on", "off"] }] }

/-- What is checked of the graph of the blog: posts refer to users, references lead to types, and
none leads to drafts. -/
def isBlogGraph (graph : TypeGraph) : Bool :=
  (graph.node? "Post").isSome && (graph.referencesOf "Post").contains "User" &&
    graph.types.values.all fun node => node.references.all fun target =>
      (graph.node? target).isSome && target != "Draft"

/-- From the configured root a cycle leads to the users, who get inputs, and on to their status,
which is reached and gets none. Drafts get none because nothing leads to them. -/
theorem reachedInputs_listsEach_blog :
    ∃ generated, reachedInputs blogConfig [] = .ok generated ∧
      "User" ∈ generated.filterInputs.values.map FilterInput.entity ∧
      "Status" ∉ generated.filterInputs.values.map FilterInput.entity ∧
      "Draft" ∉ generated.orderInputs.values.map OrderInput.entity := by
  have hengine : failure? (engineOf blogConfig) = none := by decide +kernel
  have hchecked : (TypeGraph.ofConfig blogConfig.schema).map isBlogGraph = .ok true := by
    decide +kernel
  obtain ⟨engine, hengine⟩ := failure?_eq_none.1 hengine
  obtain ⟨graph, hgraph, hchecked⟩ := map_eq_ok.1 hchecked
  -- A walk recurs on a measure, which the kernel does not unfold. So only the graph is evaluated,
  -- and what is reached follows from its references.
  simp only [isBlogGraph, Bool.and_eq_true, List.contains_iff_mem, List.all_eq_true,
    bne_iff_ne] at hchecked
  obtain ⟨⟨hpost, huser⟩, hnodes⟩ := hchecked
  have hnode : ∀ name node, graph.node? name = some node → ∀ target ∈ node.references,
      (graph.node? target).isSome = true ∧ target ≠ "Draft" := fun name node hnode =>
    hnodes node (Catalog.mem_values_iff.2 ⟨name, hnode⟩)
  obtain ⟨types, htypes⟩ := TypeGraph.exists_discover (List.forall_mem_singleton.2 hpost)
    fun name node hfound target htarget => (hnode name node hfound target htarget).1
  have hreached : reachedInputs blogConfig [] =
      .ok (generate engine (graph.entitiesAmong types)) :=
    bind_eq_ok.2 ⟨engine, hengine, bind_eq_ok.2
      ⟨(graph, types), walk_eq_ok.2 ⟨rfl, hgraph, htypes⟩, rfl⟩⟩
  obtain ⟨found, hfound, -, hfilters, horders⟩ := reachedInputs_listsEach hreached
  obtain rfl := Except.ok.inj (hfound.symm.trans hgraph)
  refine ⟨_, hreached, ?_, ?_, ?_⟩
  · -- the users are one reference away from the root
    have hroot : Reachable found.referencesOf (startOf blogConfig []) "Post" :=
      .root List.mem_cons_self
    exact (hfilters.mem_iff "User").2 ⟨by decide, hroot.next huser⟩
  · -- the status is reached, but only enums have this name
    intro hstatus
    obtain ⟨hentity, -⟩ := (hfilters.mem_iff "Status").1 hstatus
    exact absurd hentity (by decide)
  · intro hdraft
    obtain ⟨-, hreachable⟩ := (horders.mem_iff "Draft").1 hdraft
    -- no root is the type of drafts, and no reference leads there
    have hroots : ∀ root ∈ startOf blogConfig [], root ≠ "Draft" := by decide
    have hclosed : ∀ source, source ≠ "Draft" → ∀ target ∈ found.referencesOf source,
        target ≠ "Draft" := by
      intro source _ target htarget
      obtain ⟨node, hsource, htarget⟩ := TypeGraph.mem_referencesOf.1 htarget
      exact (hnode source node hsource target htarget).2
    exact @Reachable.of_closed _ _ _ (fun name => name ≠ "Draft") hroots hclosed hreachable rfl

end CommandLine

end Criteria
