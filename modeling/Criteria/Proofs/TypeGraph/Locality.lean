import Criteria.Proofs.TypeGraph.Reachability
import Criteria.Proofs.TypeGraph.Source
import Mathlib

/-!
# Discovery depends on what is reachable

A walk asks whether its roots resolve, and then what each name it visits refers to. It never asks
for a name that the roots do not lead to, so two sources that answer alike for the reachable names
(`LinkSource.AgreeFrom`) are walked alike: the same names are found in the same order, or the walk
stops with the same failure, or neither walk ends.

The proof runs both walks side by side. They start in the same state, and what carries them along is
that the queue holds reachable names only (`Walk.Within`); stale entries are no exception. While
this holds, the two sources take the same step, and a step keeps it (`Walk.Within.of_step`).
Agreement looks one-sided, because reachability is that through the first source, but it is
symmetric: an answer that leads on to another name is an answer of both (`AgreeFrom.symm`).

A walk through a source need not end. It does if finitely many names are reachable, for then every
step that visits a name leaves fewer of them unvisited (`exists_run`).

* `LinkSource.explore_eq_of_agreeFrom` — sources that agree are walked alike;
* `Links.agreeFrom_of_get?` — links agree if the same stands under the reachable names;
* `discover_depends_on_reachable` — what does not depend on unreachable names.
-/

namespace Criteria

variable {refers refers' : String → List String} {roots : List String} {name : String}

/-- Whether a name is reachable depends on the references of reachable names alone. -/
theorem Reachable.congr (hsame : ∀ name, Reachable refers roots name → refers' name = refers name) :
    Reachable refers' roots name ↔ Reachable refers roots name := by
  constructor
  · intro h
    refine of_closed (fun root hroot => .root hroot) ?_ h
    intro source hsource target htarget
    rw [hsame source hsource] at htarget
    exact hsource.next htarget
  · intro h
    -- the name is reachable both ways, so that its references are the same
    let both := fun name => Reachable refers roots name ∧ Reachable refers' roots name
    have hboth : both name := by
      refine @of_closed _ _ _ both (fun root hroot => ⟨.root hroot, .root hroot⟩) ?_ h
      rintro source ⟨hsource, hsource'⟩ target htarget
      have htarget' : target ∈ refers' source := by
        rw [hsame source hsource]
        exact htarget
      exact ⟨hsource.next htarget, hsource'.next htarget'⟩
    exact hboth.2

/-! ### Sources that agree -/

namespace LinkSource

variable {first second : LinkSource}

/-- Two sources answer alike for the roots, and for all that the roots lead to through the first
one. -/
structure AgreeFrom (first : LinkSource) (roots : List String) (second : LinkSource) : Prop where
  /-- The same roots resolve. -/
  resolves : ∀ root ∈ roots, second.resolves root = first.resolves root
  /-- Reachable names refer to the same names, or fail alike. -/
  edges : ∀ name, Reachable first.targetsOf roots name → second.edges name = first.edges name

theorem AgreeFrom.targetsOf (h : first.AgreeFrom roots second)
    (hname : Reachable first.targetsOf roots name) :
    second.targetsOf name = first.targetsOf name := by
  rw [LinkSource.targetsOf, LinkSource.targetsOf, h.edges name hname]

/-- What the roots lead to is the same through both sources. -/
theorem AgreeFrom.reachable_iff (h : first.AgreeFrom roots second) :
    Reachable second.targetsOf roots name ↔ Reachable first.targetsOf roots name :=
  Reachable.congr fun _ hname => h.targetsOf hname

theorem AgreeFrom.symm (h : first.AgreeFrom roots second) : second.AgreeFrom roots first where
  resolves root hroot := (h.resolves root hroot).symm
  edges name hname := (h.edges name (h.reachable_iff.1 hname)).symm

end LinkSource

/-! ### Two walks side by side -/

namespace Walk

variable {source first second : LinkSource} {walk next : Walk}

/-- A walk has only names in its queue that the roots lead to. -/
def Within (source : LinkSource) (roots : List String) (walk : Walk) : Prop :=
  ∀ name ∈ walk.queue, Reachable source.targetsOf roots name

theorem Within.start (source : LinkSource) (roots : List String) :
    Within source roots ⟨{}, roots⟩ := by
  intro root hroot
  exact .root hroot

/-- **A step adds only names that the roots lead to.** -/
theorem Within.of_step (hwithin : walk.Within source roots)
    (hstep : source.step walk = .ok (some next)) : next.Within source roots := by
  have hcases := hstep ▸ source.stepsTo_step walk
  cases hcases with
  | skip seen =>
    intro name hname
    exact hwithin name (List.mem_cons_of_mem _ hname)
  | @visit found current queue targets fresh answered =>
    have hcurrent : Reachable source.targetsOf roots current := hwithin current List.mem_cons_self
    intro name hname
    rcases List.mem_append.1 hname with hqueued | hjoined
    · exact hwithin name (List.mem_cons_of_mem _ hqueued)
    · have htarget : name ∈ source.targetsOf current := by
        rw [LinkSource.targetsOf_of_edges answered]
        exact (List.mem_filter.1 hjoined).1
      exact hcurrent.next htarget

/-- Sources that agree take the same step. -/
theorem Within.step_eq (hwithin : walk.Within first roots)
    (hagree : first.AgreeFrom roots second) : second.step walk = first.step walk := by
  obtain ⟨found, queue⟩ := walk
  cases queue with
  | nil => rfl
  | cons current queue =>
    have hedges : second.edges current = first.edges current :=
      hagree.edges current (hwithin current List.mem_cons_self)
    simp only [LinkSource.step, hedges]

end Walk

namespace LinkSource

variable {source first second : LinkSource} {walk next : Walk}
  {outcome : Except DiscoveryError Discovery}

/-- What a walk through one source comes to, it comes to through the other one. The induction is on
the walk through the first source, and the queue stays within what is reachable. -/
theorem run_of_agreeFrom (hagree : first.AgreeFrom roots second) (hwithin : walk.Within first roots)
    (h : outcome ∈ first.run walk) : outcome ∈ second.run walk := by
  refine run_induction (motive := fun walk => walk.Within first roots → outcome ∈ second.run walk)
    h ?_ hwithin
  intro walk hwalk ih hwithin
  have hsame : second.step walk = first.step walk := hwithin.step_eq hagree
  cases hstep : first.step walk with
  | error fault =>
    rw [run_eq_of_fail hstep] at hwalk
    rw [run_eq_of_fail (hsame.trans hstep)]
    exact hwalk
  | ok taken =>
    cases taken with
    | none =>
      rw [run_eq_of_done hstep] at hwalk
      rw [run_eq_of_done (hsame.trans hstep)]
      exact hwalk
    | some next =>
      rw [run_eq_of_next (hsame.trans hstep)]
      exact ih next hstep (hwithin.of_step hstep)

/-- **Sources that agree are walked alike**, walks that do not end included. -/
theorem explore_eq_of_agreeFrom (hagree : first.AgreeFrom roots second) :
    second.explore roots = first.explore roots := by
  have hroots : (roots.find? fun root => !second.resolves root) =
      roots.find? fun root => !first.resolves root := by
    refine List.find?_congr fun root hroot => ?_
    rw [hagree.resolves root hroot]
  have hrun : second.run ⟨{}, roots⟩ = first.run ⟨{}, roots⟩ := by
    refine Part.ext fun outcome => ?_
    constructor
    · exact run_of_agreeFrom hagree.symm (.start second roots)
    · exact run_of_agreeFrom hagree (.start first roots)
  rw [explore, explore, hroots, hrun]

/-! ### Walks that end -/

/-- A walk that stays within a finite set ends. -/
theorem exists_run (hfinite : {name | Reachable source.targetsOf roots name}.Finite)
    (hwithin : walk.Within source roots) : ∃ outcome, source.run walk = Part.some outcome := by
  induction walk using (Walk.wellFounded_work hfinite.toFinset.toList).induction with
  | _ walk ih =>
    cases hstep : source.step walk with
    | error fault => exact ⟨.error fault, run_eq_of_fail hstep⟩
    | ok taken =>
      cases taken with
      | none => exact ⟨.ok walk.found, run_eq_of_done hstep⟩
      | some next =>
        have hnames : ∀ name ∈ walk.queue,
            name ∈ hfinite.toFinset.toList ∨ source.edges name = .ok [] := by
          intro name hname
          exact .inl (Finset.mem_toList.2 (hfinite.mem_toFinset.2 (hwithin name hname)))
        rw [run_eq_of_next hstep]
        exact ih next (source.work_step hnames hstep) (hwithin.of_step hstep)

theorem exists_explore (hfinite : {name | Reachable source.targetsOf roots name}.Finite) :
    ∃ outcome, source.explore roots = Part.some outcome := by
  rw [explore]
  cases roots.find? fun root => !source.resolves root with
  | some root => exact ⟨.error (.unknownRoot root), rfl⟩
  | none => exact exists_run hfinite (.start source roots)

end LinkSource

/-! ### Links and graphs -/

namespace Links

variable {links first second : Links}

/-- What links refer to as a source are some of their references. -/
theorem mem_targetsOf_of_source {target : String} (h : target ∈ links.source.targetsOf name) :
    target ∈ links.targetsOf name := by
  unfold LinkSource.targetsOf at h
  split at h
  · next targets hedges =>
    obtain ⟨rfl, -⟩ := edges_eq_ok_iff.1 hedges
    exact h
  · cases h

/-- What is reachable through links as a source is reachable through their references. -/
theorem reachable_of_source (h : Reachable links.source.targetsOf roots name) :
    Reachable links.targetsOf roots name := by
  refine Reachable.of_closed (fun root hroot => .root hroot) ?_ h
  intro source hsource target htarget
  exact hsource.next (mem_targetsOf_of_source htarget)

/-- **Links agree if the same stands under the reachable names**, those without references of their
own included. -/
theorem agreeFrom_of_get? (hsame : ∀ name, Reachable first.targetsOf roots name →
    second.targets.get? name = first.targets.get? name) :
    first.source.AgreeFrom roots second.source := by
  have hresolves : ∀ name, Reachable first.targetsOf roots name →
      second.resolves name = first.resolves name := by
    intro name hname
    rw [resolves, resolves, Catalog.contains, Catalog.contains, hsame name hname]
  refine ⟨fun root hroot => hresolves root (.root hroot), ?_⟩
  intro name hname
  have hreachable : Reachable first.targetsOf roots name := reachable_of_source hname
  have htargets : second.targetsOf name = first.targetsOf name := by
    rw [targetsOf, targetsOf, hsame name hreachable]
  -- the references are reachable themselves, so they resolve alike
  have hdangling : ((first.targetsOf name).find? fun target => !second.resolves target) =
      (first.targetsOf name).find? fun target => !first.resolves target := by
    refine List.find?_congr fun target htarget => ?_
    rw [hresolves target (hreachable.next htarget)]
  change second.edges name = first.edges name
  rw [edges, edges, htargets, hdangling]

theorem explore_eq_of_get? (hsame : ∀ name, Reachable first.targetsOf roots name →
    second.targets.get? name = first.targets.get? name) :
    second.explore roots = first.explore roots := by
  have hsource := LinkSource.explore_eq_of_agreeFrom (agreeFrom_of_get? hsame)
  rw [explore_source, explore_source] at hsource
  exact Part.some_inj.1 hsource

end Links

namespace TypeGraph

/-- Graphs are walked alike if the reachable types refer to the same. -/
theorem explore_eq_of_node? {graph other : TypeGraph}
    (hsame : ∀ name, Reachable graph.referencesOf roots name →
      (other.node? name).map TypeNode.references = (graph.node? name).map TypeNode.references) :
    other.explore roots = graph.explore roots := by
  refine Links.explore_eq_of_get? fun name hname => ?_
  rw [targetsOf_links] at hname
  rw [links, links, Catalog.get?_map, Catalog.get?_map]
  exact hsame name hname

end TypeGraph

/-! ### What a discovery depends on -/

/-- **Discovery depends on what is reachable, and on nothing else.** Two sources that answer alike
for the roots and for whatever the roots lead to through the first one are walked alike: both answer
with the same types in the same order, or with the same failure, and both do answer if only finitely
many names are reachable. Discovery through links and through the graph of any types is a case of
this. There it is enough that the same stands under every reachable name, and so types that no root
leads to may be added, taken away or broken. -/
theorem discover_depends_on_reachable :
    (∀ (first second : LinkSource) (roots : List String), first.AgreeFrom roots second →
      second.explore roots = first.explore roots ∧
        ({name | Reachable first.targetsOf roots name}.Finite →
          ∃ outcome, first.explore roots = Part.some outcome ∧
            second.explore roots = Part.some outcome)) ∧
    (∀ (links : Links) (roots : List String),
      links.source.explore roots = Part.some (links.explore roots)) ∧
    (∀ (first second : Links) (roots : List String),
      (∀ name, Reachable first.targetsOf roots name →
        second.targets.get? name = first.targets.get? name) →
      second.explore roots = first.explore roots) ∧
    ∀ (graph other : TypeGraph) (roots : List String),
      (∀ name, Reachable graph.referencesOf roots name →
        (other.node? name).map TypeNode.references = (graph.node? name).map TypeNode.references) →
      other.explore roots = graph.explore roots := by
  refine ⟨?_, Links.explore_source, ?_, ?_⟩
  · intro first second roots hagree
    have hsame : second.explore roots = first.explore roots :=
      LinkSource.explore_eq_of_agreeFrom hagree
    refine ⟨hsame, fun hfinite => ?_⟩
    obtain ⟨outcome, houtcome⟩ := LinkSource.exists_explore hfinite
    exact ⟨outcome, houtcome, hsame.trans houtcome⟩
  · intro first second roots hsame
    exact Links.explore_eq_of_get? hsame
  · intro graph other roots hsame
    exact TypeGraph.explore_eq_of_node? hsame

/-- A ring of two names, and a name that leads into it. -/
def ringLinks : Links := ⟨.ofList [("A", ["B"]), ("B", ["A", "B"]), ("C", ["A"])]⟩

/-- The same ring, with a reference that dangles behind the third name and with one more name. -/
def brokenLinks : Links :=
  ⟨.ofList [("A", ["B"]), ("B", ["A", "B"]), ("C", ["A", "Ghost"]), ("D", ["C"])]⟩

/-- The same ring in a source that resolves every name and fails on all others. -/
def openSource : LinkSource where
  resolves _ := true
  edges name :=
    match name with
    | "A" => .ok ["B"]
    | "B" => .ok ["A", "B"]
    | _ => .error (.unknownRoot name)

/-- A post and its author, with or without a draft that refers to nothing. -/
def postGraph (draft : List (String × TypeNode)) : TypeGraph :=
  ⟨.ofList ([("Post", ⟨"Post", .object, ["User"]⟩), ("User", ⟨"User", .object, ["Post"]⟩)] ++
    draft)⟩

/-- Nothing leads from the ring to the names that differ, nor from the post to the draft. -/
theorem discover_depends_on_reachable_ring :
    ringLinks.source.AgreeFrom ["B"] openSource ∧
      (∃ found, openSource.explore ["B"] = Part.some (.ok found) ∧ found.types = ["B", "A"]) ∧
      brokenLinks.discover ["B"] = .ok ["B", "A"] ∧
      brokenLinks.discover ["D"] = .error (.danglingReference "C" "Ghost") ∧
      (postGraph [("Draft", ⟨"Draft", .object, ["Ghost"]⟩)]).discover ["User"] =
        .ok ["User", "Post"] := by
  obtain ⟨hsources, hlinks, hcatalogs, hgraphs⟩ := discover_depends_on_reachable
  have hring : ringLinks.discover ["B"] = .ok ["B", "A"] := by
    cbv
  obtain ⟨found, hfound, htypes⟩ := map_eq_ok.1 hring
  -- what the ring leads to are its two names
  have hwithin : ∀ name, Reachable ringLinks.targetsOf ["B"] name → name ∈ ["A", "B"] := by
    intro name hname
    refine @Reachable.of_closed _ _ _ (· ∈ ["A", "B"]) (by decide) ?_ hname
    have hclosed : ∀ source ∈ ["A", "B"], ∀ target ∈ ringLinks.targetsOf source,
        target ∈ ["A", "B"] := by decide
    exact hclosed
  have hagree : ringLinks.source.AgreeFrom ["B"] openSource := by
    refine ⟨by decide, fun name hname => ?_⟩
    have hname : name ∈ ["A", "B"] := hwithin name (Links.reachable_of_source hname)
    fin_cases hname <;> rfl
  have hfinite : {name | Reachable ringLinks.source.targetsOf ["B"] name}.Finite := by
    refine Set.Finite.subset (List.finite_toSet ["A", "B"]) ?_
    intro name hname
    exact hwithin name (Links.reachable_of_source hname)
  obtain ⟨outcome, hringEnds, hopenEnds⟩ := (hsources _ _ _ hagree).2 hfinite
  have houtcome : outcome = .ok found := by
    rw [hlinks, hfound] at hringEnds
    exact (Part.some_inj.1 hringEnds).symm
  have hbroken : brokenLinks.explore ["B"] = ringLinks.explore ["B"] := by
    refine hcatalogs _ _ _ fun name hname => ?_
    have hname : name ∈ ["A", "B"] := hwithin name hname
    fin_cases hname <;> rfl
  have hdraft : (postGraph [("Draft", ⟨"Draft", .object, ["Ghost"]⟩)]).explore ["User"] =
      (postGraph []).explore ["User"] := by
    refine hgraphs _ _ _ fun name hname => ?_
    have hname : name ∈ ["Post", "User"] := by
      refine @Reachable.of_closed _ _ _ (· ∈ ["Post", "User"]) (by decide) ?_ hname
      have hclosed : ∀ source ∈ ["Post", "User"],
          ∀ target ∈ (postGraph []).referencesOf source, target ∈ ["Post", "User"] := by decide
      exact hclosed
    fin_cases hname <;> rfl
  refine ⟨hagree, ⟨found, ?_, htypes⟩, ?_, ?_, ?_⟩
  · rw [hopenEnds, houtcome]
  · rw [Links.discover, hbroken]
    exact hring
  · cbv
  · have hpost : (postGraph []).discover ["User"] = .ok ["User", "Post"] := by
      cbv
    have hsame := congrArg (Except.map Discovery.types) hdraft
    exact hsame.trans hpost

end Criteria
