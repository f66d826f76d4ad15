import Criteria.Proofs.Catalog
import Criteria.Proofs.Outcome
import Criteria.TypeGraph.Discovery
import Mathlib.Logic.Relation

/-!
# Discovery finds the reachable closure

What can be reached from roots is said here without a walk: a name is reachable if a chain of
references leads to it from a root (`Reachable`). A discovery has to find exactly these names, each
once, or to report the first reference that leads nowhere (`IsClosure`).

The queue may hold a name many times, and names are marked when they are taken off it and not when
they join it. So neither the queue nor the set of visited names alone says what is known to be
reachable; the two together do (`Walk.Covers`). The invariant of the walk, `Walk.Sound`, says that
what is covered is reachable, that the roots are covered, and that the references of every visited
name resolve and are covered. Each step keeps it (`Sound.of_stepsTo`), and once the queue is empty
nothing but the visited names is covered, so they are closed under references.

* `Sound.of_run` — the invariant at the end of a walk;
* `exists_dangling_of_run` — why a walk fails;
* `explore_isClosure` — the walk ends, and has found the closure.
-/

namespace Criteria

variable {known : String → Bool} {refers : String → List String} {roots names : List String}
  {name target : String}

/-! ### Reachable names -/

/-- A chain of references leads from a root to the name. -/
def Reachable (refers : String → List String) (roots : List String) (name : String) : Prop :=
  ∃ root ∈ roots, Relation.ReflTransGen (fun source target => target ∈ refers source) root name

namespace Reachable

theorem root (h : name ∈ roots) : Reachable refers roots name := ⟨name, h, .refl⟩

theorem next (h : Reachable refers roots name) (htarget : target ∈ refers name) :
    Reachable refers roots target := by
  obtain ⟨root, hroot, hchain⟩ := h
  exact ⟨root, hroot, hchain.tail htarget⟩

/-- What holds of the roots and goes from names to their references holds of all that is
reachable. -/
theorem of_closed {holds : String → Prop} (hroots : ∀ root ∈ roots, holds root)
    (hclosed : ∀ source, holds source → ∀ target ∈ refers source, holds target)
    (h : Reachable refers roots name) : holds name := by
  obtain ⟨root, hroot, hchain⟩ := h
  induction hchain with
  | refl => exact hroots root hroot
  | tail _ htarget ih => exact hclosed _ ih _ htarget

end Reachable

/-- The first of some names that is not known. -/
def IsFirstUnknown (known : String → Bool) (names : List String) (name : String) : Prop :=
  ∃ before after, names = before ++ name :: after ∧ (∀ other ∈ before, known other = true) ∧
    known name = false

theorem find?_eq_some_iff_isFirstUnknown :
    (names.find? fun other => !known other) = some name ↔ IsFirstUnknown known names name := by
  rw [List.find?_eq_some_iff_append]
  constructor
  · rintro ⟨hname, before, after, rfl, hbefore⟩
    exact ⟨before, after, rfl, by simpa using hbefore, by simpa using hname⟩
  · rintro ⟨before, after, rfl, hbefore, hname⟩
    exact ⟨by simpa using hname, before, after, rfl, by simpa using hbefore⟩

theorem IsFirstUnknown.mem (h : IsFirstUnknown known names name) : name ∈ names := by
  obtain ⟨before, after, rfl, -⟩ := h
  simp

theorem IsFirstUnknown.unknown (h : IsFirstUnknown known names name) : known name = false := by
  obtain ⟨-, -, -, -, hname⟩ := h
  exact hname

/-- What a discovery from roots has to answer, where some names are known and names refer to
others. -/
structure IsClosure (known : String → Bool) (refers : String → List String) (roots : List String)
    (outcome : Except DiscoveryError Discovery) : Prop where
  /-- A root that is not known is the failure, and of several the first one. -/
  unknownRoot : ∀ root,
    outcome = .error (.unknownRoot root) ↔ IsFirstUnknown known roots root
  /-- If the roots are known, a dangling reference is the failure exactly if a reachable name has
  one. -/
  dangling : (∀ root ∈ roots, known root = true) →
    ((∃ source target, outcome = .error (.danglingReference source target)) ↔
      ∃ source, Reachable refers roots source ∧ ∃ target ∈ refers source, known target = false)
  /-- The reference that is reported is one of a reachable name, and the first of them that
  dangles. -/
  first : ∀ source target, outcome = .error (.danglingReference source target) →
    Reachable refers roots source ∧ IsFirstUnknown known (refers source) target
  /-- Otherwise exactly the reachable names are found, each of them once. -/
  found : (∀ root ∈ roots, known root = true) →
    (∀ source, Reachable refers roots source → ∀ target ∈ refers source, known target = true) →
      ∃ found, outcome = .ok found ∧ found.types.Nodup ∧
        (∀ name, name ∈ found.types ↔ Reachable refers roots name) ∧
        ∀ name, found.contains name = true ↔ name ∈ found.types

/-! ### The invariant of a walk -/

namespace Walk

variable {links : Links} {walk next : Walk}

/-- A name was visited, or is still to be looked at. -/
def Covers (walk : Walk) (name : String) : Prop := name ∈ walk.found.types ∨ name ∈ walk.queue

/-- The invariant of a walk from roots. -/
structure Sound (links : Links) (roots : List String) (walk : Walk) : Prop where
  /-- No name is found twice. -/
  nodup : walk.found.types.Nodup
  /-- The set of visited names holds what was found. -/
  contains_iff : ∀ name, walk.found.contains name = true ↔ name ∈ walk.found.types
  /-- Only reachable names are covered. -/
  reachable : ∀ name, walk.Covers name → Reachable links.targetsOf roots name
  /-- The roots are covered. -/
  covers_root : ∀ root ∈ roots, walk.Covers root
  /-- References of visited names resolve. -/
  resolves : ∀ source ∈ walk.found.types, ∀ target ∈ links.targetsOf source,
    links.resolves target = true
  /-- References of visited names are covered. -/
  covers_target : ∀ source ∈ walk.found.types, ∀ target ∈ links.targetsOf source,
    walk.Covers target

/-- A walk starts with the roots in its queue. -/
theorem Sound.start (links : Links) (roots : List String) : Sound links roots ⟨{}, roots⟩ where
  nodup := .nil
  contains_iff name := by simp [Discovery.contains, Catalog.contains]
  reachable name h := by
    rcases h with h | h
    · cases h
    · exact .root h
  covers_root root h := .inr h
  resolves source h := by cases h
  covers_target source h := by cases h

/-- Visiting a name adds it to the set of visited names as it adds it to the list. -/
theorem contains_visit_iff {found : Discovery} {current : String}
    (h : ∀ name, found.contains name = true ↔ name ∈ found.types) (name : String) :
    (found.visit current).contains name = true ↔ name ∈ (found.visit current).types := by
  rw [Discovery.contains_visit, Bool.or_eq_true, decide_eq_true_eq, h, Discovery.types_visit,
    List.mem_append, List.mem_singleton, or_comm]

/-- Names that are not visited join the queue, so that all of them are covered. -/
theorem covers_of_joined {found : Discovery} {queue targets : List String}
    (h : ∀ name, found.contains name = true ↔ name ∈ found.types) (htarget : target ∈ targets) :
    Covers ⟨found, queue ++ targets.filter fun other => !found.contains other⟩ target := by
  by_cases hvisited : found.contains target = true
  · exact .inl ((h target).1 hvisited)
  · refine .inr (List.mem_append_right _ (List.mem_filter.2 ⟨htarget, ?_⟩))
    simpa using hvisited

/-- A name that leaves the queue was visited before, or is visited now. -/
theorem covers_of_stepsTo (hsound : Sound links roots walk)
    (hstep : links.source.StepsTo walk (.ok (some next))) (h : walk.Covers name) :
    next.Covers name := by
  cases hstep with
  | skip seen =>
    rcases h with h | h
    · exact .inl h
    · rcases List.mem_cons.1 h with rfl | h
      · exact .inl ((hsound.contains_iff _).1 seen)
      · exact .inr h
  | visit fresh answered =>
    rcases h with h | h
    · exact .inl (List.mem_append_left _ h)
    · rcases List.mem_cons.1 h with rfl | h
      · exact .inl (List.mem_append_right _ List.mem_cons_self)
      · exact .inr (List.mem_append_left _ h)

/-- **Every step keeps the invariant.** -/
theorem Sound.of_stepsTo (hsound : Sound links roots walk)
    (hstep : links.source.StepsTo walk (.ok (some next))) : Sound links roots next := by
  have hcovers : ∀ {name}, walk.Covers name → next.Covers name := covers_of_stepsTo hsound hstep
  cases hstep with
  | skip seen =>
    refine ⟨hsound.nodup, hsound.contains_iff, fun name h => hsound.reachable name ?_,
      fun root h => hcovers (hsound.covers_root root h), hsound.resolves,
      fun source hsource target h => hcovers (hsound.covers_target source hsource target h)⟩
    exact h.imp_right (List.mem_cons_of_mem _)
  | @visit found current queue targets fresh answered =>
    obtain ⟨rfl, hresolve⟩ := Links.edges_eq_ok_iff.1 answered
    have hcurrent : Reachable links.targetsOf roots current :=
      hsound.reachable current (.inr List.mem_cons_self)
    have hnew : current ∉ found.types := fun h => by
      rw [← hsound.contains_iff, fresh] at h
      cases h
    have hcontains : ∀ name, (found.visit current).contains name = true ↔
        name ∈ (found.visit current).types := contains_visit_iff hsound.contains_iff
    -- for each part, what is known of the names visited before and what of the new one
    constructor
    · rw [Discovery.types_visit, List.nodup_append]
      refine ⟨hsound.nodup, by simp, fun a ha b hb hab => hnew ?_⟩
      rwa [← List.mem_singleton.1 hb, ← hab]
    · exact hcontains
    · rintro name (h | h)
      · rcases List.mem_append.1 h with h | h
        · exact hsound.reachable name (.inl h)
        · exact List.mem_singleton.1 h ▸ hcurrent
      · rcases List.mem_append.1 h with h | h
        · exact hsound.reachable name (.inr (List.mem_cons_of_mem _ h))
        · exact hcurrent.next (List.mem_filter.1 h).1
    · exact fun root h => hcovers (hsound.covers_root root h)
    · intro source hsource
      rcases List.mem_append.1 hsource with hsource | hsource
      · exact hsound.resolves source hsource
      · exact List.mem_singleton.1 hsource ▸ hresolve
    · intro source hsource target h
      rcases List.mem_append.1 hsource with hsource | hsource
      · exact hcovers (hsound.covers_target source hsource target h)
      · obtain rfl := List.mem_singleton.1 hsource
        exact covers_of_joined hcontains h

/-! ### The end of a walk -/

/-- A walk keeps the invariant until its queue is empty. -/
theorem Sound.of_run {found : Discovery} (hsound : Sound links roots walk)
    (h : links.run walk = .ok found) : Sound links roots ⟨found, []⟩ := by
  fun_induction Links.run links walk with
  | case1 walk fault taken => cases h
  | case2 walk taken =>
    obtain rfl := Except.ok.inj h
    have hstep := taken ▸ links.stepsTo_step walk
    cases hstep
    exact hsound
  | case3 walk next taken ih => exact ih (hsound.of_stepsTo (taken ▸ links.stepsTo_step walk)) h

/-- A walk fails for a dangling reference of a name that can be reached. -/
theorem exists_dangling_of_run {fault : DiscoveryError} (hsound : Sound links roots walk)
    (h : links.run walk = .error fault) :
    ∃ source target, fault = .danglingReference source target ∧
      Reachable links.targetsOf roots source ∧
        IsFirstUnknown links.resolves (links.targetsOf source) target := by
  fun_induction Links.run links walk with
  | case1 walk reported taken =>
    obtain rfl := Except.error.inj h
    have hstep := taken ▸ links.stepsTo_step walk
    cases hstep with
    | @fail found current queue fault fresh failed =>
      obtain ⟨target, rfl, hfirst⟩ := Links.exists_of_edges_eq_error failed
      exact ⟨current, target, rfl, hsound.reachable current (.inr List.mem_cons_self),
        find?_eq_some_iff_isFirstUnknown.1 hfirst⟩
  | case2 walk taken => cases h
  | case3 walk next taken ih => exact ih (hsound.of_stepsTo (taken ▸ links.stepsTo_step walk)) h

/-- At the end the visited names are all that can be reached. -/
theorem Sound.mem_types_iff {found : Discovery} (hsound : Sound links roots ⟨found, []⟩) :
    name ∈ found.types ↔ Reachable links.targetsOf roots name := by
  -- nothing is left in the queue, so what is covered has been visited
  have hvisited : ∀ {name}, Covers ⟨found, []⟩ name → name ∈ found.types := fun h =>
    h.resolve_right List.not_mem_nil
  constructor
  · exact fun h => hsound.reachable name (.inl h)
  · exact Reachable.of_closed (fun root h => hvisited (hsound.covers_root root h))
      fun source hsource target h => hvisited (hsound.covers_target source hsource target h)

end Walk

/-! ### The whole discovery -/

namespace Links

variable {links : Links}

/-- What a discovery from known roots answers is what the walk answers. -/
theorem explore_of_known (h : ∀ root ∈ roots, links.resolves root = true) :
    links.explore roots = links.run ⟨{}, roots⟩ := by
  have hnone : (roots.find? fun root => !links.resolves root) = none :=
    List.find?_eq_none.2 fun root hroot => by simp [h root hroot]
  rw [explore, hnone]

/-- A discovery fails for a root exactly if it is the first that does not resolve. -/
theorem explore_eq_unknownRoot_iff {root : String} :
    links.explore roots = .error (.unknownRoot root) ↔
      IsFirstUnknown links.resolves roots root := by
  rw [← find?_eq_some_iff_isFirstUnknown]
  unfold explore
  split
  · next other hother => rw [hother]; simp
  · next hnone =>
    rw [hnone]
    refine iff_of_false (fun h => ?_) (by simp)
    -- the walk itself only reports references
    obtain ⟨source, target, hfault, -⟩ := Walk.exists_dangling_of_run (.start links roots) h
    cases hfault

/-- What a discovery answers with are the reachable names, each of them once. -/
theorem mem_of_discover {types : List String} (h : links.discover roots = .ok types) :
    types.Nodup ∧ ∀ name, name ∈ types ↔ Reachable links.targetsOf roots name := by
  obtain ⟨found, hfound, rfl⟩ := map_eq_ok.1 h
  unfold explore at hfound
  split at hfound
  · cases hfound
  · have hsound := (Walk.Sound.start links roots).of_run hfound
    exact ⟨hsound.nodup, fun name => hsound.mem_types_iff⟩

theorem explore_links (links : Links) (roots : List String) :
    IsClosure links.resolves links.targetsOf roots (links.explore roots) := by
  have hstart := Walk.Sound.start links roots
  have hreported : ∀ {source target},
      links.explore roots = .error (.danglingReference source target) →
        Reachable links.targetsOf roots source ∧
          IsFirstUnknown links.resolves (links.targetsOf source) target := by
    intro source target h
    unfold explore at h
    split at h
    · cases h
    · obtain ⟨_, _, hfault, hreachable, hfirst⟩ := Walk.exists_dangling_of_run hstart h
      cases hfault
      exact ⟨hreachable, hfirst⟩
  refine ⟨fun root => explore_eq_unknownRoot_iff, fun hroots => ⟨?_, ?_⟩,
    fun source target h => hreported h, fun hroots hresolve => ?_⟩
  · rintro ⟨source, target, h⟩
    obtain ⟨hreachable, hfirst⟩ := hreported h
    exact ⟨source, hreachable, target, hfirst.mem, hfirst.unknown⟩
  · rintro ⟨source, hreachable, target, htarget, hunknown⟩
    rw [explore_of_known hroots]
    cases hrun : links.run ⟨{}, roots⟩ with
    | error fault =>
      obtain ⟨source, target, rfl, -⟩ := Walk.exists_dangling_of_run hstart hrun
      exact ⟨source, target, rfl⟩
    | ok found =>
      -- a walk that succeeds has checked the references of all that can be reached
      have hsound := hstart.of_run hrun
      have hknown := hsound.resolves source (hsound.mem_types_iff.2 hreachable) target htarget
      rw [hunknown] at hknown
      cases hknown
  · rw [explore_of_known hroots]
    cases hrun : links.run ⟨{}, roots⟩ with
    | error fault =>
      obtain ⟨source, target, -, hreachable, hfirst⟩ := Walk.exists_dangling_of_run hstart hrun
      have hknown := hresolve source hreachable target hfirst.mem
      rw [hfirst.unknown] at hknown
      cases hknown
    | ok found =>
      have hsound := hstart.of_run hrun
      exact ⟨found, rfl, hsound.nodup, fun name => hsound.mem_types_iff, hsound.contains_iff⟩

end Links

namespace TypeGraph

/-- The types that a type refers to, none if it is not in the graph. -/
def referencesOf (graph : TypeGraph) (name : String) : List String :=
  ((graph.node? name).map TypeNode.references).getD []

theorem mem_referencesOf {graph : TypeGraph} :
    target ∈ graph.referencesOf name ↔
      ∃ node, graph.node? name = some node ∧ target ∈ node.references := by
  rw [referencesOf]
  cases graph.node? name with
  | none => simp
  | some node => simp

theorem targetsOf_links (graph : TypeGraph) : graph.links.targetsOf = graph.referencesOf := by
  funext name
  rw [Links.targetsOf, links, Catalog.get?_map, referencesOf, node?]

theorem resolves_links (graph : TypeGraph) :
    graph.links.resolves = fun name => (graph.node? name).isSome := by
  funext name
  rw [Links.resolves, links, Catalog.contains, Catalog.get?_map, node?, Option.isSome_map]

/-- The same for the types of a graph. -/
theorem mem_of_discover {graph : TypeGraph} {types : List String}
    (h : graph.discover roots = .ok types) :
    types.Nodup ∧ ∀ name, name ∈ types ↔ Reachable graph.referencesOf roots name := by
  rw [← graph.targetsOf_links]
  exact Links.mem_of_discover h

/-- Discovery answers where the roots are types and no type refers to something else. -/
theorem exists_discover {graph : TypeGraph} (hroots : ∀ root ∈ roots, (graph.node? root).isSome = true)
    (hnodes : ∀ name node, graph.node? name = some node →
      ∀ target ∈ node.references, (graph.node? target).isSome = true) :
    ∃ types, graph.discover roots = .ok types := by
  have hclosure := graph.links.explore_links roots
  rw [graph.resolves_links, graph.targetsOf_links] at hclosure
  obtain ⟨found, hfound, -⟩ := hclosure.found hroots fun source _ target htarget => by
    obtain ⟨node, hnode, htarget⟩ := mem_referencesOf.1 htarget
    exact hnodes source node hnode target htarget
  exact ⟨found.types, map_eq_ok.2 ⟨found, hfound, rfl⟩⟩

end TypeGraph

/-- **Discovery ends, and finds the reachable closure**, through any links and through the graph of
any types: cycles, repeated roots and repeated references included. No walk goes on for ever, and
what it answers is the failure for the first unknown root, or that for a dangling reference of a
reachable name, or exactly the reachable names. -/
theorem explore_isClosure :
    (∀ links : Links,
      (WellFounded fun next walk => links.step walk = .ok (some next)) ∧
        ∀ roots, IsClosure links.resolves links.targetsOf roots (links.explore roots)) ∧
    ∀ (graph : TypeGraph) (roots : List String),
      IsClosure (fun name => (graph.node? name).isSome) graph.referencesOf roots
        (graph.explore roots) := by
  refine ⟨fun links => ⟨?_, links.explore_links⟩, fun graph roots => ?_⟩
  · exact Subrelation.wf (fun h => Links.work_step h) (Walk.wellFounded_work links.targets.names)
  · rw [← graph.resolves_links, ← graph.targetsOf_links]
    exact graph.links.explore_links roots

/-- A cycle with a repeated reference; the type that refers to nowhere is not reached. -/
example :
    let links : Links :=
      ⟨.ofList [("A", ["B", "B", "A"]), ("B", ["A", "C"]), ("C", []), ("D", ["E"])]⟩
    links.discover ["B", "A", "B"] = .ok ["B", "A", "C"] := by
  cbv

end Criteria
