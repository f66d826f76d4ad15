import Criteria.TypeGraph.Basic

/-!
# Discovery

Discovery finds the types that can be reached from given roots, breadth first: the roots come in
their order, then what they refer to, and so on, each type once. It works on any finite set of
links, of which a type graph is one source.

All roots must resolve. A type that is reached must refer only to types that resolve; the first
reference that does not is the failure. Types that are never reached do not matter.

A walk takes one name after the other off a queue, which may hold a name many times. All it asks for
is whether a name resolves and what a name refers to, so what it does with one name is said for any
`LinkSource`. A step either visits a name that was not visited before, or shortens the queue. Where
only finitely many names refer to others, as with links, the walk ends.

* `LinkSource.step` — what a walk does with the first name of its queue;
* `LinkSource.StepsTo` — what a step can come to, one rule for each case;
* `LinkSource.work_step` — a step leaves less to do;
* `Links.source`, `Links.step` — links as a source, and a step through them;
* `Links.run` — the walk until its queue is empty;
* `Links.explore`, `Links.discover` — the walk from roots, and the names it finds.
-/

namespace Criteria

/-- Names and the names each refers to. -/
structure Links where
  /-- The references of each name. -/
  targets : Catalog (List String)

/-- The references of the types of a graph. -/
def TypeGraph.links (graph : TypeGraph) : Links := ⟨graph.types.map TypeNode.references⟩

/-- What a walk has found. -/
structure Discovery where
  /-- The names in the order in which the walk was done with them. -/
  types : List String := []
  /-- The set of the names that were visited. -/
  visited : Catalog Unit := .empty

namespace Discovery

/-- Whether a name was visited. -/
def contains (found : Discovery) (name : String) : Bool := found.visited.contains name

/-- What is found after one more name was visited. -/
def visit (found : Discovery) (name : String) : Discovery :=
  ⟨found.types ++ [name], found.visited.insert name ()⟩

@[simp] theorem types_visit (found : Discovery) (name : String) :
    (found.visit name).types = found.types ++ [name] := rfl

@[simp] theorem contains_visit (found : Discovery) (name other : String) :
    (found.visit name).contains other = (decide (other = name) || found.contains other) :=
  Catalog.contains_insert found.visited name () other

/-- The names of a list that were not visited yet. -/
def unvisited (found : Discovery) (names : List String) : List String :=
  names.filter fun name => !found.contains name

/-- Visiting a name takes it out of what is unvisited. -/
theorem unvisited_visit (found : Discovery) (name : String) (names : List String) :
    (found.visit name).unvisited names = (found.unvisited names).filter (· ≠ name) := by
  simp only [unvisited, List.filter_filter]
  refine List.filter_congr fun n _ => ?_
  rw [contains_visit]
  by_cases h : n = name <;> simp [h]

/-- Visiting never adds to what is unvisited. -/
theorem length_unvisited_visit_le (found : Discovery) (name : String) (names : List String) :
    ((found.visit name).unvisited names).length ≤ (found.unvisited names).length := by
  rw [unvisited_visit]
  exact List.length_filter_le _ _

/-- Visiting a new name leaves fewer unvisited. -/
theorem length_unvisited_visit_lt {found : Discovery} {name : String} {names : List String}
    (known : name ∈ names) (fresh : found.contains name = false) :
    ((found.visit name).unvisited names).length < (found.unvisited names).length := by
  rw [unvisited_visit, List.length_filter_lt_length_iff_exists]
  exact ⟨name, List.mem_filter.2 ⟨known, by simpa using fresh⟩, by simp⟩

end Discovery

/-- A walk on its way. -/
structure Walk where
  /-- What it has found so far. -/
  found : Discovery
  /-- The names it has to look at, the next one first. -/
  queue : List String

/-- How much a walk has to do at most, if no other names than these lead on: names to visit, and
names to look at. -/
def Walk.work (names : List String) (walk : Walk) : Nat × Nat :=
  ((walk.found.unvisited names).length, walk.queue.length)

/-- What leaves less to do cannot go on for ever. -/
theorem Walk.wellFounded_work (names : List String) :
    WellFounded fun next walk : Walk =>
      Prod.Lex (· < ·) (· < ·) (next.work names) (walk.work names) :=
  InvImage.wf (work names) (Prod.lex Nat.lt_wfRel Nat.lt_wfRel).wf

/-! ### One step -/

/-- What a walk asks for. -/
structure LinkSource where
  /-- Whether a name resolves. -/
  resolves : String → Bool
  /-- The names that a name refers to, or why it has none. -/
  edges : String → Except DiscoveryError (List String)

namespace LinkSource

/-- Looks at the first name of the queue, `none` if there is none. A name that was visited is
skipped; another one is visited, and of the names it refers to those not visited join the queue. -/
def step (source : LinkSource) (walk : Walk) : Except DiscoveryError (Option Walk) :=
  match walk.queue with
  | [] => .ok none
  | current :: queue =>
    if walk.found.contains current then .ok (some ⟨walk.found, queue⟩)
    else do
      let targets ← source.edges current
      let found := walk.found.visit current
      return some ⟨found, queue ++ targets.filter fun target => !found.contains target⟩

/-- What a step comes to, by the first name of the queue: there is none, it is skipped, it is
visited, or the source fails on it. -/
inductive StepsTo (source : LinkSource) : Walk → Except DiscoveryError (Option Walk) → Prop
  | done {found : Discovery} : StepsTo source ⟨found, []⟩ (.ok none)
  | skip {found : Discovery} {current : String} {queue : List String}
      (seen : found.contains current = true) :
    StepsTo source ⟨found, current :: queue⟩ (.ok (some ⟨found, queue⟩))
  | visit {found : Discovery} {current : String} {queue targets : List String}
      (fresh : found.contains current = false) (answered : source.edges current = .ok targets) :
    StepsTo source ⟨found, current :: queue⟩
      (.ok (some ⟨found.visit current, queue ++ targets.filter fun target =>
        !(found.visit current).contains target⟩))
  | fail {found : Discovery} {current : String} {queue : List String} {fault : DiscoveryError}
      (fresh : found.contains current = false) (failed : source.edges current = .error fault) :
    StepsTo source ⟨found, current :: queue⟩ (.error fault)

/-- **The four cases are all that a step can come to.** -/
theorem stepsTo_step (source : LinkSource) (walk : Walk) :
    source.StepsTo walk (source.step walk) := by
  obtain ⟨found, queue⟩ := walk
  cases queue with
  | nil => exact .done
  | cons current queue =>
    unfold step
    dsimp only
    by_cases hseen : found.contains current = true
    · rw [if_pos hseen]
      exact .skip hseen
    · have hfresh : found.contains current = false := Bool.eq_false_iff.2 hseen
      rw [if_neg hseen]
      cases hedges : source.edges current with
      | error fault => exact .fail hfresh hedges
      | ok targets => exact .visit hfresh hedges

/-- **A step leaves less to do**, if what is queued is among the names or leads nowhere: fewer names
to visit, or as many and a shorter queue. -/
theorem work_step (source : LinkSource) {walk next : Walk} {names : List String}
    (hnames : ∀ name ∈ walk.queue, name ∈ names ∨ source.edges name = .ok [])
    (h : source.step walk = .ok (some next)) :
    Prod.Lex (· < ·) (· < ·) (next.work names) (walk.work names) := by
  have hstep := h ▸ source.stepsTo_step walk
  cases hstep with
  | skip seen => exact .right _ (Nat.lt_succ_self _)
  | @visit found current queue targets fresh answered =>
    rcases hnames current List.mem_cons_self with hmem | hnone
    · exact .left _ _ (Discovery.length_unvisited_visit_lt hmem fresh)
    · -- a name that leads nowhere adds nothing to the queue
      obtain rfl : [] = targets := Except.ok.inj (hnone.symm.trans answered)
      rw [List.filter_nil, List.append_nil]
      rcases Nat.lt_or_eq_of_le (found.length_unvisited_visit_le current names) with hlt | heq
      · exact .left _ _ hlt
      · rw [Walk.work, heq]
        exact .right _ (Nat.lt_succ_self _)

end LinkSource

/-! ### Links as a source -/

namespace Links

variable {links : Links} {walk next : Walk}

/-- Whether a name resolves. -/
def resolves (links : Links) (name : String) : Bool := links.targets.contains name

/-- The names that a name refers to, none if it does not resolve itself. -/
def targetsOf (links : Links) (name : String) : List String := (links.targets.get? name).getD []

/-- The names that a name refers to. All of them must resolve. -/
def edges (links : Links) (name : String) : Except DiscoveryError (List String) :=
  match (links.targetsOf name).find? fun target => !links.resolves target with
  | some target => .error (.danglingReference name target)
  | none => .ok (links.targetsOf name)

/-- An answer holds all references, and all of them resolve. -/
theorem edges_eq_ok_iff {name : String} {targets : List String} :
    links.edges name = .ok targets ↔
      targets = links.targetsOf name ∧ ∀ target ∈ targets, links.resolves target = true := by
  unfold edges
  split
  · next target hfirst =>
    refine iff_of_false nofun ?_
    rintro ⟨rfl, hresolves⟩
    have hunknown := List.find?_some hfirst
    rw [hresolves target (List.mem_of_find?_eq_some hfirst)] at hunknown
    cases hunknown
  · next hnone =>
    constructor
    · intro h
      obtain rfl := Except.ok.inj h
      exact ⟨rfl, fun target htarget => by simpa using List.find?_eq_none.1 hnone target htarget⟩
    · rintro ⟨rfl, -⟩
      rfl

/-- A failure names the first reference that does not resolve. -/
theorem exists_of_edges_eq_error {name : String} {fault : DiscoveryError}
    (h : links.edges name = .error fault) :
    ∃ target, fault = .danglingReference name target ∧
      ((links.targetsOf name).find? fun other => !links.resolves other) = some target := by
  unfold edges at h
  split at h
  · next target hfirst => exact ⟨target, (Except.error.inj h).symm, hfirst⟩
  · cases h

/-- The source that links are. -/
def source (links : Links) : LinkSource := ⟨links.resolves, links.edges⟩

/-- One step of a walk through links. -/
def step (links : Links) (walk : Walk) : Except DiscoveryError (Option Walk) :=
  links.source.step walk

theorem stepsTo_step (links : Links) (walk : Walk) :
    links.source.StepsTo walk (links.step walk) := links.source.stepsTo_step walk

/-- **A step through links leaves less to do**, for a name without links leads nowhere. -/
theorem work_step (h : links.step walk = .ok (some next)) :
    Prod.Lex (· < ·) (· < ·) (next.work links.targets.names) (walk.work links.targets.names) := by
  refine links.source.work_step (fun name _ => ?_) h
  cases hlinks : links.targets.get? name with
  | some targets => exact .inl (Catalog.mem_names_iff.2 ⟨targets, hlinks⟩)
  | none =>
    have htargets : links.targetsOf name = [] := by rw [targetsOf, hlinks, Option.getD_none]
    exact .inr (edges_eq_ok_iff.2 ⟨htargets.symm, nofun⟩)

/-! ### The whole walk -/

/-- Takes steps until the queue is empty. -/
def run (links : Links) (walk : Walk) : Except DiscoveryError Discovery :=
  match _taken : links.step walk with
  | .error fault => .error fault
  | .ok none => .ok walk.found
  | .ok (some next) => links.run next
termination_by walk.work links.targets.names
decreasing_by exact work_step _taken

/-- The walk from roots, which must resolve. -/
def explore (links : Links) (roots : List String) : Except DiscoveryError Discovery :=
  match roots.find? fun root => !links.resolves root with
  | some root => .error (.unknownRoot root)
  | none => links.run ⟨{}, roots⟩

/-- The names reached from roots, in the order in which the walk visits them. -/
def discover (links : Links) (roots : List String) : Except DiscoveryError (List String) :=
  (links.explore roots).map Discovery.types

end Links

namespace TypeGraph

/-- The walk through a graph from roots. -/
def explore (graph : TypeGraph) (roots : List String) : Except DiscoveryError Discovery :=
  graph.links.explore roots

/-- The types of a graph reached from roots. -/
def discover (graph : TypeGraph) (roots : List String) : Except DiscoveryError (List String) :=
  graph.links.discover roots

/-- The reached types that have fields clients may use. -/
def entitiesAmong (graph : TypeGraph) (types : List String) : List String :=
  types.filter graph.isEntity

end TypeGraph

end Criteria
