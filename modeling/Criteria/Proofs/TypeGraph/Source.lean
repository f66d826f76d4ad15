import Criteria.TypeGraph.Discovery
import Mathlib.Data.PFun

/-!
# Discovery through any source of references

`Links` hold the references of finitely many names. A source in general is only asked: whether a
name resolves, and what a name refers to, to which it may also answer with a failure of its own. It
may know infinitely many names, and then a walk need not end.

So the walk through a source is a partial function: it has no outcome if it goes on for ever. The
walk through links takes the same steps, and it ends.

* `LinkSource.run`, `LinkSource.explore` — the walk, and the walk from roots;
* `LinkSource.run_eq_of_fail`, `run_eq_of_done`, `run_eq_of_next` — the walk after one step;
* `Links.run_source`, `Links.explore_source` — the walk through links as one through their source.
-/

namespace Criteria

namespace LinkSource

variable {source : LinkSource} {walk : Walk}

/-- The names that a name refers to, none if the source fails on it. -/
def targetsOf (source : LinkSource) (name : String) : List String :=
  match source.edges name with
  | .ok targets => targets
  | .error _ => []

theorem targetsOf_of_edges {name : String} {targets : List String}
    (h : source.edges name = .ok targets) : source.targetsOf name = targets := by
  rw [targetsOf, h]

/-! ### The whole walk -/

/-- Where a walk is after one step: at its end, or on its way. -/
def advance (source : LinkSource) (walk : Walk) : Except DiscoveryError Discovery ⊕ Walk :=
  match source.step walk with
  | .error fault => .inl (.error fault)
  | .ok none => .inl (.ok walk.found)
  | .ok (some next) => .inr next

/-- Takes steps until the queue is empty. A walk whose queue never is comes to nothing. -/
def run (source : LinkSource) : Walk →. Except DiscoveryError Discovery :=
  PFun.fix fun walk => Part.some (source.advance walk)

/-- The walk from roots, which must resolve. -/
def explore (source : LinkSource) (roots : List String) :
    Part (Except DiscoveryError Discovery) :=
  match roots.find? fun root => !source.resolves root with
  | some root => Part.some (.error (.unknownRoot root))
  | none => source.run ⟨{}, roots⟩

variable {outcome : Except DiscoveryError Discovery} {next : Walk}

/-- A walk that is at its end has come to its outcome. -/
theorem run_eq_of_advance_end (h : source.advance walk = .inl outcome) :
    source.run walk = Part.some outcome :=
  Part.eq_some_iff.2 (PFun.fix_stop (Part.mem_some_iff.2 h.symm))

theorem run_eq_of_fail {fault : DiscoveryError} (h : source.step walk = .error fault) :
    source.run walk = Part.some (.error fault) :=
  run_eq_of_advance_end (by rw [advance, h])

theorem run_eq_of_done (h : source.step walk = .ok none) :
    source.run walk = Part.some (.ok walk.found) :=
  run_eq_of_advance_end (by rw [advance, h])

/-- A walk on its way comes to what the rest of it comes to. -/
theorem run_eq_of_next (h : source.step walk = .ok (some next)) :
    source.run walk = source.run next := by
  have hadvance : Sum.inr next ∈ Part.some (source.advance walk) := by
    rw [advance, h]
    exact Part.mem_some _
  exact PFun.fix_fwd_eq hadvance

/-- What holds of a walk if it holds of what the next step leads to, holds of every walk that
ends. -/
theorem run_induction {motive : Walk → Prop} (h : outcome ∈ source.run walk)
    (hback : ∀ walk, outcome ∈ source.run walk →
      (∀ next, source.step walk = .ok (some next) → motive next) → motive walk) :
    motive walk := by
  refine PFun.fixInduction h fun walk hwalk ih => hback walk hwalk fun next hstep => ih next ?_
  rw [advance, hstep]
  exact Part.mem_some _

end LinkSource

/-! ### Links as a source -/

namespace Links

/-- The walk through links is the walk through them as a source, and it ends. -/
theorem run_source (links : Links) (walk : Walk) :
    links.source.run walk = Part.some (links.run walk) := by
  -- a step through the source is by definition the step through the links
  fun_induction Links.run links walk with
  | case1 walk fault taken => exact LinkSource.run_eq_of_fail taken
  | case2 walk taken => exact LinkSource.run_eq_of_done taken
  | case3 walk next taken ih =>
    have hnext : links.source.run walk = links.source.run next := LinkSource.run_eq_of_next taken
    exact hnext.trans ih

/-- A discovery through links is one through them as a source. -/
theorem explore_source (links : Links) (roots : List String) :
    links.source.explore roots = Part.some (links.explore roots) := by
  have hresolves : links.source.resolves = links.resolves := rfl
  rw [LinkSource.explore, explore, hresolves]
  cases roots.find? fun root => !links.resolves root with
  | some root => rfl
  | none => exact run_source links ⟨{}, roots⟩

end Links

end Criteria
