import Criteria.Proofs.TypeGraph.Reachability
import Mathlib

/-!
# Discovery goes breadth first

The usual argument for breadth first looks at the queue and at the distances in it. It does not fit
here: a name may stand in the queue many times, also after it was visited, because it is marked only
when it is taken off. But an entry that is stale changes nothing about which names come for the
first time, and so the walk obeys a simple law: the visited names and then the queue list, for the
first time each, what the roots and then the references of the visited names list (`Walk.Ordered`).
At the end nothing is left in the queue, and the law says that the result is

    types = (roots ++ types.flatMap refers).eraseDups

Everything else follows from this equation and from reachability, without the walk. A beginning of
the result makes a longer beginning: the roots and what the first beginning refers to. So what is
within a distance of the roots is a beginning of the result (`exists_level`).

* `Precedes` — which of two names a list has first;
* `IsBreadthFirst` — what the order of a discovery has to be;
* `Walk.Ordered.of_stepsTo`, `Walk.Ordered.of_run` — the law is kept by each step and by the walk;
* `discover_isBreadthFirst` — the order of a discovery.
-/

namespace Criteria

variable {refers : String → List String} {roots types names others : List String}
  {name source first second : String}

/-! ### Distance -/

/-- A chain of so many references leads from a root to the name. -/
inductive Reaches (refers : String → List String) (roots : List String) : Nat → String → Prop
  | root {name : String} (h : name ∈ roots) : Reaches refers roots 0 name
  | next {steps : Nat} {source target : String} (h : Reaches refers roots steps source)
      (htarget : target ∈ refers source) : Reaches refers roots (steps + 1) target

/-- The shortest distance of a name from the roots. -/
noncomputable def distance (refers : String → List String) (roots : List String) (name : String) :
    Nat :=
  sInf {steps | Reaches refers roots steps name}

theorem Reachable.exists_reaches (h : Reachable refers roots name) :
    ∃ steps, Reaches refers roots steps name := by
  obtain ⟨root, hroot, hchain⟩ := h
  induction hchain with
  | refl => exact ⟨0, .root hroot⟩
  | tail _ htarget ih =>
    obtain ⟨steps, hsource⟩ := ih
    exact ⟨steps + 1, hsource.next htarget⟩

theorem Reachable.reaches_distance (h : Reachable refers roots name) :
    Reaches refers roots (distance refers roots name) name :=
  Nat.sInf_mem h.exists_reaches

theorem Reaches.distance_le {steps : Nat} (h : Reaches refers roots steps name) :
    distance refers roots name ≤ steps :=
  Nat.sInf_le h

/-! ### Which of two names comes first -/

/-- A list has one name before another one: some beginning of it has the one and not the other. -/
def Precedes (names : List String) (first second : String) : Prop :=
  ∃ front, front <+: names ∧ first ∈ front ∧ second ∉ front

/-- Of two beginnings of a list, one that lacks a name of the other is a beginning of it. -/
theorem begins_of_not_mem {front other : List String} (hfront : front <+: names)
    (hother : other <+: names) (hmem : name ∈ other) (hnot : name ∉ front) : front <+: other := by
  rcases List.prefix_or_prefix_of_prefix hfront hother with hle | hle
  · exact hle
  · exact absurd (hle.subset hmem) hnot

namespace Precedes

theorem ne (h : Precedes names first second) : first ≠ second := by
  obtain ⟨front, -, hfirst, hsecond⟩ := h
  rintro rfl
  exact hsecond hfirst

theorem asymm (h : Precedes names first second) : ¬ Precedes names second first := by
  rintro ⟨other, hother, hsecond', hfirst'⟩
  obtain ⟨front, hfront, hfirst, hsecond⟩ := h
  have hbegins := begins_of_not_mem hfront hother hsecond' hsecond
  exact hfirst' (hbegins.subset hfirst)

/-- Of two names one comes first, if the list has them at all. -/
theorem total (hfirst : first ∈ names) (hne : first ≠ second) :
    Precedes names first second ∨ Precedes names second first := by
  obtain ⟨before, after, rfl, hbefore⟩ := List.eq_append_cons_of_mem hfirst
  by_cases hsecond : second ∈ before
  · exact .inr ⟨before, List.prefix_append _ _, hsecond, hbefore⟩
  · refine .inl ⟨before ++ [first], ⟨after, by simp⟩, by simp, ?_⟩
    rw [List.mem_append, List.mem_singleton, not_or]
    exact ⟨hsecond, hne.symm⟩

/-- Leaving out repetitions keeps the order. -/
theorem eraseDups (h : Precedes names first second) : Precedes names.eraseDups first second := by
  obtain ⟨front, ⟨rest, rfl⟩, hfirst, hsecond⟩ := h
  refine ⟨front.eraseDups, ?_, List.mem_eraseDups.2 hfirst, fun hmem => ?_⟩
  · rw [List.eraseDups_append]
    exact List.prefix_append _ _
  · exact hsecond (List.mem_eraseDups.1 hmem)

theorem of_sublist (hnodup : names.Nodup) (h : [first, second].Sublist names) :
    Precedes names first second := by
  obtain ⟨front, rest, rfl, hfirst, hsecond⟩ := List.cons_sublist_iff.1 h
  have hrest : second ∈ rest := List.singleton_sublist.1 hsecond
  refine ⟨front, List.prefix_append _ _, hfirst, fun hfront => ?_⟩
  exact (List.nodup_append.1 hnodup).2.2 second hfront second hrest rfl

end Precedes

/-! ### The order of a discovery -/

/-- The earliest of some types that refers to a name. -/
def IsFirstSource (refers : String → List String) (types : List String) (name source : String) :
    Prop :=
  ∃ before after, types = before ++ source :: after ∧ name ∈ refers source ∧
    ∀ other ∈ before, name ∉ refers other

/-- Types that were reached from roots are in breadth-first order. -/
structure IsBreadthFirst (refers : String → List String) (roots types : List String) : Prop where
  /-- The types are those that can be reached, so that each has a distance. -/
  mem_iff : ∀ name, name ∈ types ↔ Reachable refers roots name
  /-- No type is repeated. -/
  nodup : types.Nodup
  /-- First come the roots in their order. -/
  roots_prefix : roots.eraseDups <+: types
  /-- The distance from the roots never decreases. -/
  distance_le : types.Pairwise fun first second =>
    distance refers roots first ≤ distance refers roots second
  /-- In front of every other type stands one that refers to it. -/
  source_precedes : ∀ name ∈ types, name ∉ roots →
    ∃ source, IsFirstSource refers types name source ∧ Precedes types source name
  /-- Types that are no roots, those of the same distance among them, come in the order of the
  earliest types that refer to them, and in that type's order if it is the same one. -/
  precedes_iff : ∀ first second source other, first ∉ roots → second ∉ roots →
    IsFirstSource refers types first source → IsFirstSource refers types second other →
      (Precedes types first second ↔
        Precedes types source other ∨ source = other ∧ Precedes (refers source) first second)

/-! ### Lists without their repetitions -/

theorem eraseDups_of_nodup (h : names.Nodup) : names.eraseDups = names := by
  induction names with
  | nil => rfl
  | cons name names ih =>
    obtain ⟨hname, hnames⟩ := List.nodup_cons.1 h
    have hkeep : names.filter (fun other => !other == name) = names := by
      refine List.filter_eq_self.2 fun other hother => ?_
      have hne : other ≠ name := fun heq => hname (heq ▸ hother)
      simp [hne]
    rw [List.eraseDups_cons, hkeep, ih hnames]

/-- What is taken out of a list depends on the members of the other list alone. -/
theorem removeAll_congr {front : List String} (h : ∀ name, name ∈ front ↔ name ∈ others)
    (names : List String) : names.removeAll front = names.removeAll others := by
  unfold List.removeAll
  refine List.filter_congr fun name _ => ?_
  rw [Bool.not_inj_iff, Bool.eq_iff_iff, List.elem_iff, List.elem_iff]
  exact h name

/-- Lists with the same first occurrences have them also in front of a third list. -/
theorem eraseDups_append_congr {front : List String} (h : front.eraseDups = others.eraseDups)
    (names : List String) : (front ++ names).eraseDups = (others ++ names).eraseDups := by
  have hmem : ∀ name, name ∈ front ↔ name ∈ others := by
    intro name
    rw [← List.mem_eraseDups, h, List.mem_eraseDups]
  rw [List.eraseDups_append, List.eraseDups_append, h, removeAll_congr hmem]

/-- Names that are left out because they stand in front already make no difference. -/
theorem eraseDups_append_filter {front : List String} {keep : String → Bool}
    (h : ∀ name, keep name = false → name ∈ front) (names : List String) :
    (front ++ names.filter keep).eraseDups = (front ++ names).eraseDups := by
  have hsame : (names.filter keep).removeAll front = names.removeAll front := by
    unfold List.removeAll
    rw [List.filter_filter]
    refine List.filter_congr fun name _ => ?_
    cases hkeep : keep name with
    | true => rw [Bool.and_true]
    | false =>
      rw [Bool.and_false, eq_comm, Bool.not_eq_false', List.elem_iff]
      exact h name hkeep
  rw [List.eraseDups_append, List.eraseDups_append, hsame]

/-- The first occurrences in a beginning of a list are the first of the first occurrences in it. -/
theorem eraseDups_prefix_append (front names : List String) :
    front.eraseDups <+: (front ++ names).eraseDups := by
  rw [List.eraseDups_append]
  exact List.prefix_append _ _

/-! ### The law of the walk -/

namespace Walk

variable {links : Links} {walk next : Walk}

/-- The visited names and then the queue list, each name for the first time, what the roots and then
the references of the visited names list. -/
def Ordered (links : Links) (roots : List String) (walk : Walk) : Prop :=
  (walk.found.types ++ walk.queue).eraseDups =
    (roots ++ walk.found.types.flatMap links.targetsOf).eraseDups

theorem Ordered.start (links : Links) (roots : List String) : Ordered links roots ⟨{}, roots⟩ := by
  change ([] ++ roots).eraseDups = (roots ++ []).eraseDups
  rw [List.nil_append, List.append_nil]

/-- **Every step keeps the law.** -/
theorem Ordered.of_stepsTo (hsound : Sound links roots walk) (hordered : Ordered links roots walk)
    (hstep : links.source.StepsTo walk (.ok (some next))) : Ordered links roots next := by
  cases hstep with
  | @skip found current queue seen =>
    -- the name at the head of the queue was visited, so it is a repetition
    have hvisited : current ∈ found.types := (hsound.contains_iff current).1 seen
    have hqueue : (current :: queue).filter (fun name => !found.types.contains name) =
        queue.filter fun name => !found.types.contains name :=
      List.filter_cons_of_neg (by simpa using hvisited)
    have hskip : ∀ names, (found.types ++ names).eraseDups =
        (found.types ++ names.filter fun name => !found.types.contains name).eraseDups := by
      intro names
      exact (eraseDups_append_filter (fun name h => by simpa using h) names).symm
    calc (found.types ++ queue).eraseDups
        = (found.types ++ current :: queue).eraseDups := by
          rw [hskip queue, hskip (current :: queue), hqueue]
      _ = (roots ++ found.types.flatMap links.targetsOf).eraseDups := hordered
  | @visit found current queue targets fresh answered =>
    obtain ⟨rfl, -⟩ := Links.edges_eq_ok_iff.1 answered
    have hvisited : ∀ name, (!(found.visit current).contains name) = false →
        name ∈ found.types ++ current :: queue := by
      intro name h
      rw [Bool.not_eq_false', contains_visit_iff hsound.contains_iff, Discovery.types_visit] at h
      rw [List.append_cons]
      exact List.mem_append_left _ h
    calc ((found.types ++ [current]) ++ (queue ++ (links.targetsOf current).filter fun target =>
            !(found.visit current).contains target)).eraseDups
        = ((found.types ++ current :: queue) ++ (links.targetsOf current).filter fun target =>
            !(found.visit current).contains target).eraseDups := by simp
      -- the references that do not join the queue were visited
      _ = ((found.types ++ current :: queue) ++ links.targetsOf current).eraseDups :=
          eraseDups_append_filter hvisited _
      _ = ((roots ++ found.types.flatMap links.targetsOf) ++ links.targetsOf current).eraseDups :=
          eraseDups_append_congr hordered _
      _ = (roots ++ (found.types ++ [current]).flatMap links.targetsOf).eraseDups := by simp

/-- A walk keeps the law until its queue is empty. -/
theorem Ordered.of_run {found : Discovery} (hsound : Sound links roots walk)
    (hordered : Ordered links roots walk) (h : links.run walk = .ok found) :
    Ordered links roots ⟨found, []⟩ := by
  fun_induction Links.run links walk with
  | case1 walk fault taken => cases h
  | case2 walk taken =>
    obtain rfl := Except.ok.inj h
    have hstep := taken ▸ links.stepsTo_step walk
    cases hstep
    exact hordered
  | case3 walk next taken ih =>
    have hstep := taken ▸ links.stepsTo_step walk
    exact ih (hsound.of_stepsTo hstep) (hordered.of_stepsTo hsound hstep) h

end Walk

/-- What a discovery finds is listed, each name for the first time, by the roots and then by the
references of what it finds. -/
theorem Links.eq_eraseDups_of_discover {links : Links} (h : links.discover roots = .ok types) :
    types = (roots ++ types.flatMap links.targetsOf).eraseDups := by
  have hnodup := (Links.mem_of_discover h).1
  obtain ⟨found, hfound, rfl⟩ := map_eq_ok.1 h
  unfold explore at hfound
  split at hfound
  · cases hfound
  · have hordered := (Walk.Ordered.start links roots).of_run (.start links roots) hfound
    have hlaw : (found.types ++ []).eraseDups = _ := hordered
    rwa [List.append_nil, eraseDups_of_nodup hnodup] at hlaw

/-! ### The earliest type that refers to a name -/

namespace IsFirstSource

theorem mem (h : IsFirstSource refers types name source) : source ∈ types := by
  obtain ⟨before, after, rfl, -, -⟩ := h
  exact List.mem_append_right _ List.mem_cons_self

theorem name_mem (h : IsFirstSource refers types name source) : name ∈ refers source := by
  obtain ⟨-, -, -, hname, -⟩ := h
  exact hname

theorem exists_of_mem (hsource : source ∈ types) (hname : name ∈ refers source) :
    ∃ earliest, IsFirstSource refers types name earliest := by
  cases hfind : types.find? fun other => decide (name ∈ refers other) with
  | none => exact absurd hname (by simpa using List.find?_eq_none.1 hfind source hsource)
  | some earliest =>
    obtain ⟨hearliest, before, after, rfl, hbefore⟩ := List.find?_eq_some_iff_append.1 hfind
    exact ⟨earliest, before, after, rfl, by simpa using hearliest, by simpa using hbefore⟩

/-- A beginning without the earliest source has no source at all. -/
theorem not_mem_of_begins {front : List String} (h : IsFirstSource refers types name source)
    (hfront : front <+: types) (hsource : source ∉ front) :
    ∀ other ∈ front, name ∉ refers other := by
  obtain ⟨before, after, rfl, -, hbefore⟩ := h
  have hupto : before ++ [source] <+: before ++ source :: after := ⟨after, by simp⟩
  have hbegins := begins_of_not_mem hfront hupto (by simp) hsource
  intro other hother
  rcases List.mem_append.1 (hbegins.subset hother) with hmem | hmem
  · exact hbefore other hmem
  · exact absurd (List.mem_singleton.1 hmem ▸ hother) hsource

end IsFirstSource

/-! ### What follows from the law -/

section Law

variable (hlaw : types = (roots ++ types.flatMap refers).eraseDups)
include hlaw

/-- **What is within a distance of the roots is a beginning of the result.** -/
theorem exists_level (limit : Nat) :
    ∃ level, level <+: types ∧
      ∀ name, name ∈ level ↔ ∃ steps ≤ limit, Reaches refers roots steps name := by
  induction limit with
  | zero =>
    -- the roots alone are within no distance at all
    refine ⟨roots.eraseDups, ?_, fun name => ?_⟩
    · rw [hlaw]
      exact eraseDups_prefix_append roots _
    · rw [List.mem_eraseDups]
      constructor
      · intro hroot
        exact ⟨0, Nat.le_refl 0, .root hroot⟩
      · rintro ⟨steps, hsteps, hreaches⟩
        cases hreaches with
        | root hroot => exact hroot
        | next => omega
  | succ limit ih =>
    -- one step further are the roots again and what the names of the level refer to
    obtain ⟨level, ⟨rest, hrest⟩, hlevel⟩ := ih
    refine ⟨(roots ++ level.flatMap refers).eraseDups, ?_, fun name => ?_⟩
    · -- what the level refers to comes before what the rest refers to
      rw [hlaw, ← hrest, List.flatMap_append, ← List.append_assoc]
      exact eraseDups_prefix_append _ _
    · rw [List.mem_eraseDups, List.mem_append, List.mem_flatMap]
      constructor
      · rintro (hroot | ⟨source, hsource, htarget⟩)
        · exact ⟨0, Nat.zero_le _, .root hroot⟩
        · obtain ⟨steps, hsteps, hreaches⟩ := (hlevel source).1 hsource
          exact ⟨steps + 1, Nat.succ_le_succ hsteps, hreaches.next htarget⟩
      · rintro ⟨steps, hsteps, hreaches⟩
        cases hreaches with
        | root hroot => exact .inl hroot
        | @next steps source _ hsource htarget =>
          exact .inr ⟨source, (hlevel source).2 ⟨steps, Nat.le_of_succ_le_succ hsteps, hsource⟩,
            htarget⟩

theorem distance_le_of_precedes (hreachable : Reachable refers roots second)
    (h : Precedes types first second) :
    distance refers roots first ≤ distance refers roots second := by
  obtain ⟨level, hbegins, hlevel⟩ := exists_level hlaw (distance refers roots second)
  have hsecond : second ∈ level := (hlevel second).2 ⟨_, Nat.le_refl _, hreachable.reaches_distance⟩
  have hfirst : first ∈ level := by
    -- a beginning with the second name has the first one as well
    obtain ⟨front, hfront, hmem, hnot⟩ := h
    exact (begins_of_not_mem hfront hbegins hsecond hnot).subset hmem
  obtain ⟨steps, hsteps, hreaches⟩ := (hlevel first).1 hfirst
  exact hreaches.distance_le.trans hsteps

/-- In front of a type that is no root stands the earliest one that refers to it. -/
theorem exists_source_precedes (hreachable : Reachable refers roots name) (hroot : name ∉ roots) :
    ∃ source, IsFirstSource refers types name source ∧ Precedes types source name := by
  have hreaches := hreachable.reaches_distance
  generalize hdistance : distance refers roots name = steps at hreaches
  cases hreaches with
  | root h => exact absurd h hroot
  | @next steps parent _ hparent hname =>
    -- up to the distance of the parent the result has the parent and not the name
    obtain ⟨level, hbegins, hlevel⟩ := exists_level hlaw steps
    have hmem : parent ∈ level := (hlevel parent).2 ⟨steps, Nat.le_refl _, hparent⟩
    have hnot : name ∉ level := by
      intro h
      obtain ⟨fewer, hfewer, hreaches⟩ := (hlevel name).1 h
      have hle := hreaches.distance_le
      omega
    -- the earliest source is not behind the parent, so it is up to that distance, too
    obtain ⟨source, hsource⟩ := IsFirstSource.exists_of_mem (hbegins.subset hmem) hname
    refine ⟨source, hsource, level, hbegins, ?_, hnot⟩
    by_contra hlate
    exact hsource.not_mem_of_begins hbegins hlate parent hmem hname

/-- The type that is referred to earlier comes first. -/
theorem precedes_of_sources {other : String} (hsecond : second ∉ roots)
    (hsource : IsFirstSource refers types first source)
    (hother : IsFirstSource refers types second other)
    (h : Precedes types source other ∨ source = other ∧ Precedes (refers source) first second) :
    Precedes types first second := by
  rw [hlaw]
  refine Precedes.eraseDups ?_
  rcases h with ⟨front, hbegins, hmem, hnot⟩ | ⟨rfl, front, hbegins, hmem, hnot⟩
  · refine ⟨roots ++ front.flatMap refers, ?_, ?_, ?_⟩
    · exact (List.prefix_append_right_inj roots).2 (hbegins.flatMap refers)
    · exact List.mem_append_right _ (List.mem_flatMap.2 ⟨source, hmem, hsource.name_mem⟩)
    · rw [List.mem_append, List.mem_flatMap, not_or]
      refine ⟨hsecond, ?_⟩
      rintro ⟨earlier, hearlier, hname⟩
      exact hother.not_mem_of_begins hbegins hnot earlier hearlier hname
  · -- both are referred to for the first time by one type
    obtain ⟨before, after, htypes, -, hbefore⟩ := hother
    refine ⟨roots ++ (before.flatMap refers ++ front), ?_, ?_, ?_⟩
    · rw [htypes, List.flatMap_append, List.flatMap_cons]
      rw [List.prefix_append_right_inj, List.prefix_append_right_inj]
      exact hbegins.trans (List.prefix_append _ _)
    · exact List.mem_append_right _ (List.mem_append_right _ hmem)
    · rw [List.mem_append, List.mem_append, List.mem_flatMap, not_or, not_or]
      refine ⟨hsecond, ?_, hnot⟩
      rintro ⟨earlier, hearlier, hname⟩
      exact hbefore earlier hearlier hname

/-- And only what is referred to earlier comes first. -/
theorem sources_of_precedes {other : String} (hfirst : first ∉ roots)
    (hsource : IsFirstSource refers types first source)
    (hother : IsFirstSource refers types second other) (h : Precedes types first second) :
    Precedes types source other ∨ source = other ∧ Precedes (refers source) first second := by
  -- one of the sources comes first, and the other way round would contradict `h`
  have hreverse := fun hlate =>
    h.asymm (precedes_of_sources hlaw hfirst hother hsource hlate)
  by_cases hsame : source = other
  · subst hsame
    rcases Precedes.total hsource.name_mem h.ne with hearly | hlate
    · exact .inr ⟨rfl, hearly⟩
    · exact absurd (.inr ⟨rfl, hlate⟩) hreverse
  · rcases Precedes.total hsource.mem hsame with hearly | hlate
    · exact .inl hearly
    · exact absurd (.inl hlate) hreverse

/-- **The law of the result and reachability make it breadth first.** -/
theorem isBreadthFirst_of_eq_eraseDups (hnodup : types.Nodup)
    (hreachable : ∀ name, name ∈ types ↔ Reachable refers roots name) :
    IsBreadthFirst refers roots types where
  mem_iff := hreachable
  nodup := hnodup
  roots_prefix := by
    rw [hlaw]
    exact eraseDups_prefix_append roots _
  distance_le := by
    refine List.pairwise_iff_forall_sublist.2 fun {first second} hsublist => ?_
    have hsecond : second ∈ types := hsublist.subset (by simp)
    exact distance_le_of_precedes hlaw ((hreachable second).1 hsecond)
      (.of_sublist hnodup hsublist)
  source_precedes name hname hroot :=
    exists_source_precedes hlaw ((hreachable name).1 hname) hroot
  precedes_iff first second source other hfirst hsecond hsource hother :=
    ⟨sources_of_precedes hlaw hfirst hsource hother,
      precedes_of_sources hlaw hsecond hsource hother⟩

end Law

/-- **Discovery goes breadth first**, through any links and through the graph of any types. It
starts with the roots in their order and never comes back to a smaller distance from them. In front
of every other type stands one that refers to it, and the order of these types is that of the
earliest types that refer to them, and then the order in which such a type refers to them. -/
theorem discover_isBreadthFirst :
    (∀ (links : Links) (roots types : List String), links.discover roots = .ok types →
      IsBreadthFirst links.targetsOf roots types) ∧
    ∀ (graph : TypeGraph) (roots types : List String), graph.discover roots = .ok types →
      IsBreadthFirst graph.referencesOf roots types := by
  have hlinks : ∀ (links : Links) (roots types : List String), links.discover roots = .ok types →
      IsBreadthFirst links.targetsOf roots types := by
    intro links roots types h
    obtain ⟨hnodup, hreachable⟩ := Links.mem_of_discover h
    exact isBreadthFirst_of_eq_eraseDups (Links.eq_eraseDups_of_discover h) hnodup hreachable
  refine ⟨hlinks, fun graph roots types h => ?_⟩
  rw [← graph.targetsOf_links]
  exact hlinks graph.links roots types h

/-- Links with a cycle. A name may wait in the queue three times, also after it was visited. -/
def crossedLinks : Links :=
  ⟨.ofList [("A", ["B", "D", "B"]), ("B", ["A", "E", "D"]), ("C", ["D", "B", "F"]), ("D", ["E"]),
    ("E", []), ("F", ["A"])]⟩

/-- The graph of three types that refer to one another. -/
def forumGraph : TypeGraph :=
  ⟨.ofList [("Comment", ⟨"Comment", .object, ["User", "Post"]⟩),
    ("Post", ⟨"Post", .object, ["Comment", "User"]⟩), ("User", ⟨"User", .object, ["Post"]⟩)]⟩

/-- One root is repeated, and `D` comes before `E`, to which `B` refers first of the two. -/
theorem discover_isBreadthFirst_stale :
    (crossedLinks.discover ["A", "C", "A"] = .ok ["A", "C", "B", "D", "F", "E"] ∧
      IsBreadthFirst crossedLinks.targetsOf ["A", "C", "A"] ["A", "C", "B", "D", "F", "E"]) ∧
    forumGraph.discover ["Post"] = .ok ["Post", "Comment", "User"] ∧
      IsBreadthFirst forumGraph.referencesOf ["Post"] ["Post", "Comment", "User"] := by
  have hlinks : crossedLinks.discover ["A", "C", "A"] = .ok ["A", "C", "B", "D", "F", "E"] := by
    cbv
  have hgraph : forumGraph.discover ["Post"] = .ok ["Post", "Comment", "User"] := by
    cbv
  exact ⟨⟨hlinks, discover_isBreadthFirst.1 crossedLinks _ _ hlinks⟩,
    hgraph, discover_isBreadthFirst.2 forumGraph _ _ hgraph⟩

end Criteria
