import Criteria.Proofs.Sql.Assignment
import Criteria.Proofs.Sql.Precedence

/-!
# The reader leaves no connective without parts

Between two connectives of a text there is always something, and what there is must be an operand.
So what the reader finds is proper: there is an alternative, each has a factor, and the same holds
inside the groups. Putting alternatives next to each other keeps this, and so does letting them run
together.
-/

namespace Criteria.Sql

variable {α β γ : Type} {leaf : List Tree → Option α}

/-! ### Proper alternatives -/

/-- No connective stands without parts in alternatives or in their factors. -/
structure ProperAlternatives (alternatives : List (List (Expr α))) : Prop where
  /-- There is an alternative. -/
  ne_nil : alternatives ≠ []
  /-- Each of them has a factor. -/
  factors_ne_nil : ∀ factors ∈ alternatives, factors ≠ []
  /-- The factors are proper. -/
  factors_proper : ∀ factor ∈ alternatives.flatten, factor.Proper

/-- A conjunction of parts is proper if they are and there is one. -/
theorem proper_conjunction {parts : List (Expr α)} (hne : parts ≠ [])
    (h : ∀ part ∈ parts, part.Proper) : (Expr.conjunction parts).Proper := by
  unfold Expr.conjunction
  split
  · exact h _ (by simp)
  · exact ⟨hne, Expr.allProper_iff.2 h⟩

theorem proper_disjunction {parts : List (Expr α)} (hne : parts ≠ [])
    (h : ∀ part ∈ parts, part.Proper) : (Expr.disjunction parts).Proper := by
  unfold Expr.disjunction
  split
  · exact h _ (by simp)
  · exact ⟨hne, Expr.allProper_iff.2 h⟩

theorem proper_ofAlternatives {alternatives : List (List (Expr α))}
    (h : ProperAlternatives alternatives) : (Expr.ofAlternatives alternatives).Proper := by
  refine proper_disjunction (by simpa using h.ne_nil) fun part hpart => ?_
  obtain ⟨factors, hfactors, rfl⟩ := List.mem_map.1 hpart
  exact proper_conjunction (h.factors_ne_nil factors hfactors) fun factor hfactor =>
    h.factors_proper factor (List.mem_flatten_of_mem hfactors hfactor)

theorem ProperAlternatives.singleton {part : Expr α} (h : part.Proper) :
    ProperAlternatives [[part]] :=
  ⟨by simp, by simp, by simpa using h⟩

/-- Alternatives next to each other are proper if they are proper each by themselves. -/
theorem ProperAlternatives.flatten {readings : List (List (List (Expr α)))} (hne : readings ≠ [])
    (h : ∀ alternatives ∈ readings, ProperAlternatives alternatives) :
    ProperAlternatives readings.flatten := by
  refine ⟨?_, ?_, ?_⟩
  · obtain ⟨first, rest, rfl⟩ := List.exists_cons_of_ne_nil hne
    have hfirst := (h first List.mem_cons_self).ne_nil
    simp [hfirst]
  · intro factors hfactors
    obtain ⟨alternatives, halternatives, hmem⟩ := List.mem_flatten.1 hfactors
    exact (h alternatives halternatives).factors_ne_nil factors hmem
  · intro factor hfactor
    obtain ⟨factors, hfactors, hmem⟩ := List.mem_flatten.1 hfactor
    obtain ⟨alternatives, halternatives, hin⟩ := List.mem_flatten.1 hfactors
    exact (h alternatives halternatives).factors_proper factor (List.mem_flatten_of_mem hin hmem)

theorem glue_ne_nil {items : List (List β)} (h : items ≠ []) (others : List (List β)) :
    glue items others ≠ [] := by
  cases items with
  | nil => exact absurd rfl h
  | cons item items =>
    cases items with
    | nil => cases others <;> simp [glue]
    | cons next items => simp

/-- Lists that run together have elements if all of them do. -/
theorem ne_nil_of_mem_glue {items others : List (List β)} (hitems : ∀ item ∈ items, item ≠ [])
    (hothers : ∀ item ∈ others, item ≠ []) : ∀ item ∈ glue items others, item ≠ [] := by
  -- where the lists meet, the new piece is longer than the last one it comes from
  induction items with
  | nil => exact hothers
  | cons first items ih =>
    have hfirst := hitems first List.mem_cons_self
    cases items with
    | nil =>
      cases others with
      | nil => exact hitems
      | cons other others =>
        intro item hitem
        rcases List.mem_cons.1 hitem with rfl | hitem
        · simp [hfirst]
        · exact hothers item (List.mem_cons_of_mem _ hitem)
    | cons next items =>
      intro item hitem
      rcases List.mem_cons.1 hitem with rfl | hitem
      · exact hfirst
      · exact ih (fun i hi => hitems i (List.mem_cons_of_mem _ hi)) item hitem

/-- Alternatives that run together are proper if they are proper each by themselves. -/
theorem ProperAlternatives.glueAll {readings : List (List (List (Expr α)))} (hne : readings ≠ [])
    (h : ∀ alternatives ∈ readings, ProperAlternatives alternatives) :
    ProperAlternatives (glueAll readings) := by
  refine ⟨?_, ?_, ?_⟩
  · obtain ⟨first, rest, rfl⟩ := List.exists_cons_of_ne_nil hne
    exact glue_ne_nil (h first List.mem_cons_self).ne_nil _
  · clear hne
    induction readings with
    | nil => intro factors hfactors; exact absurd hfactors List.not_mem_nil
    | cons first rest ih =>
      exact ne_nil_of_mem_glue (h first List.mem_cons_self).factors_ne_nil
        (ih fun alternatives hmem => h alternatives (List.mem_cons_of_mem _ hmem))
  · intro factor hfactor
    rw [flatten_glueAll] at hfactor
    obtain ⟨factors, hfactors, hmem⟩ := List.mem_flatten.1 hfactor
    obtain ⟨alternatives, halternatives, rfl⟩ := List.mem_map.1 hfactors
    exact (h alternatives halternatives).factors_proper factor hmem

/-! ### What the reader finds is proper -/

/-- Results of a list come from its elements, and there are as many. -/
theorem mapM_eq_some {f : β → Option γ} {items : List β} :
    ∀ {results : List γ}, items.mapM f = some results →
      results.length = items.length ∧ ∀ result ∈ results, ∃ item ∈ items, f item = some result := by
  induction items with
  | nil =>
    intro results h
    obtain rfl : [] = results := Option.some.inj h
    simp
  | cons item items ih =>
    intro results h
    rw [List.mapM_cons] at h
    obtain ⟨first, hfirst, h⟩ := Option.bind_eq_some_iff.1 h
    obtain ⟨rest, hrest, h⟩ := Option.bind_eq_some_iff.1 h
    obtain rfl : first :: rest = results := Option.some.inj h
    refine ⟨by simp [(ih hrest).1], fun result hresult => ?_⟩
    rcases List.mem_cons.1 hresult with rfl | hresult
    · exact ⟨item, List.mem_cons_self, hfirst⟩
    · obtain ⟨source, hsource, hf⟩ := (ih hrest).2 result hresult
      exact ⟨source, List.mem_cons_of_mem _ hsource, hf⟩

/-- Pieces of a list hold elements of the list. -/
theorem mem_of_mem_splitOnP {p : β → Bool} {items : List β} :
    ∀ {piece}, piece ∈ items.splitOnP p → ∀ item ∈ piece, item ∈ items := by
  -- the first piece may grow by the item in front of it, all others stay
  induction items with
  | nil =>
    intro piece hpiece item hitem
    obtain rfl : piece = [] := by simpa [List.splitOnP_nil] using hpiece
    exact absurd hitem List.not_mem_nil
  | cons first items ih =>
    intro piece hpiece item hitem
    rw [List.splitOnP_cons_eq_if_modifyHead] at hpiece
    obtain ⟨head, tail, hsplit⟩ := List.exists_cons_of_ne_nil (List.splitOnP_ne_nil p items)
    rw [hsplit] at hpiece ih
    split at hpiece
    · rcases List.mem_cons.1 hpiece with rfl | hpiece
      · exact absurd hitem List.not_mem_nil
      · exact List.mem_cons_of_mem _ (ih hpiece item hitem)
    · rcases List.mem_cons.1 hpiece with rfl | hpiece
      · rcases List.mem_cons.1 hitem with rfl | hitem
        · exact List.mem_cons_self
        · exact List.mem_cons_of_mem _ (ih List.mem_cons_self item hitem)
      · exact List.mem_cons_of_mem _ (ih (List.mem_cons_of_mem _ hpiece) item hitem)

/-- What the groups among some marks say is proper. -/
def ProperMarks (marks : List (Mark α)) : Prop :=
  ∀ mark ∈ marks, ∀ inside, mark.inside = some inside → inside.Proper

theorem proper_factor {marks : List (Mark α)} (hmarks : ProperMarks marks) :
    ∀ {factor}, factor? leaf marks = some factor → factor.Proper := by
  -- the induction goes through the negations, down to the operand behind them
  induction marks with
  | nil => intro factor h; cases h
  | cons mark rest ih =>
    intro factor h
    rw [factor?] at h
    split at h
    · obtain ⟨part, hpart, rfl⟩ := Option.map_eq_some_iff.1 h
      have hproper : part.Proper := ih (fun m hm => hmarks m (List.mem_cons_of_mem _ hm)) hpart
      exact hproper
    · unfold operand? at h
      split at h
      · cases h
      · next hmark =>
        split at h
        · obtain ⟨value, -, rfl⟩ := Option.map_eq_some_iff.1 h
          trivial
        · exact hmarks _ (by rw [hmark]; exact List.mem_cons_self) factor h
      · obtain ⟨value, -, rfl⟩ := Option.map_eq_some_iff.1 h
        trivial

theorem proper_sum {marks : List (Mark α)} (hmarks : ProperMarks marks)
    {alternatives : List (List (Expr α))} (h : sum? leaf marks = some alternatives) :
    ProperAlternatives alternatives := by
  -- splitting always leaves a piece, and each piece was read as one alternative
  obtain ⟨hlength, hsource⟩ := mapM_eq_some h
  have hne := List.splitOnP_ne_nil (fun mark : Mark α => decide (mark.role = .or)) marks
  refine ⟨by rintro rfl; exact hne (List.length_eq_zero_iff.1 hlength.symm), ?_, ?_⟩
  · intro factors hfactors
    obtain ⟨piece, hpiece, hread⟩ := hsource factors hfactors
    have hlength := (mapM_eq_some hread).1
    have hne := List.splitOnP_ne_nil (fun mark : Mark α => decide (mark.role = .and)) piece
    rintro rfl
    exact hne (List.length_eq_zero_iff.1 hlength.symm)
  · intro factor hfactor
    obtain ⟨factors, hfactors, hmem⟩ := List.mem_flatten.1 hfactor
    obtain ⟨piece, hpiece, hread⟩ := hsource factors hfactors
    obtain ⟨part, hpart, hread⟩ := (mapM_eq_some hread).2 factor hmem
    refine proper_factor (fun mark hmark => hmarks mark ?_) hread
    exact mem_of_mem_splitOnP hpiece mark (mem_of_mem_splitOnP hpart mark hmark)

mutual

theorem proper_inside : ∀ (tree : Tree) {inside : Expr α}, tree.inside? leaf = some inside →
    inside.Proper
  | .token _, inside, h => by
    rw [Tree.inside?] at h
    cases h
  | .group parts, inside, h => by
    rw [Tree.inside?] at h
    split at h
    · cases h
    · obtain ⟨alternatives, halternatives, rfl⟩ := Option.map_eq_some_iff.1 h
      obtain ⟨marks, hmarks, hsum⟩ := Option.bind_eq_some_iff.1 halternatives
      exact proper_ofAlternatives (proper_sum (proper_marks parts hmarks) hsum)

theorem proper_marks : ∀ (trees : List Tree) {pending : List Pending} {marks : List (Mark α)},
    marks? leaf pending trees = some marks → ProperMarks marks
  | [], pending, marks, h => by
    rw [marks?] at h
    split at h
    · obtain rfl : [] = marks := Option.some.inj h
      intro mark hmark
      exact absurd hmark List.not_mem_nil
    · cases h
  | tree :: rest, pending, marks, h => by
    rw [marks?] at h
    obtain ⟨⟨role, next⟩, -, h⟩ := Option.bind_eq_some_iff.1 h
    obtain ⟨others, hothers, rfl⟩ := Option.map_eq_some_iff.1 h
    intro mark hmark inside hinside
    rcases List.mem_cons.1 hmark with rfl | hmark
    · exact proper_inside tree hinside
    · exact proper_marks rest hothers mark hmark inside hinside

end

theorem proper_reading {dialect : Dialect} {text : List Char}
    {alternatives : List (List (Expr α))} (h : reading? leaf dialect text = some alternatives) :
    ProperAlternatives alternatives := by
  obtain ⟨trees, -, halternatives⟩ := reading?_eq_some_iff.1 h
  obtain ⟨-, -, marks, hmarks, hsum⟩ := alternatives?_eq_some.1 halternatives
  exact proper_sum (proper_marks trees hmarks) hsum

end Criteria.Sql
