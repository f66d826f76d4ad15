import Criteria.Proofs.Sql.Shielding

/-!
# Only shielded conditions mean what they should

Take a condition whose comparisons are all different, so that they may be true or false
independently. If some conjunction in it has a part with several alternatives, then there is an
assignment under which the text and the condition differ. It makes the parts on one side of the
exposed alternative true and those on the other side false: the text is true, since the alternative
that is left alone is, and the conjunction is not.

A difference at one place reaches the whole, because every other part can be given the value that
its connective passes over.

* `Composes.exists_all` — all factors that a condition reads as can be true at once, and false;
* `ComposesAll.exists_exposed` — an exposed alternative makes a conjunction true that is false;
* `Composes.shielded_of_eval_eq` — what always means what it should is shielded.
-/

namespace Criteria.Sql

variable {dialect : Dialect} {condition : Condition} {alternatives : Alternatives}
  {meaning : Expr Occurrence} {parts : List Condition} {readings : List Alternatives}
  {meanings : List (Expr Occurrence)}

/-! ### Assignments to the comparisons of a condition -/

section Agree

variable {u v : Occurrence → Bool}

/-- Alternatives have one value if all their factors have it. -/
theorem eval_ofAlternatives_eq (hproper : ProperAlternatives alternatives) {b : Bool}
    (h : ∀ factor ∈ alternatives.flatten, factor.eval v = b) :
    (Expr.ofAlternatives alternatives).eval v = b := by
  rw [Expr.eval_ofAlternatives]
  refine disj_eq_of_forall_eq (by simpa using hproper.ne_nil) fun value hvalue => ?_
  obtain ⟨factors, hfactors, rfl⟩ := List.mem_map.1 hvalue
  refine conj_eq_of_forall_eq (by simpa using hproper.factors_ne_nil factors hfactors) ?_
  intro value hvalue
  obtain ⟨factor, hfactor, rfl⟩ := List.mem_map.1 hvalue
  exact h factor (List.mem_flatten_of_mem hfactors hfactor)

/-- Factors have the same values under assignments that agree on their atoms. -/
theorem eval_factor_congr {factors : List (Expr Occurrence)} {atoms : List Occurrence}
    (hatoms : Expr.atomsAll factors = atoms) (h : ∀ a ∈ atoms, u a = v a) :
    ∀ factor ∈ factors, factor.eval u = factor.eval v := fun factor hfactor =>
  Expr.eval_congr factor fun a ha => h a (hatoms ▸ Expr.atoms_subset_atomsAll hfactor ha)

/-- What a condition reads as depends on the comparisons of what it should mean. -/
theorem Composes.eval_congr (hc : Composes dialect condition alternatives meaning)
    (h : ∀ a ∈ meaning.atoms, u a = v a) :
    (Expr.ofAlternatives alternatives).eval u = (Expr.ofAlternatives alternatives).eval v :=
  Expr.eval_congr _ (by rw [Expr.atoms_ofAlternatives, hc.atoms]; exact h)

/-- The same for conditions in turn. -/
theorem ComposesAll.map_eval_congr {parts : List Condition} {readings : List Alternatives}
    {meanings : List (Expr Occurrence)} : ComposesAll dialect parts readings meanings →
      (∀ a ∈ Expr.atomsAll meanings, u a = v a) →
        readingValues u readings = readingValues v readings
  | .nil, _ => rfl
  | .cons hpart hparts, h => by
    have hfirst := hpart.eval_congr fun a ha => h a (List.mem_append_left _ ha)
    have hrest := hparts.map_eval_congr fun a ha => h a (List.mem_append_right _ ha)
    rw [readingValues_cons, readingValues_cons, hfirst, hrest]

end Agree

mutual

/-- All factors that a condition reads as can be given the same value, and what it should mean has
it too. -/
theorem Composes.exists_all {condition : Condition} {alternatives : Alternatives}
    {meaning : Expr Occurrence} : Composes dialect condition alternatives meaning →
      meaning.atoms.Nodup → ∀ b : Bool, ∃ v : Occurrence → Bool,
        (∀ factor ∈ alternatives.flatten, factor.eval v = b) ∧ meaning.eval v = b
  | .constant value, _, b => ⟨fun _ => b, by simp [constantExpr]⟩
  | .test reference check param, _, b => ⟨fun _ => b, by simp⟩
  | .custom h, hnodup, b => by
    have hproper := (proper_reading h).of_map
    rw [Expr.atoms_ofAlternatives] at hnodup
    -- a custom text has factors of any shape, with atoms of their own
    obtain ⟨v, hv⟩ := Expr.exists_forall_eval_eq _ (Expr.allProper_iff.2 hproper.factors_proper)
      hnodup b
    exact ⟨v, hv, eval_ofAlternatives_eq hproper hv⟩
  | .all hne hparts, hnodup, b => by
    obtain ⟨v, hreadings, hmeanings⟩ := hparts.exists_all hnodup b
    have hne' := hparts.readings_ne_nil hne
    refine ⟨v, ?_, ?_⟩
    · have hwhole := eval_ofAlternatives_eq (.glueAll hne'.1 hparts.proper)
        (by rw [flatten_glueAll]; exact hreadings)
      simpa using hwhole
    · rw [Expr.eval_all]
      exact conj_eq_of_forall_eq (by simpa using hne'.2) (by simpa using hmeanings)
  | .any hne hparts, hnodup, b => by
    obtain ⟨v, hreadings, hmeanings⟩ := hparts.exists_all hnodup b
    have hne' := hparts.readings_ne_nil hne
    refine ⟨v, ?_, ?_⟩
    · have hwhole := eval_ofAlternatives_eq (.flatten hne'.1 hparts.proper)
        (by rw [List.flatten_flatten]; exact hreadings)
      simpa using hwhole
    · rw [Expr.eval_any]
      exact disj_eq_of_forall_eq (by simpa using hne'.2) (by simpa using hmeanings)
  | .not hpart, hnodup, b => by
    obtain ⟨v, hfactors, hmeaning⟩ := hpart.exists_all hnodup (!b)
    refine ⟨v, ?_, ?_⟩
    · have hwhole := eval_ofAlternatives_eq hpart.proper hfactors
      simp [hwhole]
    · rw [Expr.eval_not, hmeaning]
      exact Bool.not_not b

theorem ComposesAll.exists_all {parts : List Condition} {readings : List Alternatives}
    {meanings : List (Expr Occurrence)} : ComposesAll dialect parts readings meanings →
      (Expr.atomsAll meanings).Nodup → ∀ b : Bool, ∃ v : Occurrence → Bool,
        (∀ factor ∈ (readings.map List.flatten).flatten, factor.eval v = b) ∧
        ∀ meaning ∈ meanings, meaning.eval v = b
  | .nil, _, b => ⟨fun _ => b, by simp, by simp⟩
  | .cons hpart hparts, hnodup, b => by
    obtain ⟨hfirst, hrest, hdisjoint⟩ := List.nodup_append'.1 hnodup
    obtain ⟨v, hv, hmeaning⟩ := hpart.exists_all hfirst b
    obtain ⟨w, hw, hmeanings⟩ := hparts.exists_all hrest b
    obtain ⟨u, huv, huw⟩ := exists_agree hdisjoint v w
    refine ⟨u, fun factor hfactor => ?_, fun other hother => ?_⟩
    · rw [List.map_cons, List.flatten_cons] at hfactor
      rcases List.mem_append.1 hfactor with hfactor | hfactor
      · rw [eval_factor_congr hpart.atoms huv factor hfactor, hv factor hfactor]
      · rw [eval_factor_congr hparts.atoms huw factor hfactor, hw factor hfactor]
    · rcases List.mem_cons.1 hother with rfl | hother
      · rw [Expr.eval_congr other huv, hmeaning]
      · rw [eval_factor_congr rfl huw other hother, hmeanings other hother]

end

/-! ### An exposed alternative -/

theorem eval_ofAlternatives_cons (v : Occurrence → Bool) (factors : List (Expr Occurrence))
    (others : Alternatives) : (Expr.ofAlternatives (factors :: others)).eval v =
      conj (factors.map (Expr.eval v)) ⊔ (Expr.ofAlternatives others).eval v := by
  rw [Expr.eval_ofAlternatives, Expr.eval_ofAlternatives, List.map_cons, disj_cons]

/-- An alternative of true factors makes the whole true. -/
theorem eval_of_mem {v : Occurrence → Bool} {factors : List (Expr Occurrence)} (hne : factors ≠ [])
    (htrue : ∀ factor ∈ factors, factor.eval v = true) (hmem : factors ∈ alternatives) :
    (Expr.ofAlternatives alternatives).eval v = true := by
  have hfactors : conj (factors.map (Expr.eval v)) = true :=
    conj_eq_of_forall_eq (by simpa using hne) (by simpa using htrue)
  rw [Expr.eval_ofAlternatives]
  exact disj_eq_top_of_mem (List.mem_map.2 ⟨factors, hmem, hfactors⟩)

theorem ComposesAll.atoms_glueAll (h : ComposesAll dialect parts readings meanings) :
    (Expr.ofAlternatives (glueAll readings)).atoms = Expr.atomsAll meanings := by
  rw [Expr.atoms_ofAlternatives, flatten_glueAll, h.atoms]

section Exposed

variable {part : Condition} {first : Alternatives}

/-- The first alternative of a part with several is left alone by the parts behind it: it is true,
and they are false. -/
theorem Composes.exists_exposed {factors second : List (Expr Occurrence)} {more : Alternatives}
    (hpart : Composes dialect part (factors :: second :: more) meaning)
    (hparts : ComposesAll dialect parts readings meanings) (hmeanings : meanings ≠ [])
    (hnodup : (meaning.atoms ++ Expr.atomsAll meanings).Nodup) :
    ∃ v : Occurrence → Bool,
      (Expr.ofAlternatives (glueAll ((factors :: second :: more) :: readings))).eval v = true ∧
        ∃ other ∈ meanings, other.eval v = false := by
  obtain ⟨hfirst, hothers, hdisjoint⟩ := List.nodup_append'.1 hnodup
  obtain ⟨v, hv, -⟩ := hpart.exists_all hfirst true
  obtain ⟨w, -, hw⟩ := hparts.exists_all hothers false
  obtain ⟨u, huv, huw⟩ := exists_agree hdisjoint v w
  -- `factors` stands alone in the text, and what is behind the second alternative does not matter
  refine ⟨u, ?_, ?_⟩
  · rw [glueAll_cons, glue_cons_cons]
    refine eval_of_mem (hpart.proper.factors_ne_nil factors List.mem_cons_self) ?_
      List.mem_cons_self
    intro factor hfactor
    have hmem : factor ∈ (factors :: second :: more).flatten :=
      List.mem_flatten_of_mem List.mem_cons_self hfactor
    rw [eval_factor_congr hpart.atoms huv factor hmem, hv factor hmem]
  · obtain ⟨other, hother⟩ := List.exists_mem_of_ne_nil meanings hmeanings
    exact ⟨other, hother, by rw [eval_factor_congr rfl huw other hother, hw other hother]⟩

/-- The last alternative of a part with several is left alone by a part in front of it. -/
theorem Composes.exists_exposed_behind {before : Expr Occurrence} {factors : List (Expr Occurrence)}
    (hbefore : Composes dialect condition [factors] before)
    (hpart : Composes dialect part first meaning) (hsingle : ∀ factors, first ≠ [factors])
    (hnodup : (before.atoms ++ meaning.atoms).Nodup) :
    ∃ v : Occurrence → Bool,
      (Expr.ofAlternatives (glueAll [[factors], first])).eval v = true ∧
        before.eval v = false := by
  obtain ⟨hatoms, hothers, hdisjoint⟩ := List.nodup_append'.1 hnodup
  obtain ⟨v, -, hv⟩ := hbefore.exists_all hatoms false
  obtain ⟨w, hw, -⟩ := hpart.exists_all hothers true
  obtain ⟨u, huv, huw⟩ := exists_agree hdisjoint v w
  refine ⟨u, ?_, by rw [Expr.eval_congr before huv, hv]⟩
  -- only the first alternative is joined to what stands before
  match first, hpart.proper with
  | [], hproper => exact absurd rfl hproper.ne_nil
  | [single], _ => exact absurd rfl (hsingle single)
  | joined :: alone :: rest, hproper =>
    have halone : alone ∈ joined :: alone :: rest := by simp
    refine eval_of_mem (hproper.factors_ne_nil alone halone) ?_ (by simp)
    intro factor hfactor
    have hmem : factor ∈ (joined :: alone :: rest).flatten :=
      List.mem_flatten_of_mem halone hfactor
    rw [eval_factor_congr hpart.atoms huw factor hmem, hw factor hmem]

/-- A part of one alternative lets what is behind it through when it is true. -/
theorem Composes.eval_glue {factors : List (Expr Occurrence)}
    (hpart : Composes dialect part [factors] meaning) {others : Alternatives} (hne : others ≠ [])
    {v : Occurrence → Bool} (hv : ∀ factor ∈ factors, factor.eval v = true) :
    (Expr.ofAlternatives (glue [factors] others)).eval v = (Expr.ofAlternatives others).eval v := by
  have hfactors : conj (factors.map (Expr.eval v)) = ⊤ :=
    conj_eq_of_forall_eq (by simpa using hpart.proper.factors_ne_nil factors) (by simpa using hv)
  match others, hne with
  | joined :: others, _ =>
    have hjoined : conj ((factors ++ joined).map (Expr.eval v)) =
        conj (joined.map (Expr.eval v)) := by
      rw [List.map_append, conj_append, hfactors, top_inf_eq]
    rw [glue_singleton_cons, eval_ofAlternatives_cons, eval_ofAlternatives_cons, hjoined]

/-- A part of one alternative in front of parts whose text is true and whose conjunction is not. -/
theorem Composes.exists_exposed_further {factors : List (Expr Occurrence)}
    (hpart : Composes dialect part [factors] meaning)
    (hparts : ComposesAll dialect parts readings meanings) (hne : readings ≠ [])
    (hnodup : (meaning.atoms ++ Expr.atomsAll meanings).Nodup) {w : Occurrence → Bool}
    (hw : (Expr.ofAlternatives (glueAll readings)).eval w = true) {other : Expr Occurrence}
    (hother : other ∈ meanings) (hfalse : other.eval w = false) :
    ∃ v : Occurrence → Bool,
      (Expr.ofAlternatives (glueAll ([factors] :: readings))).eval v = true ∧
        other.eval v = false := by
  obtain ⟨hfirst, hothers, hdisjoint⟩ := List.nodup_append'.1 hnodup
  obtain ⟨v, hv, -⟩ := hpart.exists_all hfirst true
  obtain ⟨u, huv, huw⟩ := exists_agree hdisjoint v w
  have hglued := (ProperAlternatives.glueAll hne hparts.proper).ne_nil
  have htrue : ∀ factor ∈ factors, factor.eval u = true := by
    intro factor hfactor
    have hmem : factor ∈ [factors].flatten := by simpa using hfactor
    rw [eval_factor_congr hpart.atoms huv factor hmem, hv factor hmem]
  have hrest : (Expr.ofAlternatives (glueAll readings)).eval u =
      (Expr.ofAlternatives (glueAll readings)).eval w := by
    refine Expr.eval_congr _ fun a ha => huw a ?_
    rwa [hparts.atoms_glueAll] at ha
  refine ⟨u, ?_, ?_⟩
  · rw [glueAll_cons, hpart.eval_glue hglued htrue, hrest, hw]
  · rw [eval_factor_congr rfl huw other hother, hfalse]

end Exposed

/-- **An exposed alternative makes a conjunction true that is false.** -/
theorem ComposesAll.exists_exposed (h : ComposesAll dialect parts readings meanings)
    (hlength : 2 ≤ readings.length) (hsingle : ¬ AllSingle readings)
    (hnodup : (Expr.atomsAll meanings).Nodup) :
    ∃ v : Occurrence → Bool, (Expr.ofAlternatives (glueAll readings)).eval v = true ∧
      ∃ meaning ∈ meanings, meaning.eval v = false := by
  -- the first part with several alternatives is looked for from the front
  induction parts generalizing readings meanings with
  | nil =>
    cases h
    exact absurd hlength (by simp)
  | cons part parts ih =>
    cases h with
    | @cons _ _ first rest meaning meanings hpart hparts =>
      have hne : parts ≠ [] := by
        rintro rfl
        cases hparts
        exact absurd hlength (by simp)
      match first, hpart.proper.ne_nil with
      | factors :: second :: more, _ =>
        obtain ⟨v, hv, other, hother, hfalse⟩ :=
          hpart.exists_exposed hparts (hparts.readings_ne_nil hne).2 hnodup
        exact ⟨v, hv, other, List.mem_cons_of_mem _ hother, hfalse⟩
      | [factors], _ =>
        have hrest : ¬ AllSingle rest := fun h => hsingle fun alternatives hmem => by
          rcases List.mem_cons.1 hmem with rfl | hmem
          · exact ⟨factors, rfl⟩
          · exact h alternatives hmem
        cases hparts with
        | nil => exact absurd rfl hne
        | @cons next _ second others nextMeaning more hnext hothers =>
          match others, hothers with
          | [], .nil =>
            -- only the last part has several alternatives, so the part in front of it is the victim
            have hsecond : ∀ factors, second ≠ [factors] := by
              rintro factors rfl
              exact hrest (by simp [AllSingle])
            have hatoms : (meaning.atoms ++ nextMeaning.atoms).Nodup := by simpa using hnodup
            obtain ⟨v, hv, hfalse⟩ := hpart.exists_exposed_behind hnext hsecond hatoms
            exact ⟨v, hv, meaning, List.mem_cons_self, hfalse⟩
          | third :: others, hothers =>
            -- the exposed part is further behind, and this one lets its text through
            have hall : ComposesAll dialect _ _ _ := .cons hnext hothers
            have hatoms := (List.nodup_append'.1 hnodup).2.1
            obtain ⟨w, hw, other, hother, hfalse⟩ := ih hall (by simp) hrest hatoms
            obtain ⟨v, hv, hfalse⟩ := hpart.exists_exposed_further hall (List.cons_ne_nil _ _)
              hnodup hw hother hfalse
            exact ⟨v, hv, other, List.mem_cons_of_mem _ hother, hfalse⟩

/-! ### A difference at one place -/

/-- Two lists of values differ at one place, and have a fixed value everywhere else. -/
def DifferAt (b : Bool) (values others : List Bool) : Prop :=
  ∃ before value other after, value ≠ other ∧ (∀ x ∈ before ++ after, x = b) ∧
    values = before ++ value :: after ∧ others = before ++ other :: after

theorem DifferAt.conj_ne {values others : List Bool} (h : DifferAt true values others) :
    conj values ≠ conj others := by
  obtain ⟨before, value, other, after, hne, hall, rfl, rfl⟩ := h
  have hbefore : conj before = _ := conj_eq_top fun x hx => hall x (List.mem_append_left _ hx)
  have hafter : conj after = _ := conj_eq_top fun x hx => hall x (List.mem_append_right _ hx)
  rw [conj_append, conj_append, conj_cons, conj_cons, hbefore, hafter]
  simpa using hne

theorem DifferAt.disj_ne {values others : List Bool} (h : DifferAt false values others) :
    disj values ≠ disj others := by
  obtain ⟨before, value, other, after, hne, hall, rfl, rfl⟩ := h
  have hbefore : disj before = _ := disj_eq_bot fun x hx => hall x (List.mem_append_left _ hx)
  have hafter : disj after = _ := disj_eq_bot fun x hx => hall x (List.mem_append_right _ hx)
  rw [disj_append, disj_append, disj_cons, disj_cons, hbefore, hafter]
  simpa using hne

theorem DifferAt.head {b value other : Bool} {values : List Bool} (h : value ≠ other)
    (hall : ∀ x ∈ values, x = b) : DifferAt b (value :: values) (other :: values) :=
  ⟨[], value, other, values, h, hall, rfl, rfl⟩

theorem DifferAt.cons {b : Bool} {values others : List Bool} (h : DifferAt b values others) :
    DifferAt b (b :: values) (b :: others) := by
  obtain ⟨before, value, other, after, hne, hall, rfl, rfl⟩ := h
  refine ⟨b :: before, value, other, after, hne, ?_, rfl, rfl⟩
  intro x hx
  rcases List.mem_cons.1 hx with rfl | hx
  · rfl
  · exact hall x hx

/-- All conditions can be given the same value, as they are read and as they should mean. -/
theorem ComposesAll.exists_values (h : ComposesAll dialect parts readings meanings)
    (hnodup : (Expr.atomsAll meanings).Nodup) (b : Bool) :
    ∃ v : Occurrence → Bool, readingValues v readings = meanings.map (Expr.eval v) ∧
      ∀ meaning ∈ meanings, meaning.eval v = b := by
  obtain ⟨v, hreadings, hmeanings⟩ := h.exists_all hnodup b
  refine ⟨v, ?_, hmeanings⟩
  have hlength : readings.length = meanings.length := h.length_eq.1.trans h.length_eq.2.symm
  have hleft : readingValues v readings = List.replicate readings.length b := by
    refine List.eq_replicate_iff.2 ⟨by simp [readingValues], fun value hvalue => ?_⟩
    obtain ⟨alternatives, hmem, rfl⟩ := List.mem_map.1 hvalue
    refine eval_ofAlternatives_eq (h.proper alternatives hmem) fun factor hfactor => ?_
    exact hreadings factor (List.mem_flatten_of_mem (List.mem_map_of_mem hmem) hfactor)
  have hright : meanings.map (Expr.eval v) = List.replicate meanings.length b := by
    refine List.eq_replicate_iff.2 ⟨by simp, fun value hvalue => ?_⟩
    obtain ⟨meaning, hmem, rfl⟩ := List.mem_map.1 hvalue
    exact hmeanings meaning hmem
  rw [hleft, hright, hlength]

/-- A conjunction that is not shielded differs from what it should mean, given that a part does
when that is where it is not shielded. -/
theorem ComposesAll.exists_all_ne (h : ComposesAll dialect parts readings meanings)
    (hne : parts ≠ []) (hnodup : (Expr.atomsAll meanings).Nodup)
    (hshielded : ¬ (Condition.all parts).Shielded dialect)
    (hdiffer : ¬ Condition.AllShielded dialect parts → ∃ v : Occurrence → Bool,
      DifferAt true (readingValues v readings) (meanings.map (Expr.eval v))) :
    ∃ v : Occurrence → Bool,
      (Expr.ofAlternatives (glueAll readings)).eval v ≠ (Expr.all meanings).eval v := by
  have hlength := h.length_eq.1
  by_cases hsingle : 2 ≤ readings.length → AllSingle readings
  · -- nothing is exposed at this place, so a part is not shielded, and its difference shows
    have hparts : ¬ Condition.AllShielded dialect parts := fun hall => hshielded <| by
      rw [Condition.Shielded]
      exact ⟨fun h2 => h.allSingle_iff.1 (hsingle (hlength ▸ h2)), hall⟩
    obtain ⟨v, hv⟩ := hdiffer hparts
    refine ⟨v, ?_⟩
    rw [eval_all_reading v (h.readings_ne_nil hne).1 hsingle, Expr.eval_all]
    exact hv.conj_ne
  · obtain ⟨h2, hexposed⟩ := Classical.not_imp.1 hsingle
    obtain ⟨v, hv, meaning, hmem, hfalse⟩ := h.exists_exposed h2 hexposed hnodup
    refine ⟨v, ?_⟩
    have hconj : conj (meanings.map (Expr.eval v)) = false :=
      conj_eq_bot_of_mem (List.mem_map.2 ⟨meaning, hmem, hfalse⟩)
    rw [hv, Expr.eval_all, hconj]
    exact Bool.noConfusion

mutual

/-- **A condition that is not shielded differs from what it should mean** under some assignment. -/
theorem Composes.exists_ne {condition : Condition} {alternatives : Alternatives}
    {meaning : Expr Occurrence} : Composes dialect condition alternatives meaning →
      meaning.atoms.Nodup → ¬ condition.Shielded dialect →
        ∃ v : Occurrence → Bool, (Expr.ofAlternatives alternatives).eval v ≠ meaning.eval v
  | .constant _, _, h => absurd trivial h
  | .test _ _ _, _, h => absurd trivial h
  | .custom _, _, h => absurd trivial h
  | .all hne hparts, hnodup, h => by
    obtain ⟨v, hv⟩ := hparts.exists_all_ne hne hnodup h fun hall =>
      hparts.exists_differ hnodup hall true
    exact ⟨v, by simpa using hv⟩
  | .any hne hparts, hnodup, h => by
    rw [Condition.Shielded] at h
    obtain ⟨v, hv⟩ := hparts.exists_differ hnodup h false
    refine ⟨v, ?_⟩
    change (Expr.ofAlternatives (List.flatten _)).eval v ≠ _
    rw [eval_flatten, Expr.eval_any]
    exact hv.disj_ne
  | .not hpart, hnodup, h => by
    rw [Condition.Shielded] at h
    obtain ⟨v, hv⟩ := hpart.exists_ne hnodup h
    refine ⟨v, fun heq => hv ?_⟩
    change (Expr.not _).eval v = _ at heq
    rw [Expr.eval_not, Expr.eval_not] at heq
    exact compl_injective heq

/-- One of several conditions differs, and the others have a fixed value. -/
theorem ComposesAll.exists_differ {parts : List Condition} {readings : List Alternatives}
    {meanings : List (Expr Occurrence)} : ComposesAll dialect parts readings meanings →
      (Expr.atomsAll meanings).Nodup → ¬ Condition.AllShielded dialect parts → ∀ b : Bool,
        ∃ v : Occurrence → Bool,
          DifferAt b (readingValues v readings) (meanings.map (Expr.eval v))
  | .nil, _, h, _ => absurd trivial h
  | .cons hpart hparts, hnodup, h, b => by
    obtain ⟨hfirst, hrest, hdisjoint⟩ := List.nodup_append'.1 hnodup
    rw [Condition.AllShielded, not_and_or] at h
    rcases h with h | h
    · -- the difference is at the first condition, and the others take the value `b`
      obtain ⟨v, hv⟩ := hpart.exists_ne hfirst h
      obtain ⟨w, hw, hb⟩ := hparts.exists_values hrest b
      obtain ⟨u, huv, huw⟩ := exists_agree hdisjoint v w
      refine ⟨u, ?_⟩
      rw [readingValues_cons, hpart.eval_congr huv, hparts.map_eval_congr huw, List.map_cons,
        Expr.eval_congr _ huv, Expr.map_eval_congr _ huw, hw]
      refine DifferAt.head hv fun value hvalue => ?_
      obtain ⟨other, hother, rfl⟩ := List.mem_map.1 hvalue
      exact hb other hother
    · -- it is further behind, and the first one takes the value `b`
      obtain ⟨w, hw⟩ := hparts.exists_differ hrest h b
      obtain ⟨v, hv, hb⟩ := hpart.exists_all hfirst b
      obtain ⟨u, huv, huw⟩ := exists_agree hdisjoint v w
      have hreading := eval_ofAlternatives_eq hpart.proper hv
      refine ⟨u, ?_⟩
      rw [readingValues_cons, hpart.eval_congr huv, hparts.map_eval_congr huw, List.map_cons,
        Expr.eval_congr _ huv, Expr.map_eval_congr _ huw, hreading, hb]
      exact hw.cons

end

/-- Every assignment agrees with one that fixes the constants, away from the constants. -/
theorem exists_fixesConstants (v : Occurrence → Bool) {atoms : List Occurrence}
    (h : ∀ value, constantTrees value ∉ atoms.map Occurrence.operand) :
    ∃ u : Occurrence → Bool, FixesConstants u ∧ ∀ a ∈ atoms, u a = v a := by
  classical
  let truth : Occurrence := ⟨constantTrees true, 0⟩
  let falsity : Occurrence := ⟨constantTrees false, 0⟩
  let fixed : Occurrence → Bool := fun a => if a = truth then true else false
  have hdisjoint : [truth, falsity].Disjoint atoms := by
    intro a ha hatoms
    have hmem : a.operand ∈ atoms.map Occurrence.operand := List.mem_map_of_mem hatoms
    simp only [List.mem_cons, List.not_mem_nil, or_false] at ha
    rcases ha with rfl | rfl
    · exact h true hmem
    · exact h false hmem
  obtain ⟨u, hfixed, hv⟩ := exists_agree hdisjoint fixed v
  have htrue : u truth = true := (hfixed truth (by simp)).trans (if_pos rfl)
  have hne : falsity ≠ truth := by simp [falsity, truth, constantTrees, wordTree]
  have hfalse : u falsity = false := (hfixed falsity (by simp)).trans (if_neg hne)
  exact ⟨u, ⟨htrue, hfalse⟩, hv⟩

/-- **What always means what it should is shielded**, if no comparison occurs twice and no constant
is among them. -/
theorem Composes.shielded_of_eval_eq (h : Composes dialect condition alternatives meaning)
    (hnodup : meaning.atoms.Nodup)
    (hconstants : ∀ value, constantTrees value ∉ meaning.atoms.map Occurrence.operand)
    (heval : ∀ v : Occurrence → Bool, FixesConstants v →
      (Expr.ofAlternatives alternatives).eval v = meaning.eval v) :
    condition.Shielded dialect := by
  by_contra hshielded
  obtain ⟨v, hv⟩ := h.exists_ne hnodup hshielded
  obtain ⟨u, hfixes, huv⟩ := exists_fixesConstants v hconstants
  refine hv ?_
  calc (Expr.ofAlternatives alternatives).eval v
      = (Expr.ofAlternatives alternatives).eval u := (h.eval_congr huv).symm
    _ = meaning.eval u := heval u hfixes
    _ = meaning.eval v := Expr.eval_congr meaning huv

end Criteria.Sql
