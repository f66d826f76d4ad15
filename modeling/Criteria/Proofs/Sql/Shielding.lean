import Criteria.Proofs.Sql.Occurrence
import Criteria.Proofs.Sql.Reading

/-!
# When custom texts keep their place

What a custom filter writes is spliced into the text as it stands. Its alternatives are safe below a
disjunction, below a negation and by themselves. In a conjunction with other parts the last of them
is joined to what follows and the first one to what comes before, so `x AND a OR b` does not mean
what `x` and `a OR b` mean together.

A condition is *shielded* if no conjunction of several parts has such a part. Then its text means
what it should.

* `Composes` — the alternatives that a condition reads as, and what it should mean: the connectives
  of the condition over what its leaves say each by itself;
* `Condition.Shielded` — every part of a conjunction of several parts reads as one alternative;
* `Composes.eval_eq` — shielded conditions mean what they should, in every bounded lattice;
* `ComposesAll.allOf`, `ComposesAll.anyOf` — what spliced conditions should mean, when the constants
  are what they are written for.
-/

namespace Criteria.Sql

/-! ### Conditions and what they should mean -/

/-- Alternatives of a text whose operands may be anything. -/
abbrev Alternatives := List (List (Expr Occurrence))

/-- Alternatives without the parameters that their comparisons take. -/
abbrev Alternatives.spelled (alternatives : Alternatives) : List (List (Expr Operand)) :=
  Expr.mapAlternatives Occurrence.operand alternatives

/-- The constant that an empty connective is written as. -/
def constantExpr (value : Bool) : Expr Occurrence := .atom ⟨constantTrees value, 0⟩

mutual

/-- A condition reads as alternatives, and it should mean an expression: its own connectives over
what its leaves say each by itself. -/
inductive Composes (dialect : Dialect) : Condition → Alternatives → Expr Occurrence → Prop
  | constant (value : Bool) :
    Composes dialect (.constant value) [[constantExpr value]] (constantExpr value)
  | test (reference : String) (check : Test) (param : Nat) :
    Composes dialect (.test reference check) [[.atom ⟨check.trees dialect reference, param⟩]]
      (.atom ⟨check.trees dialect reference, param⟩)
  | custom {inserts : List Insert} {alternatives : Alternatives} :
    reading? some dialect (Condition.customText dialect inserts) = some alternatives.spelled →
      Composes dialect (.custom inserts) alternatives (.ofAlternatives alternatives)
  | all {parts : List Condition} {readings : List Alternatives} {meanings : List (Expr Occurrence)} :
    parts ≠ [] → ComposesAll dialect parts readings meanings →
      Composes dialect (.all parts) [[.ofAlternatives (glueAll readings)]] (.all meanings)
  | any {parts : List Condition} {readings : List Alternatives} {meanings : List (Expr Occurrence)} :
    parts ≠ [] → ComposesAll dialect parts readings meanings →
      Composes dialect (.any parts) [[.ofAlternatives readings.flatten]] (.any meanings)
  | not {part : Condition} {alternatives : Alternatives} {meaning : Expr Occurrence} :
    Composes dialect part alternatives meaning →
      Composes dialect (.not part) [[.not (.ofAlternatives alternatives)]] (.not meaning)

/-- Conditions read as alternatives and should mean expressions, in turn. -/
inductive ComposesAll (dialect : Dialect) :
    List Condition → List Alternatives → List (Expr Occurrence) → Prop
  | nil : ComposesAll dialect [] [] []
  | cons {part : Condition} {parts : List Condition} {alternatives : Alternatives}
      {readings : List Alternatives} {meaning : Expr Occurrence} {meanings : List (Expr Occurrence)} :
    Composes dialect part alternatives meaning → ComposesAll dialect parts readings meanings →
      ComposesAll dialect (part :: parts) (alternatives :: readings) (meaning :: meanings)

end

variable {dialect : Dialect}

mutual

/-- What a condition reads as is what the reader finds. -/
theorem Composes.reading {condition : Condition} {alternatives : Alternatives}
    {meaning : Expr Occurrence} : Composes dialect condition alternatives meaning →
      condition.reading? some dialect = some alternatives.spelled
  | .constant value => by rw [Condition.reading?]; rfl
  | .test reference check param => by rw [Condition.reading?]; rfl
  | .custom h => by rw [Condition.reading?, h]
  | .all hne hparts => by
    rw [Condition.reading?_all, Condition.conjoined?_of_readings hparts.readings hne,
      ← Expr.mapAlternatives_glueAll, Option.map_some, ← Expr.map_ofAlternatives]
    rfl
  | .any hne hparts => by
    rw [Condition.reading?_any, Condition.disjoined?_of_readings hparts.readings hne,
      ← Expr.mapAlternatives_flatten, Option.map_some, ← Expr.map_ofAlternatives]
    rfl
  | .not hpart => by
    rw [Condition.reading?, hpart.reading, Option.map_some, ← Expr.map_ofAlternatives,
      ← Expr.map_not]
    rfl

theorem ComposesAll.readings {parts : List Condition} {readings : List Alternatives}
    {meanings : List (Expr Occurrence)} : ComposesAll dialect parts readings meanings →
      Condition.Readings some dialect parts (readings.map Alternatives.spelled)
  | .nil => .nil
  | .cons hpart hparts => .cons hpart.reading hparts.readings

end

theorem ComposesAll.length_eq {parts : List Condition} {readings : List Alternatives}
    {meanings : List (Expr Occurrence)} : ComposesAll dialect parts readings meanings →
      readings.length = parts.length ∧ meanings.length = parts.length
  | .nil => ⟨rfl, rfl⟩
  | .cons _ hparts => by
    obtain ⟨hreadings, hmeanings⟩ := hparts.length_eq
    simp [hreadings, hmeanings]

theorem ComposesAll.readings_ne_nil {parts : List Condition} {readings : List Alternatives}
    {meanings : List (Expr Occurrence)} (h : ComposesAll dialect parts readings meanings)
    (hne : parts ≠ []) : readings ≠ [] ∧ meanings ≠ [] := by
  cases h with
  | nil => exact absurd rfl hne
  | cons hpart hparts => simp

mutual

/-- No connective of what a condition reads as stands without parts. -/
theorem Composes.proper {condition : Condition} {alternatives : Alternatives}
    {meaning : Expr Occurrence} : Composes dialect condition alternatives meaning →
      ProperAlternatives alternatives
  | .constant _ => .singleton trivial
  | .test _ _ _ => .singleton trivial
  | .custom h => (proper_reading h).of_map
  | .all hne hparts =>
    .singleton (proper_ofAlternatives
      (.glueAll (hparts.readings_ne_nil hne).1 hparts.proper))
  | .any hne hparts =>
    .singleton (proper_ofAlternatives
      (.flatten (hparts.readings_ne_nil hne).1 hparts.proper))
  | .not hpart => by
    have hproper : (Expr.not _).Proper := proper_ofAlternatives hpart.proper
    exact .singleton hproper

theorem ComposesAll.proper {parts : List Condition} {readings : List Alternatives}
    {meanings : List (Expr Occurrence)} : ComposesAll dialect parts readings meanings →
      ∀ alternatives ∈ readings, ProperAlternatives alternatives
  | .nil => by simp
  | .cons hpart hparts => by
    intro alternatives h
    rcases List.mem_cons.1 h with rfl | h
    · exact hpart.proper
    · exact hparts.proper alternatives h

end

mutual

/-- What a condition reads as has the comparisons of what it should mean, in the same order. -/
theorem Composes.atoms {condition : Condition} {alternatives : Alternatives}
    {meaning : Expr Occurrence} : Composes dialect condition alternatives meaning →
      Expr.atomsAll alternatives.flatten = meaning.atoms
  | .constant _ => rfl
  | .test _ _ _ => rfl
  | .custom _ => by rw [Expr.atoms_ofAlternatives]
  | .all _ hparts => by simpa using hparts.atoms
  | .any _ hparts => by
    have hatoms := hparts.atoms
    -- the alternatives of all parts in one list have the factors of the parts one after the other
    rw [← List.flatten_flatten] at hatoms
    simpa using hatoms
  | .not hpart => by simpa using hpart.atoms

theorem ComposesAll.atoms {parts : List Condition} {readings : List Alternatives}
    {meanings : List (Expr Occurrence)} : ComposesAll dialect parts readings meanings →
      Expr.atomsAll (readings.map List.flatten).flatten = Expr.atomsAll meanings
  | .nil => rfl
  | .cons hpart hparts => by
    rw [List.map_cons, List.flatten_cons, Expr.atomsAll_append, hpart.atoms, hparts.atoms]
    rfl

end

/-! ### Shielded conditions -/

mutual

/-- No conjunction of several parts has a part with several alternatives, which would not be kept
together. -/
def Condition.Shielded (dialect : Dialect) : Condition → Prop
  | .constant _ => True
  | .test _ _ => True
  | .custom _ => True
  | .all parts =>
    (2 ≤ parts.length →
      ∀ part ∈ parts, ∃ factors, part.reading? (some : List Tree → Option Operand) dialect =
        some [factors]) ∧
    AllShielded dialect parts
  | .any parts => AllShielded dialect parts
  | .not part => Shielded dialect part

/-- All conditions of a list are shielded. -/
def Condition.AllShielded (dialect : Dialect) : List Condition → Prop
  | [] => True
  | part :: parts => Condition.Shielded dialect part ∧ Condition.AllShielded dialect parts

end

/-- Whether all readings are one alternative each. -/
def AllSingle (readings : List Alternatives) : Prop :=
  ∀ alternatives ∈ readings, ∃ factors, alternatives = [factors]

theorem ComposesAll.allSingle_iff {parts : List Condition} {readings : List Alternatives}
    {meanings : List (Expr Occurrence)} (h : ComposesAll dialect parts readings meanings) :
    AllSingle readings ↔ ∀ part ∈ parts, ∃ factors,
      part.reading? (some : List Tree → Option Operand) dialect = some [factors] := by
  induction parts generalizing readings meanings with
  | nil =>
    cases h
    simp [AllSingle]
  | cons part parts ih =>
    cases h with
    | @cons _ _ first _ _ _ hpart hparts =>
      -- a reading is one alternative whatever parameters its comparisons take
      have hfirst : (∃ factors, first = [factors]) ↔ ∃ factors,
          part.reading? (some : List Tree → Option Operand) dialect = some [factors] := by
        rw [hpart.reading]
        simp [Alternatives.spelled, Expr.mapAlternatives, List.map_eq_singleton_iff]
      unfold AllSingle
      rw [List.forall_mem_cons, List.forall_mem_cons]
      exact and_congr hfirst (ih hparts)

section Values

variable {β : Type} [Lattice β] [BoundedOrder β] [Compl β] (v : Occurrence → β)

/-- The values of conditions as they are read. -/
def readingValues (readings : List Alternatives) : List β :=
  readings.map fun alternatives => (Expr.ofAlternatives alternatives).eval v

@[simp] theorem readingValues_cons (alternatives : Alternatives) (readings : List Alternatives) :
    readingValues v (alternatives :: readings) =
      (Expr.ofAlternatives alternatives).eval v :: readingValues v readings := rfl

/-- Alternatives next to each other are the disjunction of what they say. -/
theorem eval_flatten (readings : List Alternatives) :
    (Expr.ofAlternatives readings.flatten).eval v = disj (readingValues v readings) := by
  induction readings with
  | nil => rfl
  | cons alternatives readings ih =>
    have happend := Expr.eval_ofAlternatives v (alternatives ++ readings.flatten)
    rw [List.map_append, disj_append, ← Expr.eval_ofAlternatives,
      ← Expr.eval_ofAlternatives] at happend
    calc (Expr.ofAlternatives (alternatives :: readings).flatten).eval v
        = (Expr.ofAlternatives alternatives).eval v ⊔
            (Expr.ofAlternatives readings.flatten).eval v := happend
      _ = disj (readingValues v (alternatives :: readings)) := by
          rw [ih, readingValues_cons, disj_cons]

/-- Single alternatives run together into the conjunction of what they say. -/
theorem eval_glueAll {readings : List Alternatives} (hne : readings ≠ [])
    (h : AllSingle readings) :
    (Expr.ofAlternatives (glueAll readings)).eval v = conj (readingValues v readings) := by
  -- each reading is one list of factors, and glueing puts these lists together
  obtain ⟨factors, rfl⟩ : ∃ factors : List (List (Expr Occurrence)),
      readings = factors.map fun item => [item] := by
    clear hne
    induction readings with
    | nil => exact ⟨[], rfl⟩
    | cons first readings ih =>
      obtain ⟨item, rfl⟩ := h first List.mem_cons_self
      obtain ⟨items, rfl⟩ := ih fun other hother => h other (List.mem_cons_of_mem _ hother)
      exact ⟨item :: items, rfl⟩
  rw [glueAll_map_singleton (by simpa using hne), Expr.ofAlternatives_singleton,
    Expr.eval_conjunction, readingValues, List.map_map]
  clear hne h
  induction factors with
  | nil => rfl
  | cons item items ih =>
    rw [List.flatten_cons, List.map_append, conj_append, ih, List.map_cons, conj_cons]
    simp [Function.comp_apply]

/-- The value of a conjunction of conditions as it is read. -/
theorem eval_all_reading {readings : List Alternatives} (hne : readings ≠ [])
    (h : 2 ≤ readings.length → AllSingle readings) :
    (Expr.ofAlternatives (glueAll readings)).eval v = conj (readingValues v readings) := by
  match readings with
  | [] => exact absurd rfl hne
  | [alternatives] => simp [readingValues]
  | first :: second :: rest => exact eval_glueAll v (by simp) (h (by simp))

mutual

/-- **A shielded condition means what it should.** -/
theorem Composes.eval_eq {condition : Condition} {alternatives : Alternatives}
    {meaning : Expr Occurrence} : Composes dialect condition alternatives meaning →
      condition.Shielded dialect →
        (Expr.ofAlternatives alternatives).eval v = meaning.eval v
  | .constant _, _ => rfl
  | .test _ _ _, _ => rfl
  | .custom _, _ => rfl
  | .all hne hparts, hshielded => by
    rw [Condition.Shielded] at hshielded
    have hlength := hparts.length_eq.1
    -- nothing runs together: there is one part, or all parts are one alternative each
    have hsingle := fun h2 => hparts.allSingle_iff.2 (hshielded.1 (hlength ▸ h2))
    have hreadings := eval_all_reading v (hparts.readings_ne_nil hne).1 hsingle
    have hmeanings := hparts.map_eval_eq hshielded.2
    calc (Expr.ofAlternatives [[.ofAlternatives (glueAll _)]]).eval v
        = conj (readingValues v _) := hreadings
      _ = (Expr.all _).eval v := by rw [hmeanings, Expr.eval_all]
  | .any _ hparts, hshielded => by
    rw [Condition.Shielded] at hshielded
    have hmeanings := hparts.map_eval_eq hshielded
    calc (Expr.ofAlternatives [[.ofAlternatives (List.flatten _)]]).eval v
        = disj (readingValues v _) := eval_flatten v _
      _ = (Expr.any _).eval v := by rw [hmeanings, Expr.eval_any]
  | .not hpart, hshielded => by
    rw [Condition.Shielded] at hshielded
    change (Expr.not _).eval v = _
    rw [Expr.eval_not, Expr.eval_not, hpart.eval_eq hshielded]

theorem ComposesAll.map_eval_eq {parts : List Condition} {readings : List Alternatives}
    {meanings : List (Expr Occurrence)} : ComposesAll dialect parts readings meanings →
      Condition.AllShielded dialect parts →
        readingValues v readings = meanings.map (Expr.eval v)
  | .nil, _ => rfl
  | .cons hpart hparts, hshielded => by
    rw [Condition.AllShielded] at hshielded
    rw [List.map_cons, ← hpart.eval_eq hshielded.1, ← hparts.map_eval_eq hshielded.2]
    rfl

end

end Values

/-! ### Spliced conditions -/

/-- An assignment under which the constants are what they are written for. -/
def FixesConstants {β : Type} [Lattice β] [BoundedOrder β] (v : Occurrence → β) : Prop :=
  v ⟨constantTrees true, 0⟩ = ⊤ ∧ v ⟨constantTrees false, 0⟩ = ⊥

/-- Expressions that have the same value whenever the constants are what they are written for, in
every logic. -/
def Agree (first second : Expr Occurrence) : Prop :=
  ∀ (β : Type) [Lattice β] [BoundedOrder β] [Compl β] (v : Occurrence → β), FixesConstants v →
    first.eval v = second.eval v

namespace Agree

variable {first second third : Expr Occurrence} {firsts seconds : List (Expr Occurrence)}

theorem refl (expression : Expr Occurrence) : Agree expression expression := fun _ _ _ _ _ _ => rfl

theorem trans (h : Agree first second) (h' : Agree second third) : Agree first third :=
  fun β _ _ _ v hv => (h β v hv).trans (h' β v hv)

theorem not (h : Agree first second) : Agree (.not first) (.not second) := fun β _ _ _ v hv => by
  rw [Expr.eval_not, Expr.eval_not, h β v hv]

theorem map_eval_eq (h : List.Forall₂ Agree firsts seconds) {β : Type} [Lattice β]
    [BoundedOrder β] [Compl β] {v : Occurrence → β} (hv : FixesConstants v) :
    firsts.map (Expr.eval v) = seconds.map (Expr.eval v) := by
  induction h with
  | nil => rfl
  | cons hfirst _ ih => rw [List.map_cons, List.map_cons, hfirst β v hv, ih]

theorem all (h : List.Forall₂ Agree firsts seconds) : Agree (.all firsts) (.all seconds) :=
  fun β _ _ _ v hv => by rw [Expr.eval_all, Expr.eval_all, map_eval_eq h hv]

theorem any (h : List.Forall₂ Agree firsts seconds) : Agree (.any firsts) (.any seconds) :=
  fun β _ _ _ v hv => by rw [Expr.eval_any, Expr.eval_any, map_eval_eq h hv]

end Agree

section Spliced

variable {parts : List Condition} {readings : List Alternatives} {meanings : List (Expr Occurrence)}

/-- The conjunction of conditions should mean the conjunction of what they should mean, also if it
is written as a constant or as its single part. It takes the parameters that they take. -/
theorem ComposesAll.allOf (h : ComposesAll dialect parts readings meanings) :
    ∃ alternatives meaning, Composes dialect (.allOf parts) alternatives meaning ∧
      Agree meaning (.all meanings) ∧ ∀ taken count,
        Takes dialect taken count (Expr.atomsAll meanings) →
          Takes dialect taken count meaning.atoms := by
  match h with
  | .nil =>
    refine ⟨_, _, .constant true, fun β _ _ _ v hv => ?_, fun taken count htakes => ?_⟩
    · rw [constantExpr, Expr.eval_atom, hv.1]
      rfl
    · obtain rfl := htakes.count_eq_zero
      exact .constant true
  | .cons hpart .nil =>
    refine ⟨_, _, hpart, fun β _ _ _ v _ => ?_, fun taken count htakes => ?_⟩
    · rw [Expr.eval_all]
      exact (conj_singleton _).symm
    · simpa using htakes
  | .cons hpart (.cons hnext hparts) =>
    exact ⟨_, _, .all (List.cons_ne_nil _ _) (.cons hpart (.cons hnext hparts)), .refl _,
      fun taken count htakes => htakes⟩

/-- The same for the disjunction. -/
theorem ComposesAll.anyOf (h : ComposesAll dialect parts readings meanings) :
    ∃ alternatives meaning, Composes dialect (.anyOf parts) alternatives meaning ∧
      Agree meaning (.any meanings) ∧ ∀ taken count,
        Takes dialect taken count (Expr.atomsAll meanings) →
          Takes dialect taken count meaning.atoms := by
  match h with
  | .nil =>
    refine ⟨_, _, .constant false, fun β _ _ _ v hv => ?_, fun taken count htakes => ?_⟩
    · rw [constantExpr, Expr.eval_atom, hv.2]
      rfl
    · obtain rfl := htakes.count_eq_zero
      exact .constant false
  | .cons hpart .nil =>
    refine ⟨_, _, hpart, fun β _ _ _ v _ => ?_, fun taken count htakes => ?_⟩
    · rw [Expr.eval_any]
      exact (disj_singleton _).symm
    · simpa using htakes
  | .cons hpart (.cons hnext hparts) =>
    exact ⟨_, _, .any (List.cons_ne_nil _ _) (.cons hpart (.cons hnext hparts)), .refl _,
      fun taken count htakes => htakes⟩

end Spliced

end Criteria.Sql
