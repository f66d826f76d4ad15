import Criteria.Proofs.Filter.Structure
import Criteria.Proofs.Sql.Exposure

/-!
# How custom texts compose with the rest of a filter

A custom filter answers with a text of its own, which the compiler splices into the text of the
whole as it stands. The whole should mean the boolean combination of what the leaves say alone:
`combination?` computes it from the filter, and reads each leaf from a text that has nothing else
in it.

The text says so below a disjunction and below a negation. It does not say so in a conjunction, when
the custom text has an `OR` outside parentheses: `x AND a OR b` is read as `(x AND a) OR b`. So the
text means the combination if the compiled condition is shielded from this, and only then, unless
comparisons are repeated that make up for the difference.

* `combination?` — what a filter should mean;
* `ReadableCustoms` — every custom text is a condition that can be read alone;
* `Lowers.composes` — what a compiled filter reads as, next to what it should mean;
* `compile_composes` — when the two are the same.
-/

namespace Criteria.Filter

open Sql (Agree Alternatives Composes ComposesAll Condition FixesConstants Locates Occurrence Operand
  Takes constantTrees)

/-! ### The combination of the leaves -/

section Combination

variable (scope : Scope) (dialect : Dialect)

/-- What the text of a filter says if the filter is compiled alone, and the number of values it
binds. -/
def alone? (bound : Nat) (filter : Filter) : Option (Expr Operand × Nat) :=
  match lower scope bound filter with
  | .ok (.sql condition, values) =>
    (Sql.expression? some dialect (condition.text dialect).toList).map fun meaning =>
      (meaning, values.length)
  | _ => none

mutual

/-- What a filter should mean, behind `bound` other values: the connectives of the filter over what
its leaves say alone. -/
def combination? (bound : Nat) : Filter → Option (Expr Operand × Nat)
  | .all parts => (combinations? bound parts).map fun (meanings, count) => (.all meanings, count)
  | .any parts => (combinations? bound parts).map fun (meanings, count) => (.any meanings, count)
  | .not part => (combination? bound part).map fun (meaning, count) => (.not meaning, count)
  | .field name op operand => alone? scope dialect bound (.field name op operand)
  | .custom name key operand => alone? scope dialect bound (.custom name key operand)

/-- What filters should mean, their values numbered one after the other. -/
def combinations? (bound : Nat) : List Filter → Option (List (Expr Operand) × Nat)
  | [] => some ([], 0)
  | part :: parts =>
    (combination? bound part).bind fun (meaning, count) =>
      (combinations? (bound + count) parts).map fun (meanings, others) =>
        (meaning :: meanings, count + others)

end

/-- Every text that a custom filter of the scope answers with can be read by itself. -/
def ReadableCustoms : Prop :=
  ∀ name key answer operand pieces, scope.custom.get? scope.entity name key = some answer →
    answer (customCall scope name operand) = .ok (.sql pieces) → ∀ bound,
      (Sql.expression? (some : Operand → Option Operand) dialect
        (Condition.customText dialect (bindPieces bound pieces).1)).isSome

end Combination

variable {scope : Scope} {dialect : Dialect}

/-! ### Leaves -/

/-- A leaf should mean what its own text says. -/
theorem alone?_of_composes {bound : Nat} {filter : Filter} {condition : Condition}
    {values : List Json} {alternatives : Alternatives}
    (hlower : lower scope bound filter = .ok (.sql condition, values))
    (hsuits : condition.suits dialect)
    (h : Composes dialect condition alternatives (.ofAlternatives alternatives)) :
    alone? scope dialect bound filter =
      some ((Expr.ofAlternatives alternatives).map Occurrence.operand, values.length) := by
  rw [alone?, hlower]
  dsimp only
  rw [Condition.expression?_text hsuits h.reading, Option.map_some, Expr.map_ofAlternatives]

/-- A built-in leaf is one operand. -/
theorem combination?_field (hadapter : scope.adapter = .sql dialect) {bound : Nat} {name : String}
    {op : Operator} {operand : Json} {declared : Field} {condition : Condition}
    {values : List Json} (hdeclared : scope.field? name = some declared)
    (hlegal : scope.registry.isLegal declared.kind scope.adapter op = true)
    (hleaf : Sql.leaf dialect bound declared op operand = .ok (condition, values)) (taken : Nat) :
    ∃ occurrence count, Composes dialect condition [[.atom occurrence]] (.atom occurrence) ∧
      combination? scope dialect bound (.field name op operand) =
        some (.atom occurrence.operand, values.length) ∧
      Takes dialect taken count [occurrence] := by
  have hlower := lower_field hadapter hdeclared hlegal hleaf
  have hsuits := (Lowers.field hdeclared hlegal hleaf).suits
  have hcomposes : ∃ occurrence count,
      Composes dialect condition [[.atom occurrence]] (.atom occurrence) ∧
        Takes dialect taken count [occurrence] := by
    rcases Sql.leaf_eq_ok hleaf with ⟨value, rfl, -⟩ | ⟨check, rfl, -⟩
    · exact ⟨_, _, .constant value, .constant value⟩
    · have htakes := Sql.takes_number dialect taken [check.trees dialect declared.reference]
      exact ⟨_, _, .test declared.reference check _, htakes⟩
  obtain ⟨occurrence, count, hcomposes, htakes⟩ := hcomposes
  have halone := alone?_of_composes hlower hsuits hcomposes
  exact ⟨occurrence, count, hcomposes, by rw [combination?]; exact halone, htakes⟩

/-- A custom leaf is whatever its text says. -/
theorem combination?_custom (hadapter : scope.adapter = .sql dialect)
    (hcustoms : ReadableCustoms scope dialect) {bound : Nat} {name key : String} {operand : Json}
    {answer : CustomFilter} {pieces : List CustomPiece}
    (hanswer : scope.custom.get? scope.entity name key = some answer)
    (hpieces : answer (customCall scope name operand) = .ok (.sql pieces)) (taken : Nat) :
    ∃ (alternatives : Alternatives) (count : Nat),
      Composes dialect (.custom (bindPieces bound pieces).1) alternatives
        (.ofAlternatives alternatives) ∧
      combination? scope dialect bound (.custom name key operand) =
        some ((Expr.ofAlternatives alternatives).map Occurrence.operand,
          (bindPieces bound pieces).2.length) ∧
      Takes dialect taken count (Expr.ofAlternatives alternatives).atoms := by
  have hlower : lower scope bound (.custom name key operand) = _ :=
    lower_custom hadapter hanswer hpieces
  have hreadable := hcustoms name key answer operand pieces hanswer hpieces bound
  obtain ⟨whole, hwhole⟩ := Option.isSome_iff_exists.1 hreadable
  obtain ⟨spelled, hreading, -⟩ := Option.map_eq_some_iff.1 hwhole
  -- the comparisons of the text take their parameters behind those taken before
  have hmap := Sql.map_operand_number dialect (Expr.atomsAll spelled.flatten) taken
  have htakes := Sql.takes_number dialect taken (Expr.atomsAll spelled.flatten)
  obtain ⟨alternatives, rfl, hatoms⟩ := Expr.exists_mapAlternatives_eq spelled hmap
  have hcomposes := Composes.custom hreading
  have hlowers : Lowers scope dialect bound (.custom name key operand) _ _ :=
    .custom hanswer hpieces
  rw [← hatoms] at htakes
  refine ⟨alternatives, _, hcomposes, ?_, by rw [Expr.atoms_ofAlternatives]; exact htakes⟩
  rw [combination?]
  exact alone?_of_composes hlower hlowers.suits hcomposes

/-! ### What a compiled filter means -/

mutual

/-- **A compiled filter should mean the combination of its leaves.** Both take the same parameters
by position, from left to right. -/
theorem Lowers.composes (hadapter : scope.adapter = .sql dialect)
    (hcustoms : ReadableCustoms scope dialect) {bound : Nat} {filter : Filter}
    {condition : Condition} {values : List Json} :
    Lowers scope dialect bound filter condition values → ∀ taken,
      ∃ alternatives meaning combination count, Composes dialect condition alternatives meaning ∧
        combination? scope dialect bound filter =
          some (combination.map Occurrence.operand, values.length) ∧
        Agree meaning combination ∧ Takes dialect taken count meaning.atoms ∧
        Takes dialect taken count combination.atoms
  | .all hparts, taken => by
    obtain ⟨_, _, combinations, count, hcomposes, hcombinations, hagree, htakes, htakes'⟩ :=
      hparts.composesAll hadapter hcustoms taken
    obtain ⟨alternatives, meaning, hwhole, hmeaning, hatoms⟩ := hcomposes.allOf
    refine ⟨alternatives, meaning, .all combinations, count, hwhole, ?_,
      hmeaning.trans (.all hagree), hatoms taken count htakes, htakes'⟩
    rw [combination?, hcombinations, Option.map_some, Expr.map_all]
  | .any hparts, taken => by
    obtain ⟨_, _, combinations, count, hcomposes, hcombinations, hagree, htakes, htakes'⟩ :=
      hparts.composesAll hadapter hcustoms taken
    obtain ⟨alternatives, meaning, hwhole, hmeaning, hatoms⟩ := hcomposes.anyOf
    refine ⟨alternatives, meaning, .any combinations, count, hwhole, ?_,
      hmeaning.trans (.any hagree), hatoms taken count htakes, htakes'⟩
    rw [combination?, hcombinations, Option.map_some, Expr.map_any]
  | .not hpart, taken => by
    obtain ⟨_, meaning, combination, count, hcomposes, hcombination, hagree, htakes, htakes'⟩ :=
      hpart.composes hadapter hcustoms taken
    refine ⟨_, .not meaning, .not combination, count, .not hcomposes, ?_, hagree.not, htakes,
      htakes'⟩
    rw [combination?, hcombination, Option.map_some, Expr.map_not]
  | .field hdeclared hlegal hleaf, taken => by
    obtain ⟨occurrence, count, hcomposes, hcombination, htakes⟩ :=
      combination?_field hadapter hdeclared hlegal hleaf taken
    exact ⟨_, _, .atom occurrence, count, hcomposes, hcombination, .refl _, htakes, htakes⟩
  | .custom hanswer hpieces, taken => by
    obtain ⟨alternatives, count, hcomposes, hcombination, htakes⟩ :=
      combination?_custom hadapter hcustoms hanswer hpieces taken
    exact ⟨_, _, _, count, hcomposes, hcombination, .refl _, htakes, htakes⟩

theorem LowersAll.composesAll (hadapter : scope.adapter = .sql dialect)
    (hcustoms : ReadableCustoms scope dialect) {bound : Nat} {parts : List Filter}
    {conditions : List Condition} {values : List Json} :
    LowersAll scope dialect bound parts conditions values → ∀ taken,
      ∃ readings meanings combinations count, ComposesAll dialect conditions readings meanings ∧
        combinations? scope dialect bound parts =
          some (combinations.map (Expr.map Occurrence.operand), values.length) ∧
        List.Forall₂ Agree meanings combinations ∧
        Takes dialect taken count (Expr.atomsAll meanings) ∧
        Takes dialect taken count (Expr.atomsAll combinations)
  | .nil, _ => ⟨[], [], [], 0, .nil, by rw [combinations?]; rfl, .nil, .nil, .nil⟩
  | .cons hpart hparts, taken => by
    obtain ⟨_, _, combination, count, hcomposes, hcombination, hagree, htakes, htakes'⟩ :=
      hpart.composes hadapter hcustoms taken
    -- the parts behind it take what is left
    obtain ⟨_, _, combinations, more, hcomposesAll, hcombinations, hagreeAll, htakesAll,
      htakesAll'⟩ := hparts.composesAll hadapter hcustoms (taken + count)
    refine ⟨_, _, combination :: combinations, count + more, .cons hcomposes hcomposesAll, ?_,
      .cons hagree hagreeAll, htakes.append htakesAll, htakes'.append htakesAll'⟩
    rw [combinations?, hcombination, Option.bind_some]
    dsimp only
    rw [hcombinations, Option.map_some, List.length_append, List.map_cons]

end

/-- **A text means the combination of its leaves if no conjunction splices a disjunction, and only
then.** Custom filters may answer with any text that can be read. The text of the whole can be read
too, and it has the comparisons of the leaves. It has the value of the combination under every
assignment to the comparisons, in two-valued logic as in Kleene's, if its condition is shielded.
Conversely, a filter whose comparisons are all different has the value of the combination under all
two-valued assignments only if its condition is shielded. -/
theorem compile_composes {filter : Filter} {predicate : Predicate}
    (hadapter : scope.adapter = .sql dialect) (hcustoms : ReadableCustoms scope dialect)
    (h : filter.compile scope = .ok predicate) :
    ∃ (condition : Condition) (sql : String) (text leaves : Expr Operand)
      (read combination : Expr Occurrence),
      predicate.fragment = .sql condition ∧ predicate.sql? = some sql ∧
      Sql.expression? some dialect sql.toList = some text ∧ Locates dialect read text ∧
      filter.combination? scope dialect 0 = some (leaves, predicate.params.length) ∧
      Locates dialect combination leaves ∧
      (condition.Shielded dialect → Agree read combination) ∧
      (read.atoms.Nodup → (∀ value, constantTrees value ∉ text.atoms) →
        (∀ v : Occurrence → Bool, FixesConstants v → read.eval v = combination.eval v) →
          condition.Shielded dialect) := by
  obtain ⟨condition, hlowers, hpredicate⟩ := compile_eq_ok hadapter h
  obtain ⟨alternatives, meaning, combination, count, hcomposes, hcombination, hagree, htakes,
    htakes'⟩ := hlowers.composes hadapter hcustoms 0
  have htext := Condition.expression?_text hlowers.suits hcomposes.reading
  rw [← Expr.map_ofAlternatives] at htext
  have hatoms : (Expr.ofAlternatives alternatives).atoms = meaning.atoms := by
    rw [Expr.atoms_ofAlternatives, hcomposes.atoms]
  have hread : Locates dialect (.ofAlternatives alternatives)
      ((Expr.ofAlternatives alternatives).map Occurrence.operand) :=
    ⟨rfl, by rw [Expr.atoms_map, hatoms, ← htakes.numbered]⟩
  have hleaves : Locates dialect combination (combination.map Occurrence.operand) :=
    ⟨rfl, by rw [Expr.atoms_map, ← htakes'.numbered]⟩
  refine ⟨condition, condition.text dialect, _, _, .ofAlternatives alternatives, combination,
    by rw [hpredicate], by rw [hpredicate]; rfl, htext, hread, hcombination, hleaves, ?_, ?_⟩
  · intro hshielded β _ _ _ v hv
    calc (Expr.ofAlternatives alternatives).eval v
        = meaning.eval v := hcomposes.eval_eq v hshielded
      _ = combination.eval v := hagree β v hv
  · intro hnodup hconstants heval
    rw [hatoms] at hnodup
    rw [Expr.atoms_map, hatoms] at hconstants
    refine hcomposes.shielded_of_eval_eq hnodup hconstants fun v hv => ?_
    calc (Expr.ofAlternatives alternatives).eval v
        = combination.eval v := heval v hv
      _ = meaning.eval v := (hagree Bool v hv).symm

/-! ### A custom text with an `OR` -/

/-- Only the one filter that is registered is found. -/
theorem eq_of_get?_register_empty {entity field key other name operator : String}
    {filter answer : CustomFilter}
    (h : (CustomFilters.empty.register entity field key filter).get? other name operator =
      some answer) : answer = filter := by
  rw [CustomFilters.get?, CustomFilters.operatorsOf, CustomFilters.fieldsOf_register] at h
  split at h
  · rw [Catalog.get?_insert] at h
    split at h
    · rw [Option.getD_some, Catalog.get?_insert] at h
      split at h
      · exact (Option.some.inj h).symm
      · cases h
    · cases h
  · cases h

/-- Posts, with a custom filter for those that are pinned or featured. -/
def postScope : Scope :=
  ⟨"Post", ⟨.ofList [("Post", ⟨"Post", [.declare "title" .string]⟩)]⟩, .empty, .sql .sqlite,
    CustomFilters.empty.register "Post" "title" "_shown" fun _ =>
      .ok (.sql [.text "pinned OR featured"]), {}⟩

/-- A word of the texts about posts, which takes no parameter. -/
def wordOccurrence (word : String) : Occurrence := ⟨[Sql.wordTree word], 0⟩

/-- What the custom text says. -/
def shownAlternatives : Alternatives :=
  [[.atom (wordOccurrence "pinned")], [.atom (wordOccurrence "featured")]]

theorem reading?_shown :
    Sql.reading? some .sqlite (Condition.customText .sqlite [.text "pinned OR featured"]) =
      some shownAlternatives.spelled := by
  have hword : ∀ word : String, word.toList ≠ [] → word.toList.all Char.isAlpha = true →
      (Sql.wordTree word).keyword? = none → Sql.isOperand [] [Sql.wordTree word] = true →
        Sql.Reads some .sqlite word.toList [[.atom (wordOccurrence word).operand]] :=
    fun word hne hletters hkeyword hoperand =>
      Condition.reads_atom (Sql.Lexes.keyword hne hletters) hkeyword hoperand rfl
  have hpinned := hword "pinned" (by decide) (by decide) rfl (by decide)
  have hfeatured := hword "featured" (by decide) (by decide) rfl (by decide)
  exact Sql.reading?_eq_some_iff.2 (hpinned.or hfeatured)

theorem postScope_readable : ReadableCustoms postScope .sqlite := by
  intro name key answer operand pieces hanswer hpieces bound
  obtain rfl := eq_of_get?_register_empty hanswer
  obtain rfl := CustomFragment.sql.inj (Except.ok.inj hpieces)
  rw [Sql.expression?, bindPieces, bindFrom, bindFrom, reading?_shown]
  rfl

/-- Below a negation the custom text is kept together: the posts with a title that are neither
pinned nor featured. -/
theorem compile_composes_negated :
    let filter : Filter :=
      .all [.field "title" .eq (.string "x"), .not (.custom "title" "_shown" .null)]
    let condition : Condition :=
      .all [.test "title" (.compare .equal 1), .not (.custom [.text "pinned OR featured"])]
    let predicate : Predicate := ⟨.sql .sqlite, .sql condition, [.string "x"]⟩
    let sql : String := "(\"title\" = ? AND NOT (pinned OR featured))"
    ReadableCustoms postScope .sqlite ∧ filter.compile postScope = .ok predicate ∧
      condition.Shielded .sqlite ∧ predicate.sql? = some sql ∧
      ∃ text leaves read combination, Sql.expression? some .sqlite sql.toList = some text ∧
        Locates .sqlite read text ∧
        filter.combination? postScope .sqlite 0 = some (leaves, 1) ∧
        Locates .sqlite combination leaves ∧ Agree read combination := by
  intro filter condition predicate sql
  have hcompile : filter.compile postScope = .ok predicate := rfl
  have hsql : predicate.sql? = some sql := rfl
  have hshielded : condition.Shielded .sqlite := by
    have hnot := (Composes.not (.custom reading?_shown)).reading
    have htitle : Composes .sqlite (.test "title" (.compare .equal 1)) _ _ := .test _ _ 1
    simp only [condition, Condition.Shielded, Condition.AllShielded, and_true, List.forall_mem_cons]
    intro _
    exact ⟨⟨_, htitle.reading⟩, ⟨_, hnot⟩, by simp⟩
  obtain ⟨found, written, text, leaves, read, combination, hfound, hwritten, htext, hread,
    hleaves, hcombination, hagree, -⟩ :=
    @compile_composes postScope .sqlite filter predicate rfl postScope_readable hcompile
  obtain rfl := Fragment.sql.inj hfound
  obtain rfl := Option.some.inj (hwritten.symm.trans hsql)
  exact ⟨postScope_readable, hcompile, hshielded, hsql, text, leaves, read, combination, htext,
    hread, hleaves, hcombination, hagree hshielded⟩

/-- Posts that are featured and nothing else. The constants are what they are written for. -/
def onlyFeatured (occurrence : Occurrence) : Bool :=
  match occurrence.operand with
  | [.token (.word word)] => word = "featured".toList
  | [_, _, .token (.word value)] => value = ['1']
  | _ => false

/-- In a conjunction it is not: a post that is featured is found under any title. -/
theorem compile_does_not_compose :
    let filter : Filter := .all [.field "title" .eq (.string "x"), .custom "title" "_shown" .null]
    let predicate : Predicate :=
      ⟨.sql .sqlite, .sql (.all [.test "title" (.compare .equal 1),
        .custom [.text "pinned OR featured"]]), [.string "x"]⟩
    let sql : String := "(\"title\" = ? AND pinned OR featured)"
    let title : Occurrence := ⟨(Sql.Test.compare .equal 1).trees .sqlite "title", 1⟩
    let read : Expr Occurrence :=
      .any [.all [.atom title, .atom (wordOccurrence "pinned")], .atom (wordOccurrence "featured")]
    let combination : Expr Occurrence :=
      .all [.atom title,
        .any [.atom (wordOccurrence "pinned"), .atom (wordOccurrence "featured")]]
    ReadableCustoms postScope .sqlite ∧ filter.compile postScope = .ok predicate ∧
      predicate.sql? = some sql ∧
      (∃ text, Sql.expression? some .sqlite sql.toList = some text ∧ Locates .sqlite read text) ∧
      (∃ leaves, filter.combination? postScope .sqlite 0 = some (leaves, 1) ∧
        Locates .sqlite combination leaves) ∧
      ∃ v : Occurrence → Bool,
        FixesConstants v ∧ read.eval v = true ∧ combination.eval v = false := by
  intro filter predicate sql title read combination
  have htitle : Composes .sqlite (.test "title" (.compare .equal 1)) [[.atom title]]
      (.atom title) := .test _ _ _
  have hshown := Composes.custom reading?_shown
  refine ⟨postScope_readable, rfl, rfl, ⟨read.map Occurrence.operand, ?_, rfl, rfl⟩,
    ⟨combination.map Occurrence.operand, ?_, rfl, rfl⟩, ?_⟩
  · have hall := Composes.all (List.cons_ne_nil _ _) (.cons htitle (.cons hshown .nil))
    have hsql : sql = (Condition.all [.test "title" (.compare .equal 1),
      .custom [.text "pinned OR featured"]]).text .sqlite := rfl
    rw [hsql, Condition.expression?_text
      (by simp [Condition.suits, Condition.suitAll, Sql.Test.suits]) hall.reading]
    rfl
  · have hfirst := @alone?_of_composes postScope .sqlite 0
      (.field "title" .eq (.string "x")) _ [.string "x"] _ rfl
      (by simp [Condition.suits, Sql.Test.suits]) htitle
    have hsecond := @alone?_of_composes postScope .sqlite 1
      (.custom "title" "_shown" .null) _ [] _ rfl (by simp [Condition.suits]) hshown
    rw [combination?, combinations?, combination?, hfirst, Option.bind_some]
    dsimp only
    rw [combinations?, combination?]
    dsimp only [List.length_singleton, Nat.zero_add]
    rw [hsecond, Option.bind_some, combinations?]
    rfl
  · exact ⟨onlyFeatured, ⟨rfl, rfl⟩, rfl, rfl⟩

end Criteria.Filter
