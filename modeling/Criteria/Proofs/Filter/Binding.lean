import Criteria.Proofs.Filter.Parameters

/-!
# Placeholders as a binder hands them out

A binder hands out a placeholder for every value at the moment the value is bound, and whoever binds
a value writes the placeholder into its text. The compiler has no binder. It is told how many values
are bound before a part, writes numbers into the condition of the part, and spells the numbers when
the text is put together. Both come to the same, because a binder that goes on behind `bound` values
gives the next one the number `bound + 1`.

* `Binder.bindAll` — values that are bound in turn, and `bindAll_eq`, how they are numbered;
* `Binder.write` — what a custom filter does with a binder, and `write_bindPieces`, that its pieces
  are compiled to what it writes and binds;
* `Lowers.mem_range'` — a part refers to no other values than those it binds, whatever custom
  filters write;
* `compile_hands_out` — a compiled filter has the placeholders that a binder hands out for its
  parameters.
-/

namespace Criteria

theorem Dialect.placeholder_ne_inline (dialect : Dialect) : dialect.placeholder ≠ .inline := by
  cases dialect <;> nofun

theorem Sql.spell_cons {dialect : Dialect} (piece : Piece) (pieces : List Piece) :
    spell dialect (piece :: pieces) = piece.text dialect ++ spell dialect pieces := by
  refine String.toList_inj.1 ?_
  rw [String.toList_append]
  exact chars_cons dialect piece pieces

/-! ### Values bound in turn -/

namespace Binder

variable {binder : Binder}

/-- Binds values in turn; the first result are their placeholders. -/
def bindAll (binder : Binder) : List Json → List String × Binder
  | [] => ([], binder)
  | value :: rest =>
    let (placeholder, next) := binder.bind value
    let (placeholders, last) := next.bindAll rest
    (placeholder :: placeholders, last)

/-- The next value has the number behind those that are bound. -/
theorem bind_eq (binder : Binder) (hstyle : binder.style ≠ .inline) (value : Json) :
    binder.bind value =
      (binder.style.text (binder.params.length + 1), ⟨binder.style, binder.params ++ [value]⟩) := by
  unfold bind
  split
  · next hinline => exact absurd hinline hstyle
  · rfl

/-- **A binder numbers values on from those it has.** -/
theorem bindAll_eq (binder : Binder) (hstyle : binder.style ≠ .inline) (values : List Json) :
    binder.bindAll values =
      ((List.range' (binder.params.length + 1) values.length).map binder.style.text,
        ⟨binder.style, binder.params ++ values⟩) := by
  induction values generalizing binder with
  | nil => simp [bindAll]
  | cons value rest ih =>
    have hrest := ih ⟨binder.style, binder.params ++ [value]⟩ hstyle
    rw [bindAll, bind_eq binder hstyle]
    dsimp only
    rw [hrest]
    simp [List.range'_succ]

/-- Nothing is bound inline. -/
theorem bindAll_inline (binder : Binder) (hstyle : binder.style = .inline) (values : List Json) :
    (binder.bindAll values).2 = binder := by
  have hbind : ∀ value, binder.bind value = ("", binder) := by
    intro value
    rw [bind, hstyle]
  induction values with
  | nil => rfl
  | cons value rest ih => rw [bindAll, hbind]; exact ih

/-! ### Custom filters at work -/

/-- What a custom filter does with a binder after it was handed placeholders: it binds each value
when its piece comes, and writes texts, the placeholder it is handed, or one handed before. -/
def write (binder : Binder) (handed : List String) : List CustomPiece → String × Binder
  | [] => ("", binder)
  | .text sql :: rest =>
    let (written, last) := binder.write handed rest
    (sql ++ written, last)
  | .value value :: rest =>
    let (placeholder, next) := binder.bind value
    let (written, last) := next.write (handed ++ [placeholder]) rest
    (placeholder ++ written, last)
  | .bind value :: rest =>
    let (placeholder, next) := binder.bind value
    next.write (handed ++ [placeholder]) rest
  | .again index :: rest =>
    let (written, last) := binder.write handed rest
    (handed[index]?.getD "" ++ written, last)

/-- A binder has handed out placeholders, one for each value that it bound behind `before`
others. -/
structure Handed (dialect : Dialect) (before : Nat) (binder : Binder) (handed : List String) :
    Prop where
  /-- The binder is one for the dialect. -/
  style : binder.style = dialect.placeholder
  /-- No other values were bound. -/
  length : binder.params.length = before + handed.length
  /-- The placeholders are numbered on from those before. -/
  spelled : handed = (List.range' (before + 1) handed.length).map dialect.placeholder.text

namespace Handed

variable {dialect : Dialect} {before : Nat} {handed : List String}

theorem start (hstyle : binder.style = dialect.placeholder) :
    Handed dialect binder.params.length binder [] := ⟨hstyle, rfl, rfl⟩

theorem bind_eq (h : Handed dialect before binder handed) (value : Json) :
    binder.bind value =
      (dialect.placeholder.text (binder.params.length + 1),
        ⟨dialect.placeholder, binder.params ++ [value]⟩) := by
  rw [Binder.bind_eq binder (h.style ▸ dialect.placeholder_ne_inline), h.style]

/-- **Binding one more value hands out the next placeholder.** -/
theorem bind (h : Handed dialect before binder handed) (value : Json) :
    Handed dialect before ⟨dialect.placeholder, binder.params ++ [value]⟩
      (handed ++ [dialect.placeholder.text (binder.params.length + 1)]) where
  style := rfl
  length := by
    have hlength := h.length
    simp only [List.length_append, List.length_singleton]
    omega
  spelled := by
    have hnumber : binder.params.length + 1 = before + 1 + handed.length := by
      rw [h.length, Nat.add_right_comm]
    rw [List.length_append, List.length_singleton, List.range'_1_concat, List.map_append,
      ← h.spelled, hnumber]
    rfl

/-- The placeholder of a value is at its place among those handed out. -/
theorem getElem? (h : Handed dialect before binder handed) (index : Nat) :
    handed[index]? =
      if before + index < binder.params.length then
        some (dialect.placeholder.text (before + index + 1))
      else none := by
  have hlength := h.length
  rw [h.spelled, List.getElem?_map]
  split
  · next hbound =>
    have hindex : index < handed.length := by omega
    rw [List.getElem?_range' hindex, Option.map_some]
    simp [Nat.add_right_comm]
  · next hbound =>
    rw [List.getElem?_eq_none (by rw [List.length_range']; omega), Option.map_none]

end Handed

variable {dialect : Dialect} {before : Nat} {handed : List String}

/-- What a filter writes from a piece on is the text of what its pieces are compiled to from there
on. The induction is on the pieces, and the binder is always one that has handed out what the filter
was given. -/
theorem write_bindFrom (h : Handed dialect before binder handed) (pieces : List CustomPiece) :
    binder.write handed pieces =
      (Sql.spell dialect
          ((Filter.bindFrom before binder.params.length pieces).1.map Sql.Insert.piece),
        ⟨dialect.placeholder,
          binder.params ++ (Filter.bindFrom before binder.params.length pieces).2⟩) := by
  induction pieces generalizing binder handed with
  | nil =>
    obtain ⟨style, params⟩ := binder
    obtain rfl : style = dialect.placeholder := h.style
    simp [write, Filter.bindFrom, Sql.spell]
  | cons piece rest ih =>
    cases piece with
    | text sql =>
      rw [write, ih h, Filter.bindFrom, List.map_cons, Sql.spell_cons]
      rfl
    | value value =>
      -- the filter goes on with one placeholder more, and the count with one value more
      have hrest := ih (h.bind value)
      rw [List.length_append, List.length_singleton] at hrest
      rw [write, h.bind_eq value]
      dsimp only
      rw [hrest, Filter.bindFrom, List.map_cons, Sql.spell_cons, List.append_assoc]
      rfl
    | bind value =>
      have hrest := ih (h.bind value)
      rw [List.length_append, List.length_singleton] at hrest
      rw [write, h.bind_eq value]
      dsimp only
      rw [hrest, Filter.bindFrom, List.append_assoc]
      rfl
    | again index =>
      rw [write, ih h, h.getElem? index, Filter.bindFrom]
      dsimp only
      -- what was handed out is what is bound, so both sides write or leave out alike
      split
      · rw [List.map_cons, Sql.spell_cons]
        rfl
      · rw [Option.getD_none, String.empty_append]

/-- **A custom filter's pieces are compiled to what it writes and binds.** -/
theorem write_bindPieces (hstyle : binder.style = dialect.placeholder)
    (pieces : List CustomPiece) :
    binder.write [] pieces =
      (Sql.spell dialect
          ((Filter.bindPieces binder.params.length pieces).1.map Sql.Insert.piece),
        ⟨binder.style, binder.params ++ (Filter.bindPieces binder.params.length pieces).2⟩) := by
  rw [write_bindFrom (.start hstyle), Filter.bindPieces, hstyle]

/-- Two values, of which the second one is written first and the first one twice. -/
example :
    (Binder.write ⟨.dollar, [.int 7]⟩ [] [.bind (.int 1), .text "x BETWEEN ", .value (.int 2),
      .text " AND ", .again 0, .text " OR x = ", .again 0]).1 =
        "x BETWEEN $3 AND $2 OR x = $2" := by
  decide

end Binder

/-! ### The parameters of conditions -/

namespace Sql

variable {dialect : Dialect} {number : Nat}

theorem mem_of_param_mem_paramPieces {numbers : List Nat}
    (h : Piece.param number ∈ paramPieces numbers) : number ∈ numbers := by
  fun_induction paramPieces numbers with
  | case1 => cases h
  | case2 other => simpa using h
  | case3 other rest hrest ih =>
    rcases List.mem_cons.1 h with h | h
    · cases h
      exact List.mem_cons_self
    · rcases List.mem_cons.1 h with h | h
      · cases h
      · exact List.mem_cons_of_mem _ (ih h)

/-- A test has no other parameters in its text than those it names. -/
theorem Test.mem_params_of_mem_pieces {reference : String} {check : Test}
    (h : Piece.param number ∈ check.pieces dialect reference) : number ∈ check.params := by
  cases check with
  | among positive params =>
    have hparams : Piece.param number ∈ paramPieces params := by simpa [Test.pieces] using h
    exact mem_of_param_mem_paramPieces hparams
  | likeAnyCase param =>
    rw [Test.pieces] at h
    split at h <;> simpa [Test.params] using h
  | isNull positive => simp [Test.pieces] at h
  | _ => simpa [Test.pieces, Test.params] using h

namespace Condition

variable {conditions : List Condition}

theorem exists_of_mem_joined (connective : String)
    (h : Piece.param number ∈ joined dialect connective conditions) :
    ∃ condition ∈ conditions, Piece.param number ∈ condition.pieces dialect := by
  induction conditions with
  | nil => cases h
  | cons condition rest ih =>
    cases rest with
    | nil => exact ⟨condition, List.mem_cons_self, h⟩
    | cons next rest =>
      simp only [joined, List.mem_append, List.mem_cons] at h
      rcases h with hown | hconnective | hrest
      · exact ⟨condition, List.mem_cons_self, hown⟩
      · cases hconnective
      · obtain ⟨other, hother, hmem⟩ := ih hrest
        exact ⟨other, List.mem_cons_of_mem _ hother, hmem⟩

theorem exists_of_mem_allOf (h : Piece.param number ∈ (allOf conditions).pieces dialect) :
    ∃ condition ∈ conditions, Piece.param number ∈ condition.pieces dialect := by
  match conditions with
  | [] => simp [pieces] at h
  | [condition] => exact ⟨condition, List.mem_cons_self, h⟩
  | first :: next :: rest =>
    refine exists_of_mem_joined " AND " ?_
    simpa [allOf, pieces] using h

theorem exists_of_mem_anyOf (h : Piece.param number ∈ (anyOf conditions).pieces dialect) :
    ∃ condition ∈ conditions, Piece.param number ∈ condition.pieces dialect := by
  match conditions with
  | [] => simp [pieces] at h
  | [condition] => exact ⟨condition, List.mem_cons_self, h⟩
  | first :: next :: rest =>
    refine exists_of_mem_joined " OR " ?_
    simpa [anyOf, pieces] using h

end Condition

end Sql

/-! ### The parameters of filters -/

namespace Filter

open Sql (Condition)

variable {scope : Scope} {dialect : Dialect} {number : Nat}

/-- A custom filter refers to its own values only. What it writes again was bound before, and so it
is behind the values bound before the filter. -/
theorem mem_bindFrom {before bound : Nat} (hbefore : before ≤ bound) {pieces : List CustomPiece}
    (h : Sql.Insert.param number ∈ (bindFrom before bound pieces).1) :
    before < number ∧ number ≤ bound + (bindFrom before bound pieces).2.length := by
  induction pieces generalizing bound with
  | nil => cases h
  | cons piece rest ih =>
    cases piece with
    | text sql =>
      rw [bindFrom] at h ⊢
      rcases List.mem_cons.1 h with h | h
      · cases h
      · exact ih hbefore h
    | value value =>
      rw [bindFrom] at h ⊢
      rw [List.length_cons]
      rcases List.mem_cons.1 h with h | h
      · cases h
        omega
      · have hlater : before ≤ bound + 1 := by omega
        have hrest := ih hlater h
        omega
    | bind value =>
      rw [bindFrom] at h ⊢
      rw [List.length_cons]
      have hlater : before ≤ bound + 1 := by omega
      have hrest := ih hlater h
      omega
    | again index =>
      rw [bindFrom] at h ⊢
      dsimp only at h ⊢
      split at h
      · next hindex =>
        rw [if_pos hindex]
        rcases List.mem_cons.1 h with h | h
        · cases h
          omega
        · exact ih hbefore h
      · next hindex =>
        rw [if_neg hindex]
        exact ih hbefore h

mutual

/-- **A part refers to no other values than those it binds**, whatever custom filters write. -/
theorem Lowers.mem_range' {bound : Nat} {filter : Filter} {condition : Condition}
    {values : List Json} :
    Lowers scope dialect bound filter condition values →
      Sql.Piece.param number ∈ condition.pieces dialect →
        number ∈ List.range' (bound + 1) values.length
  | .all hparts, h => by
    obtain ⟨part, hpart, hmem⟩ := Condition.exists_of_mem_allOf h
    exact hparts.mem_range' part hpart hmem
  | .any hparts, h => by
    obtain ⟨part, hpart, hmem⟩ := Condition.exists_of_mem_anyOf h
    exact hparts.mem_range' part hpart hmem
  | .not hpart, h => by
    refine hpart.mem_range' ?_
    simpa [Condition.pieces] using h
  | .field _ _ hleaf, h => by
    rcases Sql.leaf_eq_ok hleaf with ⟨value, rfl, -⟩ | ⟨check, rfl, hspec⟩
    · cases value <;> simp [Condition.pieces] at h
    · rw [Condition.pieces] at h
      rw [← hspec.params]
      exact Sql.Test.mem_params_of_mem_pieces h
  | .custom _ _, h => by
    rw [Condition.pieces, List.mem_map] at h
    obtain ⟨insert, hinsert, hpiece⟩ := h
    cases insert with
    | text sql => cases hpiece
    | param own =>
      cases hpiece
      -- nothing is bound between the values before the filter and its first piece
      rw [bindPieces] at hinsert
      have hown := mem_bindFrom (Nat.le_refl _) hinsert
      rw [List.mem_range'_1, bindPieces]
      omega

theorem LowersAll.mem_range' {bound : Nat} {parts : List Filter} {conditions : List Condition}
    {values : List Json} :
    LowersAll scope dialect bound parts conditions values →
      ∀ condition ∈ conditions, Sql.Piece.param number ∈ condition.pieces dialect →
        number ∈ List.range' (bound + 1) values.length
  | .nil, _, hcondition, _ => by cases hcondition
  | .cons hpart hparts, condition, hcondition, h => by
    rw [List.length_append, List.mem_range'_1]
    rcases List.mem_cons.1 hcondition with rfl | hcondition
    · have hown := List.mem_range'_1.1 (hpart.mem_range' h)
      omega
    · -- the count went on behind the values of the first part
      have hrest := List.mem_range'_1.1 (hparts.mem_range' condition hcondition h)
      omega

end

/-! ### Compiled filters -/

/-- A custom leaf says what its filter writes with a binder behind the values bound before, and
binds what the filter binds. -/
theorem lower_custom_eq_write (hadapter : scope.adapter = .sql dialect) {binder : Binder}
    (hstyle : binder.style = dialect.placeholder) {name key : String} {operand : Json}
    {answer : CustomFilter} {pieces : List CustomPiece}
    (hanswer : scope.custom.get? scope.entity name key = some answer)
    (hpieces : answer (customCall scope name operand) = .ok (.sql pieces)) :
    ∃ condition values,
      lower scope binder.params.length (.custom name key operand) =
        .ok (.sql condition, values) ∧
      binder.write [] pieces =
        (condition.text dialect, ⟨binder.style, binder.params ++ values⟩) := by
  refine ⟨_, _, lower_custom hadapter hanswer hpieces, ?_⟩
  rw [Binder.write_bindPieces hstyle, Condition.text, Condition.pieces]

/-- A placeholder in a part is the one that a binder hands out for the value, if the values of the
part are bound in turn behind those bound before. -/
theorem Lowers.getElem?_bindAll (binder : Binder) {filter : Filter} {condition : Condition}
    {values : List Json}
    (h : Lowers scope dialect binder.params.length filter condition values)
    (hstyle : binder.style = dialect.placeholder)
    (hnumber : Sql.Piece.param number ∈ condition.pieces dialect) :
    ∃ index, number = binder.params.length + 1 + index ∧ index < values.length ∧
      (binder.bindAll values).1[index]? = some (dialect.placeholder.text number) := by
  obtain ⟨index, hindex, rfl⟩ := List.mem_range'.1 (h.mem_range' hnumber)
  refine ⟨index, by omega, hindex, ?_⟩
  rw [Binder.bindAll_eq binder (hstyle ▸ dialect.placeholder_ne_inline), hstyle, List.getElem?_map,
    List.getElem?_range' hindex, Option.map_some]

/-- The placeholders of a part of built-in leaves are those handed out for its values, from left to
right. -/
theorem Lowers.placeholders?_bindAll (binder : Binder) {filter : Filter} {condition : Condition}
    {values : List Json}
    (h : Lowers scope dialect binder.params.length filter condition values)
    (hstyle : binder.style = dialect.placeholder) (hbuiltin : filter.isBuiltin = true) :
    Sql.placeholders? dialect (condition.text dialect).toList =
      some ((binder.bindAll values).1.map String.toList) := by
  have hholds := Sql.placeholders?_of_holds (h.holds hbuiltin)
  rw [Binder.bindAll_eq binder (hstyle ▸ dialect.placeholder_ne_inline), hstyle, List.map_map]
  exact hholds

/-- **A compiled filter has the placeholders that a binder hands out for its parameters.** Binding
its parameters in turn gives them back. A placeholder in its text is the one that was handed out for
the parameter with the number, and without custom leaves the placeholders of the text are those
handed out, from left to right. -/
theorem compile_hands_out {filter : Filter} {predicate : Predicate}
    (h : filter.compile scope = .ok predicate) :
    let bound := Binder.bindAll ⟨scope.adapter.placeholder, []⟩ predicate.params
    bound.2.params = predicate.params ∧
    ∀ dialect, scope.adapter = .sql dialect →
      ∃ condition, predicate.fragment = .sql condition ∧
        (∀ number, Sql.Piece.param number ∈ condition.pieces dialect →
          ∃ index, number = index + 1 ∧ index < predicate.params.length ∧
            bound.1[index]? = some (dialect.placeholder.text number)) ∧
        (filter.isBuiltin = true →
          Sql.placeholders? dialect (condition.text dialect).toList =
            some (bound.1.map String.toList)) := by
  intro bound
  constructor
  · cases hadapter : scope.adapter with
    | sql dialect =>
      have hstyle : scope.adapter.placeholder ≠ .inline := by
        rw [hadapter]
        exact dialect.placeholder_ne_inline
      simp only [bound, Binder.bindAll_eq ⟨scope.adapter.placeholder, []⟩ hstyle, List.nil_append]
    | search =>
      -- a search document has no parameters, and its binder takes none
      have hstyle : scope.adapter.placeholder = .inline := by
        rw [hadapter]
        rfl
      have hnone : predicate.params = [] := (compile_parameters h).2 hadapter
      simp only [bound, Binder.bindAll_inline ⟨scope.adapter.placeholder, []⟩ hstyle, hnone]
  · intro dialect hadapter
    obtain ⟨condition, hlowers, hpredicate⟩ := compile_eq_ok hadapter h
    have hstyle : scope.adapter.placeholder = dialect.placeholder := by
      rw [hadapter]
      rfl
    refine ⟨condition, by rw [hpredicate], fun number hnumber => ?_, fun hbuiltin => ?_⟩
    · obtain ⟨index, rfl, hindex, hhanded⟩ :=
        hlowers.getElem?_bindAll ⟨scope.adapter.placeholder, []⟩ hstyle hnumber
      exact ⟨index, by simp [Nat.add_comm], hindex, hhanded⟩
    · exact hlowers.placeholders?_bindAll ⟨scope.adapter.placeholder, []⟩ hstyle hbuiltin

end Filter

end Criteria
