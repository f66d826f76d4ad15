import Criteria.Proofs.Sql.Placeholders
import Criteria.Proofs.Sql.Proper
import Mathlib.Algebra.GroupWithZero.Nat

/-!
# Occurrences of comparisons

Two comparisons that are spelled alike need not say the same. Where parameters are taken by
position, each `?` stands for another one. So a comparison of a text is taken for what it is
together with the number of the first parameter it takes by position, and `number` finds these
numbers by counting from left to right.

The atoms of an expression decide all of this. An expression over operands is turned into one over
occurrences by numbering its atoms, and `Expr.exists_map_eq` says that this can be done.

* `Expr.map` — the same expression over other atoms;
* `Occurrence`, `number` — comparisons with the parameters they take;
* `ProperAlternatives.of_map` — the names of the atoms do not matter to what is proper.
-/

namespace Criteria

variable {α β : Type}

namespace Expr

/-! ### The same expression over other atoms -/

mutual

/-- An expression with other atoms in its places. -/
def map (f : α → β) : Expr α → Expr β
  | .atom value => .atom (f value)
  | .not part => .not (map f part)
  | .all parts => .all (maps f parts)
  | .any parts => .any (maps f parts)

/-- Expressions with other atoms in their places. -/
def maps (f : α → β) : List (Expr α) → List (Expr β)
  | [] => []
  | part :: parts => map f part :: maps f parts

end

section Map

variable (f : α → β)

theorem maps_eq_map (parts : List (Expr α)) : maps f parts = parts.map (map f) := by
  induction parts with
  | nil => rfl
  | cons part parts ih => rw [maps, ih, List.map_cons]

@[simp] theorem map_atom (value : α) : map f (.atom value) = .atom (f value) := by rw [map]

@[simp] theorem map_not (part : Expr α) : map f (.not part) = .not (map f part) := by rw [map]

@[simp] theorem map_all (parts : List (Expr α)) :
    map f (.all parts) = .all (parts.map (map f)) := by
  rw [map, maps_eq_map]

@[simp] theorem map_any (parts : List (Expr α)) :
    map f (.any parts) = .any (parts.map (map f)) := by
  rw [map, maps_eq_map]

theorem map_conjunction (parts : List (Expr α)) :
    map f (conjunction parts) = conjunction (parts.map (map f)) := by
  match parts with
  | [] => exact map_all f []
  | [part] => rfl
  | first :: second :: rest => exact map_all f (first :: second :: rest)

theorem map_disjunction (parts : List (Expr α)) :
    map f (disjunction parts) = disjunction (parts.map (map f)) := by
  match parts with
  | [] => exact map_any f []
  | [part] => rfl
  | first :: second :: rest => exact map_any f (first :: second :: rest)

/-- Alternatives with other atoms in their places. -/
def mapAlternatives (alternatives : List (List (Expr α))) : List (List (Expr β)) :=
  alternatives.map (List.map (map f))

theorem map_ofAlternatives (alternatives : List (List (Expr α))) :
    map f (ofAlternatives alternatives) = ofAlternatives (mapAlternatives f alternatives) := by
  have hfactors : (alternatives.map conjunction).map (map f) =
      (mapAlternatives f alternatives).map conjunction := by
    rw [mapAlternatives, List.map_map, List.map_map]
    exact List.map_congr_left fun factors _ => map_conjunction f factors
  rw [ofAlternatives, map_disjunction, hfactors]
  rfl

theorem mapAlternatives_flatten (readings : List (List (List (Expr α)))) :
    mapAlternatives f readings.flatten = (readings.map (mapAlternatives f)).flatten := by
  rw [mapAlternatives, List.map_flatten]
  rfl

end Map

end Expr

/-- Elements may be replaced before or after lists run together. -/
theorem map_glue (f : α → β) (items others : List (List α)) :
    (glue items others).map (List.map f) =
      glue (items.map (List.map f)) (others.map (List.map f)) := by
  induction items with
  | nil => rfl
  | cons item items ih =>
    cases items with
    | nil =>
      cases others with
      | nil => rfl
      | cons first others => simp
    | cons next items =>
      rw [glue_cons_cons, List.map_cons, ih]
      rfl

theorem Expr.mapAlternatives_glueAll (f : α → β) (readings : List (List (List (Expr α)))) :
    mapAlternatives f (glueAll readings) = glueAll (readings.map (mapAlternatives f)) := by
  induction readings with
  | nil => rfl
  | cons first readings ih =>
    rw [glueAll_cons, List.map_cons, glueAll_cons, ← ih]
    exact map_glue (Expr.map f) first (glueAll readings)

namespace Expr

variable (f : α → β)

/-! ### Atoms of both -/

mutual

theorem atoms_map : ∀ part : Expr α, (map f part).atoms = part.atoms.map f
  | .atom value => by rw [map_atom, atoms_atom, atoms_atom, List.map_singleton]
  | .not part => by rw [map_not, atoms_not, atoms_not, atoms_map part]
  | .all parts => by rw [map_all, atoms_all, atoms_all, atomsAll_map parts]
  | .any parts => by rw [map_any, atoms_any, atoms_any, atomsAll_map parts]

theorem atomsAll_map : ∀ parts : List (Expr α),
    atomsAll (parts.map (map f)) = (atomsAll parts).map f
  | [] => rfl
  | part :: parts => by
    rw [List.map_cons, atomsAll_cons, atomsAll_cons, atoms_map part, atomsAll_map parts,
      List.map_append]

end

variable {f}

mutual

/-- **Atoms may be chosen freely among those that are replaced by the given ones.** -/
theorem exists_map_eq : ∀ (part : Expr β) {atoms : List α}, atoms.map f = part.atoms →
    ∃ source : Expr α, source.map f = part ∧ source.atoms = atoms
  | .atom value, atoms, h => by
    obtain ⟨source, rfl, rfl⟩ := List.map_eq_singleton_iff.1 h
    exact ⟨.atom source, map_atom f source, atoms_atom source⟩
  | .not part, atoms, h => by
    obtain ⟨source, rfl, rfl⟩ := exists_map_eq part h
    exact ⟨.not source, map_not f source, atoms_not source⟩
  | .all parts, atoms, h => by
    obtain ⟨sources, rfl, rfl⟩ := exists_maps_eq parts h
    exact ⟨.all sources, map_all f sources, atoms_all sources⟩
  | .any parts, atoms, h => by
    obtain ⟨sources, rfl, rfl⟩ := exists_maps_eq parts h
    exact ⟨.any sources, map_any f sources, atoms_any sources⟩

theorem exists_maps_eq : ∀ (parts : List (Expr β)) {atoms : List α},
    atoms.map f = atomsAll parts →
      ∃ sources : List (Expr α), sources.map (map f) = parts ∧ atomsAll sources = atoms
  | [], atoms, h => ⟨[], rfl, (List.map_eq_nil_iff.1 h).symm⟩
  | part :: parts, atoms, h => by
    obtain ⟨first, rest, rfl, hfirst, hrest⟩ := List.map_eq_append_iff.1 h
    obtain ⟨source, rfl, rfl⟩ := exists_map_eq part hfirst
    obtain ⟨sources, rfl, rfl⟩ := exists_maps_eq parts hrest
    exact ⟨source :: sources, rfl, rfl⟩

end

theorem exists_mapAlternatives_eq (alternatives : List (List (Expr β))) {atoms : List α}
    (h : atoms.map f = atomsAll alternatives.flatten) :
    ∃ sources : List (List (Expr α)), mapAlternatives f sources = alternatives ∧
      atomsAll sources.flatten = atoms := by
  induction alternatives generalizing atoms with
  | nil => exact ⟨[], rfl, (List.map_eq_nil_iff.1 h).symm⟩
  | cons factors alternatives ih =>
    rw [List.flatten_cons, atomsAll_append] at h
    obtain ⟨first, rest, rfl, hfirst, hrest⟩ := List.map_eq_append_iff.1 h
    obtain ⟨source, rfl, rfl⟩ := exists_maps_eq factors hfirst
    obtain ⟨sources, rfl, rfl⟩ := ih hrest
    exact ⟨source :: sources, rfl, by rw [List.flatten_cons, atomsAll_append]⟩

mutual

theorem proper_of_map : ∀ part : Expr α, (map f part).Proper → part.Proper
  | .atom _, _ => trivial
  | .not part, h => by
    rw [map_not] at h
    exact proper_of_map part h
  | .all parts, h => by
    rw [map_all] at h
    exact ⟨fun hnil => h.1 (by rw [hnil, List.map_nil]), allProper_of_map parts h.2⟩
  | .any parts, h => by
    rw [map_any] at h
    exact ⟨fun hnil => h.1 (by rw [hnil, List.map_nil]), allProper_of_map parts h.2⟩

theorem allProper_of_map : ∀ parts : List (Expr α), AllProper (parts.map (map f)) →
    AllProper parts
  | [], _ => trivial
  | part :: parts, h => ⟨proper_of_map part h.1, allProper_of_map parts h.2⟩

end

end Expr

namespace Sql

/-- The names of the atoms do not matter to what is proper. -/
theorem ProperAlternatives.of_map {f : α → β} {alternatives : List (List (Expr α))}
    (h : ProperAlternatives (Expr.mapAlternatives f alternatives)) :
    ProperAlternatives alternatives := by
  refine ⟨?_, ?_, ?_⟩
  · rintro rfl
    exact h.ne_nil rfl
  · rintro factors hfactors rfl
    exact h.factors_ne_nil [] (List.mem_map.2 ⟨[], hfactors, rfl⟩) rfl
  · intro factor hfactor
    obtain ⟨factors, hfactors, hmem⟩ := List.mem_flatten.1 hfactor
    have hmapped : Expr.map f factor ∈ (Expr.mapAlternatives f alternatives).flatten :=
      List.mem_flatten_of_mem (List.mem_map_of_mem hfactors) (List.mem_map_of_mem hmem)
    exact Expr.proper_of_map factor (h.factors_proper _ hmapped)

/-! ### The parameters that comparisons take -/

/-- The trees of an operand. Every operand is taken for a comparison. -/
abbrev Operand := List Tree

/-- A comparison at its place in a text. -/
structure Occurrence where
  /-- What is written. -/
  operand : Operand
  /-- The number of the first parameter it takes by position, 0 if it takes none. -/
  param : Nat

variable (dialect : Dialect)

/-- How many parameters an operand takes by position. -/
def positional (operand : Operand) : Nat :=
  if dialect.placeholder = .question then (treePlaceholders dialect operand).length else 0

/-- The occurrences of operands in a text, when `taken` parameters are taken in front of them. -/
def number (taken : Nat) : List Operand → List Occurrence
  | [] => []
  | operand :: rest =>
    ⟨operand, if positional dialect operand = 0 then 0 else taken + 1⟩ ::
      number (taken + positional dialect operand) rest

/-- An expression over the occurrences of a text says over them what the text says over its
operands. -/
structure Locates (located : Expr Occurrence) (expression : Expr Operand) : Prop where
  /-- It is the same expression. -/
  map_eq : located.map Occurrence.operand = expression
  /-- Its comparisons take their parameters from the first one on. -/
  atoms_eq : located.atoms = number dialect 0 expression.atoms

/-- Occurrences take `count` parameters by position, behind `taken` others. -/
structure Takes (taken count : Nat) (atoms : List Occurrence) : Prop where
  /-- They are numbered in their order. -/
  numbered : atoms = number dialect taken (atoms.map Occurrence.operand)
  /-- All of them together take so many. -/
  count_eq : ((atoms.map Occurrence.operand).map (positional dialect)).sum = count

theorem map_operand_number (operands : List Operand) :
    ∀ taken, (number dialect taken operands).map Occurrence.operand = operands := by
  induction operands with
  | nil => intro taken; rfl
  | cons operand operands ih => intro taken; rw [number, List.map_cons, ih]

theorem number_append (operands others : List Operand) :
    ∀ taken, number dialect taken (operands ++ others) = number dialect taken operands ++
      number dialect (taken + (operands.map (positional dialect)).sum) others := by
  induction operands with
  | nil => intro taken; rfl
  | cons operand operands ih =>
    intro taken
    rw [List.cons_append, number, number, ih, List.map_cons, List.sum_cons, Nat.add_assoc]
    rfl

/-- Numbered operands take the parameters they are numbered by. -/
theorem takes_number (taken : Nat) (operands : List Operand) : Takes dialect taken
    (operands.map (positional dialect)).sum (number dialect taken operands) := by
  have hmap := map_operand_number dialect operands taken
  exact ⟨by rw [hmap], by rw [hmap]⟩

variable {dialect}

namespace Takes

variable {taken count more : Nat} {atoms others : List Occurrence}

theorem nil : Takes dialect taken 0 [] := ⟨rfl, rfl⟩

theorem count_eq_zero (h : Takes dialect taken count []) : count = 0 := h.count_eq.symm

/-- Constants take no parameters. -/
theorem constant (value : Bool) : Takes dialect taken 0 [⟨constantTrees value, 0⟩] := by
  have hnone : positional dialect (constantTrees value) = 0 := by
    cases value <;> cases dialect <;> rfl
  refine ⟨?_, ?_⟩
  · rw [List.map_singleton, number, if_pos hnone, number]
  · rw [List.map_singleton, List.map_singleton, List.sum_singleton, hnone]

/-- Occurrences next to each other take parameters one after the other. -/
theorem append (h : Takes dialect taken count atoms)
    (hothers : Takes dialect (taken + count) more others) :
    Takes dialect taken (count + more) (atoms ++ others) := by
  refine ⟨?_, ?_⟩
  · rw [List.map_append, number_append, h.count_eq, ← h.numbered, ← hothers.numbered]
  · rw [List.map_append, List.map_append, List.sum_append, h.count_eq, hothers.count_eq]

end Takes

end Sql

end Criteria
