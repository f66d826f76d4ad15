import Criteria.Proofs.Truth

/-!
# Boolean expressions

A boolean expression is built from atoms by negation, conjunction and disjunction. Written without
parentheses it is a list of *alternatives*, each of which is a list of *factors*: the connective
that binds less tightly stands outside.

* `Expr.eval` — the value of an expression in a bounded lattice with a negation;
* `Expr.ofAlternatives` — alternatives as an expression, in which a single part stands for itself;
* `glue` — alternatives next to each other, the last of the one side and the first of the other
  running together. This is what becomes of two texts with `AND` between them.
-/

namespace Criteria

/-- A boolean expression. -/
inductive Expr (α : Type) where
  | atom (value : α)
  | not (part : Expr α)
  | all (parts : List (Expr α))
  | any (parts : List (Expr α))

namespace Expr

variable {α β : Type}

/-! ### Expressions without parentheses -/

/-- The conjunction of parts, of which a single one stands for itself. -/
def conjunction : List (Expr α) → Expr α
  | [part] => part
  | parts => .all parts

/-- The disjunction of parts, of which a single one stands for itself. -/
def disjunction : List (Expr α) → Expr α
  | [part] => part
  | parts => .any parts

/-- The conjunction of parts, with an expression for the empty one. -/
def allOr (empty : Expr α) : List (Expr α) → Expr α
  | [] => empty
  | parts => conjunction parts

/-- The disjunction of parts, with an expression for the empty one. -/
def anyOr (empty : Expr α) : List (Expr α) → Expr α
  | [] => empty
  | parts => disjunction parts

/-- The expression of alternatives. -/
def ofAlternatives (alternatives : List (List (Expr α))) : Expr α :=
  disjunction (alternatives.map conjunction)

@[simp] theorem conjunction_singleton (part : Expr α) : conjunction [part] = part := rfl

@[simp] theorem disjunction_singleton (part : Expr α) : disjunction [part] = part := rfl

@[simp] theorem ofAlternatives_singleton (factors : List (Expr α)) :
    ofAlternatives [factors] = conjunction factors := rfl

/-! ### Values -/

section Eval

variable [Lattice β] [BoundedOrder β] [Compl β] (v : α → β)

mutual

/-- The value of an expression. -/
def eval : Expr α → β
  | .atom value => v value
  | .not part => (eval part)ᶜ
  | .all parts => conj (evals parts)
  | .any parts => disj (evals parts)

/-- The values of expressions in turn. -/
def evals : List (Expr α) → List β
  | [] => []
  | part :: parts => eval part :: evals parts

end

theorem evals_eq_map (parts : List (Expr α)) : evals v parts = parts.map (eval v) := by
  induction parts with
  | nil => rfl
  | cons part parts ih => rw [evals, ih, List.map_cons]

@[simp] theorem eval_atom (value : α) : eval v (.atom value) = v value := by rw [eval]

@[simp] theorem eval_not (part : Expr α) : eval v (.not part) = (eval v part)ᶜ := by rw [eval]

@[simp] theorem eval_all (parts : List (Expr α)) :
    eval v (.all parts) = conj (parts.map (eval v)) := by
  rw [eval, evals_eq_map]

@[simp] theorem eval_any (parts : List (Expr α)) :
    eval v (.any parts) = disj (parts.map (eval v)) := by
  rw [eval, evals_eq_map]

@[simp] theorem eval_conjunction (parts : List (Expr α)) :
    eval v (conjunction parts) = conj (parts.map (eval v)) := by
  unfold conjunction
  split
  · rw [List.map_singleton, conj_singleton]
  · exact eval_all v parts

@[simp] theorem eval_disjunction (parts : List (Expr α)) :
    eval v (disjunction parts) = disj (parts.map (eval v)) := by
  unfold disjunction
  split
  · rw [List.map_singleton, disj_singleton]
  · exact eval_any v parts

theorem eval_ofAlternatives (alternatives : List (List (Expr α))) :
    eval v (ofAlternatives alternatives) =
      disj (alternatives.map fun factors => conj (factors.map (eval v))) := by
  have hfactors : ∀ factors : List (Expr α),
      eval v (conjunction factors) = conj (factors.map (eval v)) := eval_conjunction v
  calc eval v (ofAlternatives alternatives)
      = disj ((alternatives.map conjunction).map (eval v)) := by
        rw [ofAlternatives, eval_disjunction]
    _ = disj (alternatives.map fun factors => eval v (conjunction factors)) := by
        rw [List.map_map]
        rfl
    _ = disj (alternatives.map fun factors => conj (factors.map (eval v))) := by
        simp only [hfactors]

end Eval

end Expr

/-! ### Lists that run together -/

section Glue

variable {α β : Type}

/-- Two lists of lists next to each other, the last of the one running into the first of the
other. -/
def glue : List (List α) → List (List α) → List (List α)
  | [], others => others
  | [last], [] => [last]
  | [last], first :: others => (last ++ first) :: others
  | item :: next :: items, others => item :: glue (next :: items) others

@[simp] theorem glue_nil (others : List (List α)) : glue [] others = others := rfl

@[simp] theorem glue_singleton_cons (last first : List α) (others : List (List α)) :
    glue [last] (first :: others) = (last ++ first) :: others := rfl

@[simp] theorem glue_cons_cons (item next : List α) (items others : List (List α)) :
    glue (item :: next :: items) others = item :: glue (next :: items) others := rfl

theorem glue_cons_of_ne_nil {items : List (List α)} (hitems : items ≠ []) (item : List α)
    (others : List (List α)) : glue (item :: items) others = item :: glue items others := by
  cases items with
  | nil => exact absurd rfl hitems
  | cons next items => rfl

@[simp] theorem glue_nil_right (items : List (List α)) : glue items [] = items := by
  induction items with
  | nil => rfl
  | cons item items ih =>
    cases items with
    | nil => rfl
    | cons next items => rw [glue_cons_cons, ih]

/-- Nothing is lost or moved when lists run together. -/
@[simp] theorem flatten_glue (items others : List (List α)) :
    (glue items others).flatten = items.flatten ++ others.flatten := by
  induction items with
  | nil => rfl
  | cons item items ih =>
    cases items with
    | nil => cases others <;> simp
    | cons next items => rw [glue_cons_cons, List.flatten_cons, ih, List.flatten_cons (l := item),
        List.append_assoc]

/-- Several lists of lists next to each other. -/
def glueAll (lists : List (List (List α))) : List (List α) := lists.foldr glue []

@[simp] theorem glueAll_nil : glueAll ([] : List (List (List α))) = [] := rfl

@[simp] theorem glueAll_cons (items : List (List α)) (lists : List (List (List α))) :
    glueAll (items :: lists) = glue items (glueAll lists) := rfl

theorem glueAll_singleton (items : List (List α)) : glueAll [items] = items := by simp

@[simp] theorem flatten_glueAll (lists : List (List (List α))) :
    (glueAll lists).flatten = (lists.map List.flatten).flatten := by
  induction lists with
  | nil => rfl
  | cons items lists ih => rw [glueAll_cons, flatten_glue, ih, List.map_cons, List.flatten_cons]

/-- Lists that hold one list each run together into one. -/
theorem glueAll_map_singleton {items : List (List α)} (hne : items ≠ []) :
    glueAll (items.map fun item => [item]) = [items.flatten] := by
  induction items with
  | nil => exact absurd rfl hne
  | cons item items ih =>
    cases items with
    | nil => simp
    | cons next items =>
      rw [List.map_cons, glueAll_cons, ih (by simp), glue_singleton_cons]
      rfl

theorem glueAll_map_singletons {items : List α} (hne : items ≠ []) :
    glueAll (items.map fun item => [[item]]) = [items] := by
  have hlists : items.map (fun item => [item]) ≠ [] := by simpa using hne
  have hflatten : (items.map fun item => [item]).flatten = items := by
    rw [← List.flatMap_def, List.flatMap_singleton']
  have hglue := glueAll_map_singleton hlists
  rwa [List.map_map, hflatten] at hglue

/-- Splitting at separators turns lists next to each other into pieces that run together. -/
theorem splitOnP_append (p : α → Bool) (items others : List α) :
    (items ++ others).splitOnP p = glue (items.splitOnP p) (others.splitOnP p) := by
  induction items with
  | nil =>
    -- nothing has one piece, the empty one
    obtain ⟨first, rest, hothers⟩ := List.exists_cons_of_ne_nil (List.splitOnP_ne_nil p others)
    rw [List.nil_append, List.splitOnP_nil, hothers, glue_singleton_cons, List.nil_append]
  | cons item items ih =>
    rw [List.cons_append, List.splitOnP_cons_eq_if_modifyHead,
      List.splitOnP_cons_eq_if_modifyHead, ih]
    have hne := List.splitOnP_ne_nil p items
    split
    · rw [glue_cons_of_ne_nil hne]
    · -- the item becomes part of the first piece on both sides
      obtain ⟨first, rest, hitems⟩ := List.exists_cons_of_ne_nil hne
      obtain ⟨other, more, hothers⟩ := List.exists_cons_of_ne_nil (List.splitOnP_ne_nil p others)
      rw [hitems, hothers]
      cases rest <;> rfl

/-- A reader that takes apart what runs together reads glued lists as glued results. -/
theorem mapM_glue {f : List α → Option (List β)} {separator : α}
    (hf : ∀ {last first factors more}, f last = some factors → f first = some more →
      f (last ++ separator :: first) = some (factors ++ more))
    {items : List (List α)} {results : List (List β)} (hne : items ≠ [])
    (hitems : items.mapM f = some results)
    {first : List α} {others : List (List α)} {more : List (List β)}
    (hothers : (first :: others).mapM f = some more) :
    (glue items ((separator :: first) :: others)).mapM f = some (glue results more) := by
  obtain ⟨factors, rest, hfirst, hrest, rfl⟩ : ∃ factors rest, f first = some factors ∧
      others.mapM f = some rest ∧ more = factors :: rest := by
    rw [List.mapM_cons] at hothers
    obtain ⟨factors, hfirst, hothers⟩ := Option.bind_eq_some_iff.1 hothers
    obtain ⟨rest, hrest, hmore⟩ := Option.bind_eq_some_iff.1 hothers
    exact ⟨factors, rest, hfirst, hrest, (Option.some.inj hmore).symm⟩
  -- only the last item meets the separator, those in front of it are read as before
  induction items generalizing results with
  | nil => exact absurd rfl hne
  | cons item items ih =>
    rw [List.mapM_cons] at hitems
    obtain ⟨head, hitem, hitems⟩ := Option.bind_eq_some_iff.1 hitems
    obtain ⟨tail, htail, hresults⟩ := Option.bind_eq_some_iff.1 hitems
    obtain rfl : head :: tail = results := Option.some.inj hresults
    cases items with
    | nil =>
      obtain rfl : tail = [] := by simpa using htail.symm
      rw [glue_singleton_cons, List.mapM_cons, hf hitem hfirst, hrest]
      rfl
    | cons next items =>
      have htail' : tail ≠ [] := by
        rintro rfl
        rw [List.mapM_cons] at htail
        obtain ⟨_, _, htail⟩ := Option.bind_eq_some_iff.1 htail
        obtain ⟨_, _, htail⟩ := Option.bind_eq_some_iff.1 htail
        exact absurd (Option.some.inj htail) (by simp)
      rw [glue_cons_cons, List.mapM_cons, hitem, ih (by simp) htail,
        glue_cons_of_ne_nil htail']
      rfl

end Glue

end Criteria
