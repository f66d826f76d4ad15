import Criteria.Search.Wildcard

/-!
# Wildcard patterns keep their text

Patterns are written character by character, and no character is written as the beginning of
another one. So a pattern can be cut into what it was written from, in one way only.

* `eq_of_flatMap_eq` — this law for every way of writing characters;
* `escapeWildcards_inj` — the pattern for a text determines the text;
* `ofLike_inj` — the wildcard pattern for a `LIKE` pattern determines the `LIKE` pattern.
-/

namespace Criteria.Search

/-- What is written item by item is determined by the outcome, if nothing is written as the
beginning of something else. -/
theorem eq_of_flatMap_eq {α β : Type} {write : α → List β} (hne : ∀ item, write item ≠ [])
    (hbegin : ∀ item other, write item <+: write other → item = other) {items : List α} :
    ∀ {others : List α}, items.flatMap write = others.flatMap write → items = others := by
  induction items with
  | nil =>
    intro others h
    cases others with
    | nil => rfl
    | cons other others =>
      rw [List.flatMap_nil, List.flatMap_cons] at h
      exact absurd (List.append_eq_nil_iff.1 h.symm).1 (hne other)
  | cons item items ih =>
    intro others h
    cases others with
    | nil =>
      rw [List.flatMap_nil, List.flatMap_cons] at h
      exact absurd (List.append_eq_nil_iff.1 h).1 (hne item)
    | cons other others =>
      rw [List.flatMap_cons, List.flatMap_cons] at h
      -- both first items begin the same outcome, so one of them begins the other
      have hitem : write item <+: write other ++ others.flatMap write := h ▸ List.prefix_append _ _
      have hother : write other <+: write other ++ others.flatMap write := List.prefix_append _ _
      have hsame : item = other := by
        rcases List.prefix_or_prefix_of_prefix hitem hother with hbegins | hbegins
        · exact hbegin item other hbegins
        · exact (hbegin other item hbegins).symm
      subst hsame
      rw [ih (List.append_cancel_left h)]

/-! ### Escaped texts -/

theorem escapeWildcard_ne_nil (c : Char) : escapeWildcard c ≠ [] := by
  unfold escapeWildcard
  split <;> simp

/-- A backslash is escaped itself, so it never begins a character that stands for itself. -/
theorem eq_of_escapeWildcard_prefix {c d : Char} (h : escapeWildcard c <+: escapeWildcard d) :
    c = d := by
  unfold escapeWildcard at h
  split at h <;> split at h
  · simpa using h
  · simp at h
  · next hplain _ =>
    obtain rfl : c = '\\' := by simpa using h
    exact absurd rfl hplain
  · simpa using h

theorem escapeWildcards_inj {text other : List Char} :
    escapeWildcards text = escapeWildcards other ↔ text = other := by
  constructor
  · exact eq_of_flatMap_eq escapeWildcard_ne_nil fun _ _ => eq_of_escapeWildcard_prefix
  · intro h
    rw [h]

/-! ### Patterns -/

/-- The wildcard of a character of a `LIKE` pattern. -/
def likeWildcard (c : Char) : List Char :=
  if c = '%' then ['*'] else if c = '_' then ['?'] else escapeWildcard c

theorem ofLike_eq_flatMap (pattern : List Char) : ofLike pattern = pattern.flatMap likeWildcard :=
  rfl

/-- An asterisk or a question mark is no character of a text, neither escaped nor by itself. -/
theorem not_prefix_escapeWildcard {c mark : Char} (hmark : isWildcard mark = true)
    (hescape : mark ≠ '\\') :
    ¬ [mark] <+: escapeWildcard c ∧ ¬ escapeWildcard c <+: [mark] := by
  unfold escapeWildcard
  split
  · simp [hescape]
  · next hplain =>
    have hne : mark ≠ c := fun h => hplain (h ▸ hmark)
    simp [hne, hne.symm]

theorem likeWildcard_ne_nil (c : Char) : likeWildcard c ≠ [] := by
  unfold likeWildcard
  split
  · simp
  · split
    · simp
    · exact escapeWildcard_ne_nil c

theorem eq_of_likeWildcard_prefix {c d : Char} (h : likeWildcard c <+: likeWildcard d) : c = d := by
  have hstar : ∀ c, ¬ ['*'] <+: escapeWildcard c ∧ ¬ escapeWildcard c <+: ['*'] := fun _ =>
    not_prefix_escapeWildcard rfl (by decide)
  have hmark : ∀ c, ¬ ['?'] <+: escapeWildcard c ∧ ¬ escapeWildcard c <+: ['?'] := fun _ =>
    not_prefix_escapeWildcard rfl (by decide)
  unfold likeWildcard at h
  -- each of the two characters is a percent sign, an underscore or a character of text
  split at h
  · next hc =>
    split at h
    · next hd => rw [hc, hd]
    · split at h
      · simp at h
      · exact absurd h (hstar d).1
  · split at h
    · next hc =>
      split at h
      · simp at h
      · split at h
        · next hd => rw [hc, hd]
        · exact absurd h (hmark d).1
    · split at h
      · exact absurd h (hstar c).2
      · split at h
        · exact absurd h (hmark c).2
        · exact eq_of_escapeWildcard_prefix h

theorem ofLike_inj {pattern other : List Char} :
    ofLike pattern = ofLike other ↔ pattern = other := by
  rw [ofLike_eq_flatMap, ofLike_eq_flatMap]
  constructor
  · exact eq_of_flatMap_eq likeWildcard_ne_nil fun _ _ => eq_of_likeWildcard_prefix
  · intro h
    rw [h]

end Criteria.Search
