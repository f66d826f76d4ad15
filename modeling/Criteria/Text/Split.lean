/-!
# Cutting text at a character

`split sep` cuts a text at every occurrence of `sep`, so there is always one part more than there
are separators, and joining the parts gives the text back.
-/

namespace Criteria.Text

/-- The parts between the occurrences of a separator; a text without one is a single part. -/
def split (sep : Char) : List Char → List (List Char)
  | [] => [[]]
  | c :: rest =>
    if c = sep then [] :: split sep rest
    else
      match split sep rest with
      | [] => [[c]]
      | part :: parts => (c :: part) :: parts

/-- The parts with the separator between them. -/
def join (sep : List Char) : List (List Char) → List Char
  | [] => []
  | [part] => part
  | part :: parts => part ++ sep ++ join sep parts

/-- There is always a first part. -/
theorem split_ne_nil (sep : Char) (chars : List Char) : split sep chars ≠ [] := by
  cases chars with
  | nil => simp [split]
  | cons c rest =>
    simp only [split]
    split
    · simp
    · split <;> simp

/-- Joining the parts gives the text back. -/
theorem join_split (sep : Char) (chars : List Char) : join [sep] (split sep chars) = chars := by
  induction chars with
  | nil => rfl
  | cons c rest ih =>
    simp only [split]
    split
    · next heq =>
      cases hs : split sep rest with
      | nil => exact absurd hs (split_ne_nil sep rest)
      | cons part parts => rw [hs] at ih; simp [join, ih, heq]
    · cases hs : split sep rest with
      | nil => exact absurd hs (split_ne_nil sep rest)
      | cons part parts =>
        rw [hs] at ih
        cases parts with
        | nil => simpa [join] using ih
        | cons next parts => simpa [join] using ih

/-- Whether a text occurs within another one. -/
def occursIn (needle : List Char) : List Char → Bool
  | [] => needle.isEmpty
  | c :: rest => needle.isPrefixOf (c :: rest) || occursIn needle rest

end Criteria.Text
