import Criteria.Text.Blank

/-!
# Text that shows every character

A text may be quoted so that a reader sees all its characters: quotes and backslashes are escaped,
and so are characters without a shape of their own, such as controls, blanks other than the space,
and marks that combine with the character before them.
-/

namespace Criteria.Text

/-- Ranges of characters that are no blanks and yet have no shape of their own: controls, format
characters, combining marks and codes without a meaning. -/
def shapeless : List (Nat × Nat) :=
  [(0x00, 0x1f), (0x7f, 0x9f), (0xad, 0xad), (0x300, 0x36f), (0x483, 0x489), (0x591, 0x5bd),
   (0x600, 0x605), (0x610, 0x61a), (0x61c, 0x61c), (0x64b, 0x65f), (0x6dd, 0x6dd), (0x70f, 0x70f),
   (0x180b, 0x180f), (0x1ab0, 0x1ace), (0x1dc0, 0x1dff), (0x200b, 0x200f), (0x202a, 0x202e),
   (0x2060, 0x206f), (0x20d0, 0x20f0), (0x302a, 0x302f), (0x3099, 0x309a), (0xe000, 0xf8ff),
   (0xfe00, 0xfe0f), (0xfe20, 0xfe2f), (0xfeff, 0xfeff), (0xfff0, 0xfffb), (0xfffe, 0xffff),
   (0xe0000, 0x10ffff)]

/-- Whether a character shows. -/
def isVisible (c : Char) : Bool :=
  c = ' ' || (!isBlank c && !shapeless.any fun (low, high) => low ≤ c.toNat && c.toNat ≤ high)

/-- A character as it shows between quotes. -/
def showChar (c : Char) : List Char :=
  match c with
  | '\x00' => ['\\', '0']
  | '\t' => ['\\', 't']
  | '\n' => ['\\', 'n']
  | '\r' => ['\\', 'r']
  | '"' => ['\\', '"']
  | '\\' => ['\\', '\\']
  | c =>
    if isVisible c then [c] else ['\\', 'u', '\x7b'] ++ Nat.toDigits 16 c.toNat ++ ['\x7d']

/-- A text between quotes, with every character showing. -/
def shown (s : String) : String := String.ofList ('"' :: s.toList.flatMap showChar ++ ['"'])

end Criteria.Text
