/-!
# Blanks and letter case

Names in declarations are read with the blanks around them dropped and often in any letter case.
Blanks are the characters with the Unicode property White_Space. Case folding is for ASCII letters
alone; every other character stands for itself.
-/

namespace Criteria.Text

/-- The characters with the Unicode property White_Space. -/
def isBlank (c : Char) : Bool :=
  let n := c.toNat
  (0x09 ≤ n && n ≤ 0x0D) || n = 0x20 || n = 0x85 || n = 0xA0 || n = 0x1680 ||
    (0x2000 ≤ n && n ≤ 0x200A) || n = 0x2028 || n = 0x2029 || n = 0x202F || n = 0x205F || n = 0x3000

/-- Drops the characters of a class from both ends. -/
def strip (drop : Char → Bool) (chars : List Char) : List Char :=
  ((chars.dropWhile drop).reverse.dropWhile drop).reverse

/-- The text without the blanks around it. -/
def trim (s : String) : String := String.ofList (strip isBlank s.toList)

/-- The text with its ASCII letters in lower case. -/
def lower (s : String) : String := String.ofList (s.toList.map Char.toLower)

end Criteria.Text
