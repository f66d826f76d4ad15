/-!
# Digits

Digits are ASCII, and those above nine are letters in either case. A number is read from the digits
of its text; a character may be written as the digits of its code.
-/

namespace Criteria.Text

/-- The value of a digit of a base, which is at most sixteen. -/
def digit? (base : Nat) (c : Char) : Option Nat :=
  let value :=
    if c.isDigit then c.toNat - '0'.toNat
    else if 'a' ≤ c ∧ c ≤ 'f' then c.toNat - 'a'.toNat + 10
    else if 'A' ≤ c ∧ c ≤ 'F' then c.toNat - 'A'.toNat + 10
    else base
  if value < base then some value else none

/-- The number with the given digits in a base, of which there is at least one. -/
def natural? (base : Nat) (digits : List Char) : Option Nat :=
  if digits.isEmpty then none
  else digits.foldlM (fun n c => (digit? base c).map fun d => base * n + d) 0

/-- The value of a run of decimal digits. -/
def decimal (digits : List Char) : Nat :=
  digits.foldl (fun n c => 10 * n + (c.toNat - '0'.toNat)) 0

/-- Reads the character whose code is written with exactly `width` hexadecimal digits. -/
def readCode? (width : Nat) (chars : List Char) : Option (Char × List Char) := do
  let digits := chars.take width
  let code ← natural? 16 digits
  if digits.length = width ∧ code.isValidChar then
    some (Char.ofNat code, chars.drop width)
  else none

end Criteria.Text
