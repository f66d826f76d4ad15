import Criteria.Json.Basic
import Criteria.Numeric.Shortest

/-!
# Writing JSON text

Two forms: `Json.compact` has no blanks at all, `Json.pretty` puts each item and each member on a
line of its own, indented by two spaces a level, and leaves empty containers closed.

Strings escape the quote, the backslash and the control characters below the space; everything
else stands for itself. Doubles have the shortest digits that read back and always show that they
are doubles: `1.0`, `1e+21`.
-/

namespace Criteria.Json

/-- A lower-case hexadecimal digit. -/
def hexDigit (n : Nat) : Char := Nat.digitChar n

/-- One character of a string. -/
def escapeChar (c : Char) : List Char :=
  match c with
  | '"' => ['\\', '"']
  | '\\' => ['\\', '\\']
  | '\x08' => ['\\', 'b']
  | '\x0c' => ['\\', 'f']
  | '\n' => ['\\', 'n']
  | '\r' => ['\\', 'r']
  | '\t' => ['\\', 't']
  | c =>
    if c.toNat < 0x20 then ['\\', 'u', '0', '0', hexDigit (c.toNat / 16), hexDigit (c.toNat % 16)]
    else [c]

/-- A string between quotes. -/
def quoted (s : String) : String :=
  String.ofList ('"' :: s.toList.flatMap escapeChar ++ ['"'])

/-- Doubles are positional from `0.00001` up to but without `10 ^ 16`. -/
def numberLayout : DecimalLayout := ⟨-5, 16, true⟩

/-- The text of a double. -/
def doubleText (x : Binary64) : String := String.ofList (numberLayout.write x.shortest)

/-- The text of a number. -/
def numberText : Number → String
  | .int i => toString i
  | .double x => doubleText x

mutual

/-- The text of a value without blanks. -/
def compact : Json → String
  | .null => "null"
  | .bool true => "true"
  | .bool false => "false"
  | .number n => numberText n
  | .string s => quoted s
  | .array [] => "[]"
  | .array (item :: items) => "[" ++ compact item ++ compactItems items ++ "]"
  | .object [] => "\x7b\x7d"
  | .object ((key, value) :: members) =>
    "\x7b" ++ quoted key ++ ":" ++ compact value ++ compactMembers members ++ "\x7d"

/-- Further items, each behind a comma. -/
def compactItems : List Json → String
  | [] => ""
  | item :: items => "," ++ compact item ++ compactItems items

/-- Further members, each behind a comma. -/
def compactMembers : List (String × Json) → String
  | [] => ""
  | (key, value) :: members =>
    "," ++ quoted key ++ ":" ++ compact value ++ compactMembers members

end

/-- A line break and the indentation of a level. -/
def newLine (level : Nat) : String := String.ofList ('\n' :: List.replicate (2 * level) ' ')

mutual

/-- The text of a value, one item or member a line, at a level of indentation. -/
def prettyAt (level : Nat) : Json → String
  | .array [] => "[]"
  | .array (item :: items) =>
    "[" ++ newLine (level + 1) ++ prettyAt (level + 1) item ++ prettyItems (level + 1) items ++
      newLine level ++ "]"
  | .object [] => "\x7b\x7d"
  | .object ((key, value) :: members) =>
    "\x7b" ++ newLine (level + 1) ++ quoted key ++ ": " ++ prettyAt (level + 1) value ++
      prettyMembers (level + 1) members ++ newLine level ++ "\x7d"
  | scalar => compact scalar

/-- Further items of an array. -/
def prettyItems (level : Nat) : List Json → String
  | [] => ""
  | item :: items => "," ++ newLine level ++ prettyAt level item ++ prettyItems level items

/-- Further members of an object. -/
def prettyMembers (level : Nat) : List (String × Json) → String
  | [] => ""
  | (key, value) :: members =>
    "," ++ newLine level ++ quoted key ++ ": " ++ prettyAt level value ++
      prettyMembers level members

end

/-- The text of a value, one item or member a line. -/
def pretty (value : Json) : String := prettyAt 0 value

end Criteria.Json
