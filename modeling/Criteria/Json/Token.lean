import Criteria.Json.Basic
import Criteria.Text.Digit

/-!
# Lexemes of JSON text

`Json.Token.scan` splits a text into its lexemes: brackets, commas, colons, strings and the other
scalars. The grammar is the strict one. Only space, tab, line feed and carriage return are blank.
A string holds no raw control character. A number has no leading zero and no plus sign.

A number without fraction and exponent is an integer if it fits 64 bits, signed or unsigned; `-0`
and larger ones are doubles.

Two kinds of lexemes keep to the grammar and still are no values: a string with an escaped surrogate
that is not half of a pair, and a number whose double would not be finite. They are unreadable.
-/

namespace Criteria.Json

/-- A lexeme. -/
inductive Token where
  | beginObject
  | endObject
  | beginArray
  | endArray
  | comma
  | colon
  /-- A string. -/
  | text (value : String)
  /-- A number, a boolean or `null`. -/
  | scalar (value : Json)
  /-- A string or a number that is no value. -/
  | unreadable
deriving DecidableEq, Repr

namespace Token

/-- The blanks of JSON text. -/
def isBlank (c : Char) : Bool := c = ' ' || c = '\t' || c = '\n' || c = '\r'

/-! ### Strings -/

/-- The code unit of four hexadecimal digits. -/
def codeUnit? (a b c d : Char) : Option Nat := Text.natural? 16 [a, b, c, d]

/-- The character a one-letter escape stands for. -/
def escape? : Char → Option Char
  | '"' => some '"'
  | '\\' => some '\\'
  | '/' => some '/'
  | 'b' => some '\x08'
  | 'f' => some '\x0c'
  | 'n' => some '\n'
  | 'r' => some '\r'
  | 't' => some '\t'
  | _ => none

/-- A leading surrogate. -/
def isLeading (unit : Nat) : Bool := 0xD800 ≤ unit && unit < 0xDC00

/-- A trailing surrogate. -/
def isTrailing (unit : Nat) : Bool := 0xDC00 ≤ unit && unit < 0xE000

/-- The character of a surrogate pair. -/
def ofPair (leading trailing : Nat) : Char :=
  Char.ofNat (0x10000 + (leading - 0xD800) * 0x400 + (trailing - 0xDC00))

/-- A string so far. -/
structure OpenText where
  /-- The characters in reverse; none if they are unreadable. -/
  chars : Option (List Char) := some []
  /-- A leading surrogate that waits for the trailing one. -/
  leading : Option Nat := none

/-- Adds a character. -/
def OpenText.addChar (text : OpenText) (c : Char) : OpenText :=
  ⟨if text.leading.isSome then none else text.chars.map (c :: ·), none⟩

/-- Adds an escaped code unit. -/
def OpenText.addUnit (text : OpenText) (unit : Nat) : OpenText :=
  match text.leading with
  | some leading =>
    if isTrailing unit then ⟨text.chars.map (ofPair leading unit :: ·), none⟩
    else ⟨none, if isLeading unit then some unit else none⟩
  | none =>
    if isLeading unit then { text with leading := some unit }
    else if isTrailing unit then ⟨none, none⟩
    else text.addChar (Char.ofNat unit)

/-- The lexeme of a string. -/
def OpenText.token (text : OpenText) : Token :=
  match text.chars, text.leading with
  | some chars, none => .text (String.ofList chars.reverse)
  | _, _ => .unreadable

/-- Reads a string behind its opening quote, given what was read so far; the result is its lexeme
and the rest behind the closing quote. -/
def scanText (text : OpenText) : List Char → Option (Token × List Char)
  | [] => none
  | '"' :: rest => some (text.token, rest)
  | '\\' :: 'u' :: a :: b :: c :: d :: rest =>
    match codeUnit? a b c d with
    | none => none
    | some unit => scanText (text.addUnit unit) rest
  | '\\' :: e :: rest =>
    match escape? e with
    | none => none
    | some c => scanText (text.addChar c) rest
  | c :: rest => if c.toNat < 0x20 || c = '\\' then none else scanText (text.addChar c) rest

/-! ### Numbers -/

/-- An integer that fits 64 bits, signed or unsigned, and is not `-0`. -/
def fits64 (negative : Bool) (magnitude : Nat) : Bool :=
  if negative then decide (0 < magnitude ∧ magnitude ≤ Nat.pow 2 63)
  else decide (magnitude < Nat.pow 2 64)

/-- Reads the fraction of a number: its digits, none without a point. -/
def scanFraction : List Char → Option (List Char × List Char)
  | '.' :: rest =>
    let digits := rest.takeWhile Char.isDigit
    if digits.isEmpty then none else some (digits, rest.dropWhile Char.isDigit)
  | rest => some ([], rest)

/-- Reads the exponent of a number, `none` inside the result where there is none. -/
def scanExponent (chars : List Char) : Option (Option Int × List Char) :=
  let read (negative : Bool) (rest : List Char) : Option (Option Int × List Char) :=
    let digits := rest.takeWhile Char.isDigit
    let magnitude : Int := Text.decimal digits
    if digits.isEmpty then none
    else some (some (if negative then -magnitude else magnitude), rest.dropWhile Char.isDigit)
  let signed (rest : List Char) : Option (Option Int × List Char) :=
    match rest with
    | '+' :: rest' => read false rest'
    | '-' :: rest' => read true rest'
    | _ => read false rest
  match chars with
  | 'e' :: rest => signed rest
  | 'E' :: rest => signed rest
  | _ => some (none, chars)

/-- Reads the integer digits of a number: a single zero, or digits that do not start with one. -/
def scanWhole (chars : List Char) : Option (List Char × List Char) :=
  match chars with
  | '0' :: rest => some (['0'], rest)
  | _ =>
    let digits := chars.takeWhile Char.isDigit
    if digits.isEmpty then none else some (digits, chars.dropWhile Char.isDigit)

/-- Reads a number behind its sign; it may be unreadable. -/
def scanUnsigned (negative : Bool) (chars : List Char) : Option (Option Number × List Char) := do
  let (whole, afterWhole) ← scanWhole chars
  let (fraction, afterFraction) ← scanFraction afterWhole
  let (exponent, rest) ← scanExponent afterFraction
  if fraction.isEmpty && exponent.isNone && fits64 negative (Text.decimal whole) then
    let magnitude : Int := Text.decimal whole
    return (some (.int (if negative then -magnitude else magnitude)), rest)
  else
    let scale := exponent.getD 0 - (fraction.length : Int)
    let value := Binary64.ofDecimal negative (Text.decimal (whole ++ fraction)) scale
    return (value.map .double, rest)

/-- Reads a number; it may be unreadable. -/
def scanNumber : List Char → Option (Option Number × List Char)
  | '-' :: rest => scanUnsigned true rest
  | chars => scanUnsigned false chars

/-! ### Lexemes -/

/-- Reads one lexeme; the text does not start with a blank. -/
def next? : List Char → Option (Token × List Char)
  | '\x7b' :: rest => some (.beginObject, rest)
  | '\x7d' :: rest => some (.endObject, rest)
  | '[' :: rest => some (.beginArray, rest)
  | ']' :: rest => some (.endArray, rest)
  | ',' :: rest => some (.comma, rest)
  | ':' :: rest => some (.colon, rest)
  | '"' :: rest => scanText {} rest
  | 't' :: 'r' :: 'u' :: 'e' :: rest => some (.scalar (.bool true), rest)
  | 'f' :: 'a' :: 'l' :: 's' :: 'e' :: rest => some (.scalar (.bool false), rest)
  | 'n' :: 'u' :: 'l' :: 'l' :: rest => some (.scalar .null, rest)
  | chars =>
    (scanNumber chars).map fun (value, rest) =>
      (value.elim .unreadable fun number => .scalar (.number number), rest)

/-- Splits a text into lexemes, the ones already read coming reversed in `acc`. Every lexeme takes
at least one character, so `fuel` as large as the text is enough. -/
def scanFrom (acc : List Token) : (fuel : Nat) → List Char → Option (List Token)
  | _, [] => some acc.reverse
  | 0, _ :: _ => none
  | fuel + 1, c :: rest =>
    if isBlank c then scanFrom acc fuel rest
    else
      match next? (c :: rest) with
      | none => none
      | some (token, rest) => scanFrom (token :: acc) fuel rest

/-- The lexemes of a text; `none` if it has a part that is none. -/
def scan (input : String) : Option (List Token) :=
  scanFrom [] input.length input.toList

end Token

end Criteria.Json
