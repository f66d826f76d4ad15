import Criteria.Calendar
import Criteria.Config.Document
import Criteria.Numeric.Binary64
import Criteria.Text.Digit
import Criteria.Text.Split

/-!
# Keys and scalars of TOML

A key is bare or quoted, and parts of a dotted key are separated by points. Strings are basic, with
escapes, or literal, and each of these may span lines between threefold quotes. All other scalars
are words: booleans, integers in four bases with underscores between digits, other numbers, and
dates and times.

Integers that need more than 128 bits and numbers beyond the finite doubles are mistakes.

Every reader takes the characters from the current position and answers with what it read and the
rest; `none` is a mistake in the text.
-/

namespace Criteria.Config.Toml

/-- The blanks within a line. -/
def isBlank (c : Char) : Bool := c = ' ' || c = '\t'

/-- Drops the blanks up to the next character of a line. -/
def skipBlanks (chars : List Char) : List Char := chars.dropWhile isBlank

/-- A control character that no text may hold; tabs are none. -/
def isControl (c : Char) : Bool := (c.toNat < 0x20 && c ≠ '\t') || c.toNat = 0x7f

/-! ### Strings -/

/-- The character of an escape, behind its backslash. -/
def readEscape? : List Char → Option (Char × List Char)
  | 'b' :: rest => some ('\x08', rest)
  | 't' :: rest => some ('\t', rest)
  | 'n' :: rest => some ('\n', rest)
  | 'f' :: rest => some ('\x0c', rest)
  | 'r' :: rest => some ('\r', rest)
  | 'e' :: rest => some ('\x1b', rest)
  | '"' :: rest => some ('"', rest)
  | '\\' :: rest => some ('\\', rest)
  | 'x' :: rest => Text.readCode? 2 rest
  | 'u' :: rest => Text.readCode? 4 rest
  | 'U' :: rest => Text.readCode? 8 rest
  | _ => none

/-- Reads a basic string behind its opening quote. -/
def readBasic? (acc : List Char) : (fuel : Nat) → List Char → Option (String × List Char)
  | 0, _ | _, [] => none
  | fuel + 1, '"' :: rest => let _ := fuel; some (String.ofList acc.reverse, rest)
  | fuel + 1, '\\' :: rest =>
    match readEscape? rest with
    | some (c, rest) => readBasic? (c :: acc) fuel rest
    | none => none
  | fuel + 1, c :: rest => if isControl c then none else readBasic? (c :: acc) fuel rest

/-- Reads a literal string behind its opening quote. -/
def readLiteral? (acc : List Char) : List Char → Option (String × List Char)
  | [] => none
  | '\'' :: rest => some (String.ofList acc.reverse, rest)
  | c :: rest => if isControl c then none else readLiteral? (c :: acc) rest

/-- Closes a string of several lines behind its threefold quote. Up to two more quotes before the
end belong to the string. -/
def closeLines (quote : Char) (acc : List Char) (rest : List Char) : String × List Char :=
  let extra := (rest.take 2).takeWhile (· = quote)
  (String.ofList (extra.foldl (fun acc c => c :: acc) acc).reverse, rest.drop extra.length)

/-- Drops blanks and line ends. -/
def skipSpace : List Char → List Char
  | [] => []
  | '\r' :: '\n' :: rest => skipSpace rest
  | c :: rest => if isBlank c || c = '\n' then skipSpace rest else c :: rest

/-- Drops the blanks and line ends behind a backslash that ends a line; `none` if it does not. -/
def skipLineEnd? (chars : List Char) : Option (List Char) :=
  match skipBlanks chars with
  | '\n' :: rest => some (skipSpace rest)
  | '\r' :: '\n' :: rest => some (skipSpace rest)
  | _ => none

/-- Reads a basic string of several lines behind its opening quotes. Line ends stay as they are. -/
def readBasicLines? (acc : List Char) : (fuel : Nat) → List Char → Option (String × List Char)
  | 0, _ | _, [] => none
  | fuel + 1, '"' :: '"' :: '"' :: rest => let _ := fuel; some (closeLines '"' acc rest)
  | fuel + 1, '\r' :: '\n' :: rest => readBasicLines? ('\n' :: '\r' :: acc) fuel rest
  | fuel + 1, '\n' :: rest => readBasicLines? ('\n' :: acc) fuel rest
  | fuel + 1, '\\' :: rest =>
    match readEscape? rest, skipLineEnd? rest with
    | some (c, rest), _ => readBasicLines? (c :: acc) fuel rest
    | none, some rest => readBasicLines? acc fuel rest
    | none, none => none
  | fuel + 1, c :: rest => if isControl c then none else readBasicLines? (c :: acc) fuel rest

/-- Reads a literal string of several lines behind its opening quotes. -/
def readLiteralLines? (acc : List Char) : List Char → Option (String × List Char)
  | [] => none
  | '\'' :: '\'' :: '\'' :: rest => some (closeLines '\'' acc rest)
  | '\r' :: '\n' :: rest => readLiteralLines? ('\n' :: '\r' :: acc) rest
  | '\n' :: rest => readLiteralLines? ('\n' :: acc) rest
  | c :: rest => if isControl c then none else readLiteralLines? (c :: acc) rest

/-- Drops the line end directly behind the opening quotes of a string of several lines. -/
def skipFirstLineEnd : List Char → List Char
  | '\n' :: rest => rest
  | '\r' :: '\n' :: rest => rest
  | chars => chars

/-- Reads a string on one line. -/
def readQuoted? : List Char → Option (String × List Char)
  | '"' :: rest => readBasic? [] (rest.length + 1) rest
  | '\'' :: rest => readLiteral? [] rest
  | _ => none

/-- Reads a string. -/
def readString? : List Char → Option (String × List Char)
  | '"' :: '"' :: '"' :: rest => readBasicLines? [] (rest.length + 1) (skipFirstLineEnd rest)
  | '\'' :: '\'' :: '\'' :: rest => readLiteralLines? [] (skipFirstLineEnd rest)
  | chars => readQuoted? chars

/-! ### Keys -/

/-- The characters of a bare key. -/
def isBareKey (c : Char) : Bool := c.isAlphanum || c = '_' || c = '-'

/-- Reads one part of a key. -/
def readKeyPart? (chars : List Char) : Option (String × List Char) :=
  match chars with
  | '"' :: _ | '\'' :: _ => readQuoted? chars
  | _ =>
    let bare := chars.takeWhile isBareKey
    if bare.isEmpty then none else some (String.ofList bare, chars.dropWhile isBareKey)

/-- Reads a key of at least one and at most `limit` parts; blanks may surround the points. -/
def readParts? : (limit : Nat) → List Char → Option (List String × List Char)
  | 0, _ => none
  | limit + 1, chars => do
    let (part, rest) ← readKeyPart? (skipBlanks chars)
    match skipBlanks rest with
    | '.' :: rest => do
      let (parts, rest) ← readParts? limit rest
      return (part :: parts, rest)
    | rest => return ([part], rest)

/-- The number of parts that a key may have. -/
def partLimit : Nat := 80

/-- Reads a key. -/
def readKey? (chars : List Char) : Option (List String × List Char) := readParts? partLimit chars

/-! ### Words -/

/-- Digits with single underscores between them. -/
def isDigitRun (isDigit : Char → Bool) (chars : List Char) : Bool :=
  (Text.split '_' chars).all fun run => !run.isEmpty && run.all isDigit

/-- Digits of a decimal number, without a leading zero. -/
def isDecimal (chars : List Char) : Bool :=
  isDigitRun Char.isDigit chars && (chars.head? ≠ some '0' || chars.length = 1)

/-- The value of digits with underscores among them. -/
def runValue (base : Nat) (chars : List Char) : Nat :=
  (chars.filterMap (Text.digit? 16)).foldl (fun n d => base * n + d) 0

/-- A word without its sign, and whether that is a minus. -/
def splitSign : List Char → Bool × List Char
  | '-' :: rest => (true, rest)
  | '+' :: rest => (false, rest)
  | chars => (false, chars)

/-- An integer of at most 128 bits, signed or unsigned. -/
def fitsInteger (value : Int) : Bool :=
  -(Nat.pow 2 127 : Int) ≤ value && value < (Nat.pow 2 128 : Int)

/-- The integer that a word spells, of any size. Only decimal integers have a sign. -/
def integer? (word : List Char) : Option Int :=
  match word with
  | '0' :: 'x' :: digits =>
    if isDigitRun (fun c => (Text.digit? 16 c).isSome) digits then some (runValue 16 digits)
    else none
  | '0' :: 'o' :: digits =>
    if isDigitRun (fun c => '0' ≤ c && c ≤ '7') digits then some (runValue 8 digits) else none
  | '0' :: 'b' :: digits =>
    if isDigitRun (fun c => c = '0' || c = '1') digits then some (runValue 2 digits) else none
  | _ =>
    let (negative, digits) := splitSign word
    let magnitude : Int := runValue 10 digits
    if isDecimal digits then some (if negative then -magnitude else magnitude) else none

/-- The exponent that the end of a number spells; zero if there is no more. -/
def exponent? : List Char → Option Int
  | [] => some 0
  | e :: rest =>
    let (negative, digits) := splitSign rest
    let magnitude : Int := runValue 10 digits
    if (e = 'e' || e = 'E') && isDigitRun Char.isDigit digits then
      some (if negative then -magnitude else magnitude)
    else none

/-- Whether digits before and behind the point, with a power of ten, are a finite double. -/
def isFinite (whole places : List Char) (exponent : Int) : Bool :=
  let scale := exponent - (places.filter Char.isDigit).length
  (Binary64.ofDecimal false (runValue 10 (whole ++ places)) scale).isSome

/-- Whether a word spells a number that is no integer. -/
def isFraction (word : List Char) : Bool :=
  let (_, unsigned) := splitSign word
  let inDigits (c : Char) : Bool := c.isDigit || c = '_'
  let whole := unsigned.takeWhile inDigits
  unsigned = ['i', 'n', 'f'] || unsigned = ['n', 'a', 'n'] ||
    (isDecimal whole &&
      match unsigned.dropWhile inDigits with
      | '.' :: rest =>
        let places := rest.takeWhile inDigits
        isDigitRun Char.isDigit places &&
          (exponent? (rest.dropWhile inDigits)).any (isFinite whole places)
      | [] => false
      | rest => (exponent? rest).any (isFinite whole []))

/-- Reads a date of fixed width. -/
def readDay? (chars : List Char) : Option (List Char) := do
  let (year, rest) ← Calendar.readFixed? 4 chars
  let (month, rest) ← Calendar.readFixed? 2 (← Calendar.readChar? '-' rest)
  let (day, rest) ← Calendar.readFixed? 2 (← Calendar.readChar? '-' rest)
  if Calendar.isDay year month day then some rest else none

/-- Reads the second of a time of day, with its fraction; it may be missing. -/
def readSecond? : List Char → Option (Nat × List Char)
  | ':' :: rest => do
    let (second, rest) ← Calendar.readFixed? 2 rest
    return (second, ← Calendar.readFraction? rest)
  | chars => some (0, chars)

/-- Reads a time of day of fixed width. -/
def readClock? (chars : List Char) : Option (List Char) := do
  let (hour, rest) ← Calendar.readFixed? 2 chars
  let (minute, rest) ← Calendar.readFixed? 2 (← Calendar.readChar? ':' rest)
  let (second, rest) ← readSecond? rest
  if Calendar.isTimeOfDay hour minute second then some rest else none

/-- Whether a word is a date, a time, or both with an optional offset. -/
def isMoment (word : List Char) : Bool :=
  readClock? word = some [] ||
    match readDay? word with
    | none => false
    | some [] => true
    | some rest =>
      match (Calendar.readJoint? rest).bind readClock? with
      | none => false
      | some [] => true
      | some offset => Calendar.readOffset? offset = some []

/-- The characters of words. -/
def isWordChar (c : Char) : Bool :=
  c.isAlphanum || c = '_' || c = '+' || c = '-' || c = '.' || c = ':'

/-- Splits off the word at the current position. A date may go on with a time behind a space. -/
def splitWord (chars : List Char) : List Char × List Char :=
  let word := chars.takeWhile isWordChar
  let rest := chars.dropWhile isWordChar
  match rest with
  | ' ' :: d :: _ =>
    if d.isDigit && readDay? word = some [] then
      let clock := (rest.drop 1).takeWhile isWordChar
      (word ++ ' ' :: clock, (rest.drop 1).dropWhile isWordChar)
    else (word, rest)
  | _ => (word, rest)

/-- The key under which a date or time stands in a table of its own. -/
def momentKey : String := "$moment"

/-- Reads a scalar that is no string. A date or a time is a table with one key of its own, which
no section knows. -/
def readWord? (chars : List Char) : Option (Document × List Char) :=
  let (word, rest) := splitWord chars
  if word = "true".toList then some (.bool true, rest)
  else if word = "false".toList then some (.bool false, rest)
  else
    match integer? word with
    | some value => if fitsInteger value then some (.integer value, rest) else none
    | none =>
      if isFraction word then some (.fraction, rest)
      else if isMoment word then some (.table [(momentKey, .text (String.ofList word))], rest)
      else none

end Criteria.Config.Toml
