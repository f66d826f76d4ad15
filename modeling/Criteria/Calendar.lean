import Criteria.Text.Blank
import Criteria.Text.Digit

/-!
# Dates and times of day

Which texts denote a date, a time of day or a date with a time. Days are those of the proleptic
Gregorian calendar.

* `Calendar.isDate`: year, month and day between hyphens. A year has at most four digits, or a sign
  and any number of them; a month and a day have at most two.
* `Calendar.isTime`: hour, minute and second between colons, each of at most two digits, and an
  optional fraction. A second of 60 stands for a leap second.
* `Calendar.isDateTime`: a date and a time joined by `T`, or a timestamp of fixed width with an
  offset from universal time.

Blanks may come before every number of a date and of a time, but not within a timestamp.
-/

namespace Criteria.Calendar

/-! ### Days -/

/-- A leap year of the Gregorian calendar. -/
def isLeapYear (year : Int) : Bool :=
  year % 4 = 0 && (year % 100 ≠ 0 || year % 400 = 0)

/-- The number of days of a month, zero if there is no such month. -/
def daysInMonth (year : Int) (month : Nat) : Nat :=
  match month with
  | 1 | 3 | 5 | 7 | 8 | 10 | 12 => 31
  | 4 | 6 | 9 | 11 => 30
  | 2 => if isLeapYear year then 29 else 28
  | _ => 0

/-- The years of the calendar. -/
def isYear (year : Int) : Bool := -262143 ≤ year && year ≤ 262142

/-- A day that exists. -/
def isDay (year : Int) (month day : Nat) : Bool :=
  isYear year && 1 ≤ day && day ≤ daysInMonth year month

/-- A time of day that exists; the sixtieth second is a leap second. -/
def isTimeOfDay (hour minute second : Nat) : Bool := hour ≤ 23 && minute ≤ 59 && second ≤ 60

/-! ### Numbers -/

/-- Drops the blanks a text starts with. -/
def skipBlanks (chars : List Char) : List Char := chars.dropWhile Text.isBlank

/-- Reads the digits a text starts with, at least one and at most `width`. -/
def readDigits? (width : Nat) (chars : List Char) : Option (List Char × List Char) :=
  let digits := (chars.take width).takeWhile Char.isDigit
  if digits.isEmpty then none else some (digits, chars.drop digits.length)

/-- Reads a number of at most two digits behind blanks. -/
def readNumber? (chars : List Char) : Option (Nat × List Char) :=
  (readDigits? 2 (skipBlanks chars)).map fun (digits, rest) => (Text.decimal digits, rest)

/-- Reads a year behind blanks: at most four digits, or a sign and any number of digits. -/
def readYear? (chars : List Char) : Option (Int × List Char) :=
  match skipBlanks chars with
  | '+' :: rest =>
    (readDigits? rest.length rest).map fun (digits, rest) => ((Text.decimal digits : Int), rest)
  | '-' :: rest =>
    (readDigits? rest.length rest).map fun (digits, rest) => (-(Text.decimal digits : Int), rest)
  | rest => (readDigits? 4 rest).map fun (digits, rest) => ((Text.decimal digits : Int), rest)

/-- Reads exactly `width` digits. -/
def readFixed? (width : Nat) (chars : List Char) : Option (Nat × List Char) :=
  match readDigits? width chars with
  | some (digits, rest) => if digits.length = width then some (Text.decimal digits, rest) else none
  | none => none

/-- Reads one given character. -/
def readChar? (c : Char) : List Char → Option (List Char)
  | d :: rest => if d = c then some rest else none
  | [] => none

/-- Reads the fraction of a second: nothing, or a point and at least one digit. -/
def readFraction? : List Char → Option (List Char)
  | '.' :: rest =>
    if (rest.takeWhile Char.isDigit).isEmpty then none else some (rest.dropWhile Char.isDigit)
  | chars => some chars

/-! ### Dates and times -/

/-- Reads a date; the result is what follows it. -/
def readDate? (chars : List Char) : Option (List Char) := do
  let (year, rest) ← readYear? chars
  let (month, rest) ← readNumber? (← readChar? '-' rest)
  let (day, rest) ← readNumber? (← readChar? '-' rest)
  if isDay year month day then some rest else none

/-- Reads a time of day; the result is what follows it. -/
def readTime? (chars : List Char) : Option (List Char) := do
  let (hour, rest) ← readNumber? chars
  let (minute, rest) ← readNumber? (← readChar? ':' rest)
  let (second, rest) ← readNumber? (← readChar? ':' rest)
  let rest ← readFraction? rest
  if isTimeOfDay hour minute second then some rest else none

/-- Reads the offset of a timestamp: `Z`, or hours and minutes behind a sign. -/
def readOffset? : List Char → Option (List Char)
  | 'Z' :: rest => some rest
  | 'z' :: rest => some rest
  | sign :: rest =>
    if sign = '+' || sign = '-' || sign = '\u2212' then do
      let (hours, rest) ← readFixed? 2 rest
      let (minutes, rest) ← readFixed? 2 (← readChar? ':' rest)
      if hours ≤ 23 && minutes ≤ 59 then some rest else none
    else none
  | [] => none

/-- Reads the character between the date and the time of a timestamp. -/
def readJoint? : List Char → Option (List Char)
  | 'T' :: rest => some rest
  | 't' :: rest => some rest
  | ' ' :: rest => some rest
  | _ => none

/-- Reads a timestamp of fixed width with its offset; the result is what follows it. -/
def readTimestamp? (chars : List Char) : Option (List Char) := do
  let (year, rest) ← readFixed? 4 chars
  let (month, rest) ← readFixed? 2 (← readChar? '-' rest)
  let (day, rest) ← readFixed? 2 (← readChar? '-' rest)
  let (hour, rest) ← readFixed? 2 (← readJoint? rest)
  let (minute, rest) ← readFixed? 2 (← readChar? ':' rest)
  let (second, rest) ← readFixed? 2 (← readChar? ':' rest)
  let rest ← readOffset? (← readFraction? rest)
  if isDay year month day && isTimeOfDay hour minute second then some rest else none

/-- Reads a date and a time of day joined by `T`; the result is what follows them. -/
def readDateAndTime? (chars : List Char) : Option (List Char) := do
  readTime? (← readChar? 'T' (← readDate? chars))

/-- A date and nothing else. -/
def isDate (text : String) : Bool := readDate? text.toList = some []

/-- A time of day and nothing else. -/
def isTime (text : String) : Bool := readTime? text.toList = some []

/-- A date and a time of day, with an offset or without. -/
def isDateTime (text : String) : Bool :=
  readTimestamp? text.toList = some [] || readDateAndTime? text.toList = some []

end Criteria.Calendar
