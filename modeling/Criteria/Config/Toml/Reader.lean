import Criteria.Config.Toml.Scalar
import Criteria.Config.Toml.Tree

/-!
# Reading TOML

A TOML text is a sequence of lines: headers, assignments, comments and blank lines. Headers say
into which table the assignments below them go. Values are scalars, lists and inline tables. Lists
and inline tables may span lines and hold comments, a comma may stand behind the last of their
items, and they nest at most eighty deep.

Every step takes at least one character, so the length of the text bounds the number of steps.
-/

namespace Criteria.Config.Toml

/-- The characters that end a line. -/
def isLineEnd (c : Char) : Bool := c = '\n' || c = '\r'

/-- Drops a comment up to the end of its line; `none` if it holds a control character. -/
def skipComment? : List Char → Option (List Char)
  | '#' :: rest =>
    if (rest.takeWhile fun c => !isLineEnd c).any isControl then none
    else some (rest.dropWhile fun c => !isLineEnd c)
  | chars => some chars

/-- Ends a line: blanks, an optional comment, and a line end or the end of the text. -/
def endLine? (chars : List Char) : Option (List Char) := do
  match ← skipComment? (skipBlanks chars) with
  | [] => some []
  | '\n' :: rest => some rest
  | '\r' :: '\n' :: rest => some rest
  | _ => none

/-- Drops blanks, line ends and comments. -/
def skipLines? : (fuel : Nat) → List Char → Option (List Char)
  | 0, _ => none
  | fuel + 1, chars =>
    match skipBlanks chars with
    | '\n' :: rest => skipLines? fuel rest
    | '\r' :: '\n' :: rest => skipLines? fuel rest
    | '#' :: rest => (skipComment? ('#' :: rest)).bind (skipLines? fuel)
    | rest => some rest

/-- How deep lists and inline tables may nest. -/
def nestingLimit : Nat := 80

/-- Drops blanks, line ends and comments up to the next character that matters. -/
def skipGap? (chars : List Char) : Option (List Char) := skipLines? (chars.length + 1) chars

mutual

/-- Reads a value within which lists and inline tables nest at most `room` deep. -/
def readValue? (room : Nat) : (fuel : Nat) → List Char → Option (Document × List Char)
  | 0, _ => none
  | fuel + 1, chars =>
    match room, chars with
    | 0, '[' :: _ | 0, '\x7b' :: _ => none
    | room + 1, '[' :: rest => readItems? room [] fuel rest
    | room + 1, '\x7b' :: rest => readEntries? room [] fuel rest
    | _, '"' :: _ | _, '\'' :: _ =>
      (readString? chars).map fun (text, rest) => (.text text, rest)
    | _, _ => readWord? chars

/-- Reads the items of a list behind its bracket or behind a comma, those before coming reversed. -/
def readItems? (room : Nat) (acc : List Document) :
    (fuel : Nat) → List Char → Option (Document × List Char)
  | 0, _ => none
  | fuel + 1, chars => do
    match ← skipGap? chars with
    | ']' :: rest => some (.list acc.reverse, rest)
    | chars => do
      let (item, rest) ← readValue? room fuel chars
      match ← skipGap? rest with
      | ',' :: rest => readItems? room (item :: acc) fuel rest
      | ']' :: rest => some (.list (item :: acc).reverse, rest)
      | _ => none

/-- Reads the entries of an inline table behind its brace or behind a comma, given those before. -/
def readEntries? (room : Nat) (entries : Entries) :
    (fuel : Nat) → List Char → Option (Document × List Char)
  | 0, _ => none
  | fuel + 1, chars => do
    match ← skipGap? chars with
    | '\x7d' :: rest => some (.table (documents entries), rest)
    | chars => do
      let (key, rest) ← readKey? chars
      let rest ← Calendar.readChar? '=' (← skipGap? rest)
      let (value, rest) ← readValue? room fuel (← skipGap? rest)
      let entries ← assign value key entries
      match ← skipGap? rest with
      | ',' :: rest => readEntries? room entries fuel rest
      | '\x7d' :: rest => some (.table (documents entries), rest)
      | _ => none

end

/-- The text as it is read: the root table, and the path of the table that assignments go to. -/
structure Progress where
  /-- The root table under construction. -/
  root : Entries
  /-- The path of the current table. -/
  path : List String

/-- Reads a header behind its brackets, with the brackets that close it. -/
def readHeader? (closing : List Char) (chars : List Char) : Option (List String × List Char) := do
  let (key, rest) ← readKey? chars
  if rest.take closing.length = closing then
    return (key, ← endLine? (rest.drop closing.length))
  else none

/-- Opens what a header names. -/
def enter? (progress : Progress) (path : List String) (opens : String → Entries → Option Entries) :
    Option Progress := do
  let key ← path.getLast?
  let root ← changeAt (opens key) path.dropLast progress.root
  return ⟨root, path⟩

/-- Reads one line that is neither blank nor a comment. -/
def readLine? (progress : Progress) (chars : List Char) : Option (Progress × List Char) :=
  match chars with
  | '[' :: '[' :: rest => do
    let (path, rest) ← readHeader? [']', ']'] rest
    return (← enter? progress path openElement, rest)
  | '[' :: rest => do
    let (path, rest) ← readHeader? [']'] rest
    return (← enter? progress path openTable, rest)
  | _ => do
    let (key, rest) ← readKey? chars
    let rest := skipBlanks (← Calendar.readChar? '=' rest)
    let (value, rest) ← readValue? nestingLimit (chars.length + 1) rest
    let root ← changeAt (assign value key) progress.path progress.root
    return (⟨root, progress.path⟩, ← endLine? rest)

/-- Reads lines up to the end of the text. -/
def readLines? (progress : Progress) : (fuel : Nat) → List Char → Option Progress
  | 0, _ => none
  | fuel + 1, chars => do
    match ← skipGap? chars with
    | [] => some progress
    | chars => do
      let (progress, rest) ← readLine? progress chars
      readLines? progress fuel rest

/-- The document of a TOML text. A byte order mark may come first. -/
def read? (text : String) : Option Document := do
  let chars :=
    match text.toList with
    | '\ufeff' :: rest => rest
    | chars => chars
  let progress ← readLines? ⟨[], []⟩ (chars.length + 1) chars
  return .table (documents progress.root)

end Criteria.Config.Toml
