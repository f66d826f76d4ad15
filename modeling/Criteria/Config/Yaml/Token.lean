import Criteria.Config.Yaml.Scalar

/-!
# Tokens of YAML

The marks, names and scalars that a text consists of. Marks are written in the text or follow from
its layout: a nested list or table without brackets starts and ends where the indentation changes,
and a key needs no mark of its own if a colon follows it on its line.

This module also reads the tokens that are names: anchors, aliases, tags and the directives in
front of a document.
-/

namespace Criteria.Config.Yaml

/-- A token. -/
inductive Token where
  /-- The version a document is written for. -/
  | version (major minor : Nat)
  /-- A handle that abbreviates the start of tags. -/
  | handle (name expansion : String)
  /-- A mark before a document. -/
  | documentStart
  /-- A mark behind a document. -/
  | documentEnd
  /-- The start of a list without brackets. -/
  | blockList
  /-- The start of a table without brackets. -/
  | blockTable
  /-- The end of a list or table without brackets. -/
  | blockEnd
  | flowListStart
  | flowListEnd
  | flowTableStart
  | flowTableEnd
  /-- A dash before an item. -/
  | item
  /-- A comma between items or entries. -/
  | comma
  /-- The start of a key. -/
  | key
  /-- The colon before a value. -/
  | value
  /-- A reference to an anchored value. -/
  | alias (name : String)
  /-- A name for the value behind it. -/
  | anchor (name : String)
  /-- A tag for the value behind it. -/
  | tag (handle suffix : String)
  | scalar (style : Style) (text : String)
deriving DecidableEq, Repr

/-! ### Anchors -/

/-- Whether a name may end here. -/
def endsName : List Glyph → Bool
  | [] => true
  | g :: _ => isGap g.char || ['?', ':', ',', ']', '\x7d', '%', '@', '\x60'].contains g.char

/-- Reads the name of an anchor. -/
def readName? (glyphs : List Glyph) : Option (String × List Glyph) :=
  let (name, rest) := takeChars isNameChar glyphs
  if !name.isEmpty && endsName rest then some (String.ofList name, rest) else none

/-! ### Tags -/

/-- The characters of tags. Punctuation of brackets belongs to whole tags only. -/
def isTagChar (whole : Bool) (c : Char) : Bool :=
  isNameChar c ||
    [';', '/', '?', ':', '@', '&', '=', '+', '$', '.', '!', '~', '*', '\'', '(', ')'].contains c ||
    (whole && [',', '[', ']'].contains c)

/-- Reads an octet written as a percent sign with two digits. -/
def readOctet? (glyphs : List Glyph) : Option (Nat × List Glyph) :=
  match (glyphs.take 3).map Glyph.char with
  | ['%', a, b] => (Text.natural? 16 [a, b]).map fun octet => (octet, glyphs.drop 3)
  | _ => none

/-- Reads the octets of a character behind its first one, which carry six bits each. -/
def readOctets? (code : Nat) : (count : Nat) → List Glyph → Option (Nat × List Glyph)
  | 0, glyphs => some (code, glyphs)
  | count + 1, glyphs => do
    let (octet, rest) ← readOctet? glyphs
    if octet / 64 = 2 then readOctets? (64 * code + octet % 64) count rest else none

/-- Reads a character written as its octets in UTF-8. -/
def readOctetChar? (glyphs : List Glyph) : Option (Char × List Glyph) := do
  let (octet, rest) ← readOctet? glyphs
  let (code, rest) ←
    if octet / 128 = 0 then some (octet, rest)
    else if octet / 32 = 6 then readOctets? (octet % 32) 1 rest
    else if octet / 16 = 14 then readOctets? (octet % 16) 2 rest
    else if octet / 8 = 30 then readOctets? (octet % 8) 3 rest
    else none
  return (if code.isValidChar then Char.ofNat code else '\ufffd', rest)

/-- Reads the characters of a tag. -/
def readTagChars? (whole : Bool) (acc : List Char) :
    (fuel : Nat) → List Glyph → Option (List Char × List Glyph)
  | 0, _ => none
  | _, [] => some (acc.reverse, [])
  | fuel + 1, g :: rest =>
    if g.char = '%' then do
      let (c, rest) ← readOctetChar? (g :: rest)
      readTagChars? whole (c :: acc) fuel rest
    else if isTagChar whole g.char then readTagChars? whole (g.char :: acc) fuel rest
    else some (acc.reverse, g :: rest)

/-- Reads the characters of a tag, of which there must be some. -/
def readTagText? (whole : Bool) (glyphs : List Glyph) : Option (String × List Glyph) := do
  let (chars, rest) ← readTagChars? whole [] (glyphs.length + 1) glyphs
  if chars.isEmpty then none else some (String.ofList chars, rest)

/-- Reads a handle behind its exclamation mark: a second mark, or a name between two. There is none
if the name does not end in a mark. -/
def readHandle? (glyphs : List Glyph) : Option (String × List Glyph) :=
  let (name, rest) := takeChars isNameChar glyphs
  if isNext '!' rest then some (String.ofList ('!' :: name ++ ['!']), rest.drop 1) else none

/-- Reads a tag behind its exclamation mark: a whole one in angle brackets, one with a handle, or
one with the handle of a single mark. A mark alone is a whole tag. -/
def readTag? (glyphs : List Glyph) : Option (Token × List Glyph) := do
  if isNext '<' glyphs then
    let (text, rest) ← readTagText? true (glyphs.drop 1)
    if isNext '>' rest then some (.tag "" text, rest.drop 1) else none
  else
    match readHandle? glyphs with
    | some (handle, rest) =>
      let (suffix, rest) ← readTagText? false rest
      return (.tag handle suffix, rest)
    | none =>
      let (chars, rest) ← readTagChars? false [] (glyphs.length + 1) glyphs
      return (if chars.isEmpty then .tag "" "!" else .tag "!" (String.ofList chars), rest)

/-- Whether a tag may end here. -/
def endsTag (inFlow : Bool) (glyphs : List Glyph) : Bool :=
  atGap glyphs || (inFlow && isNext ',' glyphs)

/-! ### Directives -/

/-- Reads a number of a version, which has at most nine digits. -/
def readVersionNumber? (glyphs : List Glyph) : Option (Nat × List Glyph) :=
  let (digits, rest) := takeChars Char.isDigit glyphs
  if digits.isEmpty || 9 < digits.length then none else some (Text.decimal digits, rest)

/-- Reads a version. -/
def readVersion? (glyphs : List Glyph) : Option (Token × List Glyph) := do
  let (major, rest) ← readVersionNumber? (skipBlanks glyphs)
  if isNext '.' rest then
    let (minor, rest) ← readVersionNumber? (rest.drop 1)
    return (.version major minor, rest)
  else none

/-- Reads a handle and what it stands for. -/
def readExpansion? (glyphs : List Glyph) : Option (Token × List Glyph) := do
  let glyphs := skipBlanks glyphs
  let mark := glyphs.drop 1
  if !isNext '!' glyphs then none
  else
    let (name, rest) := (readHandle? mark).getD ("!", mark)
    if rest.head?.any fun g => isBlank g.char then
      let (expansion, rest) ← readTagText? true (skipBlanks rest)
      if atGap rest then some (.handle name expansion, rest) else none
    else none

/-- Reads a directive behind its percent sign, to the end of its line. -/
def readDirective? (glyphs : List Glyph) : Option (Token × List Glyph) := do
  let (name, rest) := takeChars isNameChar glyphs
  if !atGap rest then none
  else
    let (token, rest) ←
      if name = ['Y', 'A', 'M', 'L'] then readVersion? rest
      else if name = ['T', 'A', 'G'] then readExpansion? rest
      else none
    return (token, ← endLine? rest)

end Criteria.Config.Yaml
