/-!
# Characters and their places

YAML reads meaning from where things stand: from columns, because indentation nests, and from
lines, because a key ends on the line it starts on. So a text is first laid out as a list of
glyphs, which are its characters with their lines and columns.

* `Glyph.ofText?` lays out a text, or refuses it for a character that no text may hold;
* `documentMark?` finds the marks between documents, which count at the start of a line only.

A line feed stands for most line ends; the line and the paragraph separator of Unicode end a line
too, but stand for themselves.
-/

namespace Criteria.Config.Yaml

/-- A character at its place. -/
structure Glyph where
  /-- The character. -/
  char : Char
  /-- The number of lines before its line. -/
  line : Nat
  /-- The number of characters before it on its line. -/
  column : Nat
deriving DecidableEq, Repr, Inhabited

/-! ### Kinds of characters -/

/-- The blanks within a line. -/
def isBlank (c : Char) : Bool := c = ' ' || c = '\t'

/-- The characters that end a line. -/
def isBreak (c : Char) : Bool := c = '\n' || c = '\u2028' || c = '\u2029'

/-- The characters of gaps. -/
def isGap (c : Char) : Bool := isBlank c || isBreak c

/-- The characters of names. -/
def isNameChar (c : Char) : Bool := c.isAlphanum || c = '_' || c = '-'

/-- Whether a text may hold a character. -/
def isAllowed (c : Char) : Bool :=
  let n := c.toNat
  n = 0x09 || n = 0x0a || n = 0x0d || (0x20 ≤ n && n ≤ 0x7e) || n = 0x85 ||
    (0xa0 ≤ n && n ≠ 0xfffe && n ≠ 0xffff)

/-! ### Laying out a text -/

/-- The characters of a text with a line feed for every line end that does not stand for itself. -/
def joinLineEnds : List Char → List Char
  | [] => []
  | '\r' :: '\n' :: rest => '\n' :: joinLineEnds rest
  | '\r' :: rest => '\n' :: joinLineEnds rest
  | '\u0085' :: rest => '\n' :: joinLineEnds rest
  | c :: rest => c :: joinLineEnds rest

/-- Lays out characters from a place on. -/
def layOut (line column : Nat) : List Char → List Glyph
  | [] => []
  | c :: rest =>
    ⟨c, line, column⟩ ::
      (if isBreak c then layOut (line + 1) 0 rest else layOut line (column + 1) rest)

/-- Lays out a text. -/
def Glyph.ofText? (text : String) : Option (List Glyph) :=
  if text.toList.all isAllowed then some (layOut 0 0 (joinLineEnds text.toList)) else none

/-! ### Looking ahead -/

/-- A byte order mark at the start of a line. It means nothing between tokens, but takes a column. -/
def Glyph.isOrderMark (g : Glyph) : Bool := g.char = '\ufeff' && g.column = 0

/-- Whether a gap, or the end of the text, comes next. -/
def atGap : List Glyph → Bool
  | [] => true
  | g :: _ => isGap g.char

/-- Whether the line, or the text, ends here. -/
def atLineEnd : List Glyph → Bool
  | [] => true
  | g :: _ => isBreak g.char

/-- Whether a given character comes next. -/
def isNext (c : Char) : List Glyph → Bool
  | [] => false
  | g :: _ => g.char = c

/-- Drops the blanks up to the next character of a line. -/
def skipBlanks (glyphs : List Glyph) : List Glyph := glyphs.dropWhile fun g => isBlank g.char

/-- Ends a line at blanks and an optional comment; `none` if there is more. -/
def endLine? (glyphs : List Glyph) : Option (List Glyph) :=
  let rest := skipBlanks glyphs
  let rest := if isNext '#' rest then rest.dropWhile fun g => !isBreak g.char else rest
  if atLineEnd rest then some (rest.drop 1) else none

/-- Splits off the characters of a class. -/
def takeChars (inClass : Char → Bool) (glyphs : List Glyph) : List Char × List Glyph :=
  ((glyphs.takeWhile fun g => inClass g.char).map Glyph.char,
    glyphs.dropWhile fun g => inClass g.char)

/-- The character of a mark between documents, which stands thrice at the start of a line before a
gap, and what follows the mark. -/
def documentMark? : List Glyph → Option (Char × List Glyph)
  | a :: b :: c :: rest =>
    if a.column = 0 && (a.char = '-' || a.char = '.') && b.char = a.char && c.char = a.char &&
        atGap rest then
      some (a.char, rest)
    else none
  | _ => none

end Criteria.Config.Yaml
