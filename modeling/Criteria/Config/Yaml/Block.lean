import Criteria.Config.Yaml.Scalar

/-!
# Scalars of whole lines

Behind a bar or an angle bracket, a scalar is the lines below that are indented deep enough. The
indentation is given by a digit behind the indicator, or it is that of the first line that is not
empty. Below a bar every line end is kept. Below an angle bracket the lines are joined by spaces,
but not around lines that start with a blank, and empty lines are kept.

Of the line ends behind the last line one is kept, all behind a plus sign, and none behind a minus
sign.
-/

namespace Criteria.Config.Yaml

/-- What becomes of the line ends behind the last line. -/
inductive Chomping where
  /-- None is kept. -/
  | strip
  /-- One is kept. -/
  | clip
  /-- All are kept. -/
  | keep
deriving DecidableEq, Repr

/-- Reads a sign that says what becomes of the last line ends. -/
def readChomping (glyphs : List Glyph) : Chomping × List Glyph :=
  if isNext '+' glyphs then (.keep, glyphs.drop 1)
  else if isNext '-' glyphs then (.strip, glyphs.drop 1)
  else (.clip, glyphs)

/-- Reads a digit that gives the indentation, zero if there is none; the digit is not zero. -/
def readIncrement? : List Glyph → Option (Nat × List Glyph)
  | [] => some (0, [])
  | g :: rest =>
    if g.char = '0' then none
    else if g.char.isDigit then some (g.char.toNat - '0'.toNat, rest)
    else some (0, g :: rest)

/-- Reads sign and digit, in any order, and the end of the line. -/
def readHead? (glyphs : List Glyph) : Option (Chomping × Nat × List Glyph) := do
  let (chomping, behindSign) := readChomping glyphs
  let (increment, rest) ← readIncrement? behindSign
  if chomping = .clip then
    let (chomping, rest) := readChomping rest
    -- the sign may only come second behind a digit
    return (chomping, increment, ← endLine? rest)
  else return (chomping, increment, ← endLine? rest)

/-- Takes the empty lines from here and the indentation of the line behind them. An indentation of
zero is not known yet. The result starts with the greatest column that was found. -/
def takeEmptyLines? (indent widest : Nat) (breaks : List Char) :
    List Glyph → Option (Nat × List Char × List Glyph)
  | [] => some (widest, breaks.reverse, [])
  | g :: rest =>
    let indents := indent = 0 || g.column < indent
    if indents && g.char = ' ' then takeEmptyLines? indent widest breaks rest
    else if indents && g.char = '\t' then none
    else if isBreak g.char then
      takeEmptyLines? indent (max widest g.column) (g.char :: breaks) rest
    else some (max widest g.column, breaks.reverse, g :: rest)

/-- Lines that were read so far. -/
structure Lines where
  /-- The characters up to the last line, backwards. -/
  chars : List Char := []
  /-- The end of the last line, if there is one. -/
  lineEnd : List Char := []
  /-- The ends of the empty lines behind it. -/
  breaks : List Char
  /-- Whether the last line starts with a blank. -/
  isBlank : Bool := false

/-- What comes between the last line and the next one, which may start with a blank. -/
def Lines.joint (lines : Lines) (style : Style) (startsBlank : Bool) : List Char :=
  if style = .folded && lines.lineEnd = ['\n'] && !lines.isBlank && !startsBlank then
    if lines.breaks.isEmpty then [' '] else lines.breaks
  else lines.lineEnd ++ lines.breaks

/-- Reads the lines that are indented by `indent`. -/
def readLines? (style : Style) (indent : Nat) (lines : Lines) :
    (fuel : Nat) → List Glyph → Option (Lines × List Glyph)
  | 0, _ => none
  | _, [] => some (lines, [])
  | fuel + 1, g :: rest =>
    if g.column = indent then do
      let startsBlank := isBlank g.char
      let (text, rest) := takeChars (fun c => !isBreak c) (g :: rest)
      let (_, breaks, below) ← takeEmptyLines? indent 0 [] (rest.drop 1)
      readLines? style indent {
        chars := text.reverse ++ ((lines.joint style startsBlank).reverse ++ lines.chars)
        lineEnd := (rest.take 1).map Glyph.char
        breaks := breaks
        isBlank := startsBlank } fuel below
    else some (lines, g :: rest)

/-- The text of lines. -/
def Lines.text (lines : Lines) (chomping : Chomping) : String :=
  let tail :=
    match chomping with
    | .strip => []
    | .clip => lines.lineEnd
    | .keep => lines.lineEnd ++ lines.breaks
  String.ofList (lines.chars.reverse ++ tail)

/-- Reads a scalar of whole lines behind its indicator. The lines are indented by at least
`floor`. -/
def readBlock? (style : Style) (floor : Nat) (glyphs : List Glyph) :
    Option (String × List Glyph) := do
  let (chomping, increment, below) ← readHead? glyphs
  let given := if increment = 0 then 0 else (floor - 1) + increment
  let (widest, breaks, rest) ← takeEmptyLines? given 0 [] below
  let indent := if increment = 0 then max widest (max floor 1) else given
  let (lines, rest) ← readLines? style indent { breaks := breaks } (rest.length + 1) rest
  return (lines.text chomping, rest)

end Criteria.Config.Yaml
