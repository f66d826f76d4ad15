import Criteria.Config.Yaml.Glyph
import Criteria.Text.Digit

/-!
# Scalars within lines

A scalar is plain, or stands in single or double quotes. All three may span lines: a gap with one
line end is read as one space, and one with more as all line ends but the first.

A plain scalar ends before a colon that a gap follows, before a comment, and in brackets also
before their punctuation. Elsewhere it goes on in the lines below it for as long as these are
indented deep enough. It takes the gap behind it along.

Every reader takes the glyphs from the current position and answers with what it read and the rest;
`none` is a mistake in the text.
-/

namespace Criteria.Config.Yaml

/-- How a scalar is written. -/
inductive Style where
  | plain
  | quoted
  /-- Lines below a bar, kept as they are. -/
  | literal
  /-- Lines below an angle bracket, joined by spaces. -/
  | folded
deriving DecidableEq, Repr

/-- What a gap within a scalar stands for. -/
def foldGap (gap : List Char) : List Char :=
  match gap.filter isBreak with
  | [] => gap
  | ['\n'] => [' ']
  | '\n' :: more => more
  | breaks => breaks

/-! ### Quoted scalars -/

/-- The character of an escape of one letter. -/
def escape? : Char → Option Char
  | '0' => some '\x00'
  | 'a' => some '\x07'
  | 'b' => some '\x08'
  | 't' | '\t' => some '\t'
  | 'n' => some '\n'
  | 'v' => some '\x0b'
  | 'f' => some '\x0c'
  | 'r' => some '\r'
  | 'e' => some '\x1b'
  | ' ' => some ' '
  | '"' => some '"'
  | '/' => some '/'
  | '\\' => some '\\'
  | 'N' => some '\u0085'
  | '_' => some '\u00a0'
  | 'L' => some '\u2028'
  | 'P' => some '\u2029'
  | _ => none

/-- The number of digits of an escape by code. -/
def codeWidth? : Char → Option Nat
  | 'x' => some 2
  | 'u' => some 4
  | 'U' => some 8
  | _ => none

/-- Reads an escape behind its backslash. -/
def readEscape? : List Glyph → Option (Char × List Glyph)
  | [] => none
  | g :: rest =>
    match escape? g.char, codeWidth? g.char with
    | some c, _ => some (c, rest)
    | none, some width =>
      (Text.readCode? width ((rest.take width).map Glyph.char)).map fun (c, _) =>
        (c, rest.drop width)
    | none, none => none

/-- Reads a quoted scalar behind its opening quote. Within double quotes a backslash escapes, and at
the end of a line it joins the next line without a space; within single quotes two quotes stand for
one. A mark between documents does not belong into a scalar. -/
def readQuoted? (quote : Char) (acc : List Char) :
    (fuel : Nat) → List Glyph → Option (String × List Glyph)
  | 0, _ | _, [] => none
  | fuel + 1, g :: rest =>
    if (documentMark? (g :: rest)).isSome then none
    else if isGap g.char then
      let (gap, rest) := takeChars isGap (g :: rest)
      readQuoted? quote ((foldGap gap).reverse ++ acc) fuel rest
    else if g.char = quote then
      if quote = '\'' && isNext quote rest then readQuoted? quote (quote :: acc) fuel (rest.drop 1)
      else some (String.ofList acc.reverse, rest)
    else if quote = '"' && g.char = '\\' then
      if !rest.isEmpty && atLineEnd rest then
        let (gap, rest) := takeChars isGap (rest.drop 1)
        readQuoted? quote ((gap.filter isBreak).reverse ++ acc) fuel rest
      else
        match readEscape? rest with
        | some (c, rest) => readQuoted? quote (c :: acc) fuel rest
        | none => none
    else readQuoted? quote (g.char :: acc) fuel rest

/-! ### Plain scalars -/

/-- Where a plain scalar stands. -/
structure Surroundings where
  /-- Whether it stands within brackets. -/
  inFlow : Bool
  /-- The least column of the lines that go on with it. -/
  floor : Nat
deriving DecidableEq, Repr

/-- The punctuation of lists and tables with brackets. -/
def isFlowMark (c : Char) : Bool := [',', '[', ']', '\x7b', '\x7d'].contains c

/-- The characters that no plain scalar starts with. -/
def isIndicator (c : Char) : Bool :=
  isFlowMark c || ['#', '&', '*', '!', '|', '>', '\'', '"', '%', '@', '\x60'].contains c

/-- Whether a plain scalar can start here. -/
def startsPlain (inFlow : Bool) : List Glyph → Bool
  | [] => false
  | g :: rest =>
    if g.char = '-' then !atGap rest
    else if g.char = '?' || g.char = ':' then !inFlow && !atGap rest
    else !isGap g.char && !isIndicator g.char

/-- Whether a plain scalar ends before the next glyph, which comes behind a gap. -/
def endsPlain (place : Surroundings) (gap : List Char) (g : Glyph) (rest : List Glyph) : Bool :=
  (g.char = ':' && atGap rest) || (g.char = '#' && !gap.isEmpty) ||
    (place.inFlow && isFlowMark g.char) || (documentMark? (g :: rest)).isSome ||
    (!place.inFlow && gap.any isBreak && g.column < place.floor)

/-- Whether a colon within brackets joins a scalar to punctuation. -/
def isLostColon (place : Surroundings) (g : Glyph) (rest : List Glyph) : Bool :=
  place.inFlow && g.char = ':' && rest.head?.any fun next => isFlowMark next.char || next.char = '?'

/-- Reads a plain scalar. The characters so far and the gap behind them come backwards. The result
also says whether the gap at the end goes beyond the line. Tabs do not indent. -/
def readPlain? (place : Surroundings) (acc gap : List Char) :
    List Glyph → Option (String × Bool × List Glyph)
  | [] => some (String.ofList acc.reverse, gap.any isBreak, [])
  | g :: rest =>
    if isGap g.char then
      if g.char = '\t' && gap.any isBreak && g.column < place.floor then none
      else readPlain? place acc (g.char :: gap) rest
    else if endsPlain place gap g rest then
      some (String.ofList acc.reverse, gap.any isBreak, g :: rest)
    else if isLostColon place g rest then none
    else readPlain? place (g.char :: ((foldGap gap.reverse).reverse ++ acc)) [] rest

end Criteria.Config.Yaml
