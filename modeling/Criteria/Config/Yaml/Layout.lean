import Criteria.Config.Yaml.Block
import Criteria.Config.Yaml.Token

/-!
# From layout to tokens

`Token.ofGlyphs?` cuts a text into tokens and adds those that follow from its layout. Outside
brackets, a list or table starts where an item or a key stands to the right of all open ones, and
ends where something stands to the left of it. Within brackets indentation means nothing.

A key without a mark is known only when its colon comes. So wherever a key may start, its place is
remembered as a candidate, one for every level of brackets, and the colon inserts the mark of the
key there. A candidate is dropped when the line ends or goes on for more than 1024 characters; one
that stands directly under the keys of a table must become a key.
-/

namespace Criteria.Config.Yaml

/-- A place where a key may have started. -/
structure Candidate where
  /-- The number of tokens before it. -/
  index : Nat
  /-- The glyph it starts with. -/
  start : Glyph
  /-- Whether a key must start here. -/
  required : Bool
deriving DecidableEq, Repr

/-- How far a colon may be from the start of its key. -/
def keyLength : Nat := 1024

/-- Whether a candidate can still become a key when a glyph comes. -/
def Candidate.isOpen (candidate : Candidate) (g : Glyph) : Bool :=
  candidate.start.line = g.line && g.column ≤ candidate.start.column + keyLength

/-- The tokens so far, and what the layout leaves open. -/
structure Layout where
  /-- The tokens so far, backwards. -/
  tokens : List Token := []
  /-- Their number. -/
  size : Nat := 0
  /-- The columns of the open lists and tables without brackets, the innermost first. -/
  columns : List Nat := []
  /-- The candidate within the innermost brackets. -/
  candidate : Option Candidate := none
  /-- The candidates of the levels around them, the innermost first. -/
  outer : List (Option Candidate) := []
  /-- Whether a key may start next. -/
  keyAllowed : Bool := true

namespace Layout

/-- Whether there are open brackets. -/
def inFlow (layout : Layout) : Bool := !layout.outer.isEmpty

/-- The least column of what lies within the innermost list or table without brackets. -/
def floor (layout : Layout) : Nat :=
  match layout.columns with
  | [] => 0
  | column :: _ => column + 1

/-- Adds a token. -/
def push (layout : Layout) (token : Token) : Layout :=
  { layout with tokens := token :: layout.tokens, size := layout.size + 1 }

/-- Adds a token at the place where there are `index` tokens before it. -/
def insert (layout : Layout) (index : Nat) (token : Token) : Layout :=
  let behind := layout.size - index
  { layout with
    tokens := layout.tokens.take behind ++ token :: layout.tokens.drop behind
    size := layout.size + 1 }

/-- Sets whether a key may start next. -/
def allowKey (layout : Layout) (allowed : Bool) : Layout := { layout with keyAllowed := allowed }

/-- Starts a list or table without brackets at a column, unless it is open already. -/
def openBlock (layout : Layout) (index column : Nat) (token : Token) : Layout :=
  if layout.inFlow || column < layout.floor then layout
  else { layout.insert index token with columns := column :: layout.columns }

/-- Ends the lists and tables without brackets from a column on. -/
def closeBlocks (layout : Layout) (column : Nat) : Layout :=
  if layout.inFlow then layout
  else
    let closed := layout.columns.takeWhile (column ≤ ·)
    { layout with
      tokens := List.replicate closed.length .blockEnd ++ layout.tokens
      size := layout.size + closed.length
      columns := layout.columns.drop closed.length }

/-! ### Candidates -/

/-- Gives up the candidate, which must not be required. -/
def dropCandidate? (layout : Layout) : Option Layout :=
  if layout.candidate.any Candidate.required then none else some { layout with candidate := none }

/-- Remembers that a key may start with the given glyph. -/
def remember? (layout : Layout) (start : Glyph) : Option Layout :=
  if layout.keyAllowed then do
    let required := !layout.inFlow && layout.columns.head? = some start.column
    return { ← layout.dropCandidate? with
      candidate := some ⟨layout.size, start, required⟩ }
  else some layout

/-- Drops the candidates that can no longer become keys; they must not be required. -/
def dropStale? (layout : Layout) (g : Glyph) : Option Layout :=
  let isStale (candidate : Option Candidate) : Bool := candidate.any fun c => !c.isOpen g
  if (layout.candidate :: layout.outer).any fun c => isStale c && c.any Candidate.required then none
  else
    some { layout with
      candidate := layout.candidate.filter fun c => c.isOpen g
      outer := layout.outer.map fun candidate => candidate.filter fun c => c.isOpen g }

/-! ### Gaps -/

/-- Drops gaps, comments and byte order marks. The result also says whether a key may start behind
them: outside brackets a line end allows it, and where it is allowed no tab may come before it. -/
def skipGaps (inFlow keyAllowed inComment : Bool) : List Glyph → Bool × List Glyph
  | [] => (keyAllowed, [])
  | g :: rest =>
    if isBreak g.char then skipGaps inFlow (keyAllowed || !inFlow) false rest
    else if inComment then skipGaps inFlow keyAllowed true rest
    else if g.isOrderMark || g.char = ' ' || (g.char = '\t' && (inFlow || !keyAllowed)) then
      skipGaps inFlow keyAllowed false rest
    else if g.char = '#' then skipGaps inFlow keyAllowed true rest
    else (keyAllowed, g :: rest)

/-! ### Marks -/

/-- Opens brackets, which may be a key as a whole. -/
def openFlow? (layout : Layout) (start : Glyph) (token : Token) : Option Layout := do
  let layout ← layout.remember? start
  return { layout.push token with
    candidate := none
    outer := layout.candidate :: layout.outer
    keyAllowed := true }

/-- Closes brackets. -/
def closeFlow? (layout : Layout) (token : Token) : Option Layout := do
  let layout ← layout.dropCandidate?
  let inner := { layout.push token with keyAllowed := false }
  match layout.outer with
  | [] => return inner
  | candidate :: outer => return { inner with candidate := candidate, outer := outer }

/-- Reads a dash before an item. -/
def readItem? (layout : Layout) (g : Glyph) : Option Layout :=
  if layout.inFlow || layout.keyAllowed then do
    let layout ← (layout.openBlock layout.size g.column .blockList).dropCandidate?
    return (layout.push .item).allowKey true
  else none

/-- Reads the mark of a key. -/
def readKey? (layout : Layout) (g : Glyph) : Option Layout :=
  if layout.inFlow || layout.keyAllowed then do
    let layout ← (layout.openBlock layout.size g.column .blockTable).dropCandidate?
    return (layout.push .key).allowKey !layout.inFlow
  else none

/-- Reads a colon before a value. It makes the candidate a key. -/
def readValue? (layout : Layout) (g : Glyph) : Option Layout :=
  match layout.candidate with
  | some candidate =>
    let marked := (layout.insert candidate.index .key).openBlock candidate.index
      candidate.start.column .blockTable
    some { marked.push .value with candidate := none, keyAllowed := false }
  | none =>
    if layout.inFlow || layout.keyAllowed then
      let layout := layout.openBlock layout.size g.column .blockTable
      some ((layout.push .value).allowKey !layout.inFlow)
    else none

/-- Reads what stands at the start of a line only: a directive, or a mark between documents. -/
def readLineStart? (layout : Layout) (glyphs : List Glyph) : Option (Layout × List Glyph) := do
  let layout ← (layout.closeBlocks 0).dropCandidate?
  match documentMark? glyphs with
  | some (mark, rest) =>
    let token := if mark = '-' then .documentStart else .documentEnd
    return ((layout.push token).allowKey false, rest)
  | none =>
    let (token, rest) ← readDirective? (glyphs.drop 1)
    return ((layout.push token).allowKey false, rest)

/-! ### Names and scalars -/

/-- Reads a token at the start of which a key may start. -/
def readContent? (layout : Layout) (g : Glyph) (rest : List Glyph) :
    Option (Layout × List Glyph) := do
  let layout ← layout.remember? g
  let named (result : Token × List Glyph) : Layout × List Glyph :=
    ((layout.push result.1).allowKey false, result.2)
  match g.char with
  | '*' => (readName? rest).map fun (name, rest) => named (.alias name, rest)
  | '&' => (readName? rest).map fun (name, rest) => named (.anchor name, rest)
  | '!' => ((readTag? rest).filter fun result => endsTag layout.inFlow result.2).map named
  | '\'' | '"' =>
    (readQuoted? g.char [] (rest.length + 1) rest).map fun (text, rest) =>
      named (.scalar .quoted text, rest)
  | _ => do
    let place : Surroundings := ⟨layout.inFlow, layout.floor⟩
    if !startsPlain layout.inFlow (g :: rest) then none
    else
      let (text, beyondLine, rest) ← readPlain? place [] [] (g :: rest)
      return ((layout.push (.scalar .plain text)).allowKey beyondLine, rest)

/-- Reads a scalar of whole lines. -/
def readLines? (layout : Layout) (style : Style) (rest : List Glyph) :
    Option (Layout × List Glyph) := do
  let layout ← layout.dropCandidate?
  let (text, rest) ← readBlock? style layout.floor rest
  return ((layout.push (.scalar style text)).allowKey true, rest)

/-! ### Texts -/

/-- Reads the token that starts with a glyph. -/
def readToken? (layout : Layout) (g : Glyph) (rest : List Glyph) : Option (Layout × List Glyph) :=
  let markOrContent (isMark : Bool) (read : Option Layout) : Option (Layout × List Glyph) :=
    if isMark then read.map fun layout => (layout, rest) else layout.readContent? g rest
  if g.column = 0 && (g.char = '%' || (documentMark? (g :: rest)).isSome) then
    layout.readLineStart? (g :: rest)
  else
    match g.char with
    | '[' => markOrContent true (layout.openFlow? g .flowListStart)
    | '\x7b' => markOrContent true (layout.openFlow? g .flowTableStart)
    | ']' => markOrContent true (layout.closeFlow? .flowListEnd)
    | '\x7d' => markOrContent true (layout.closeFlow? .flowTableEnd)
    | ',' => markOrContent true (layout.dropCandidate?.map fun l => (l.push .comma).allowKey true)
    | '-' => markOrContent (atGap rest) (layout.readItem? g)
    | '?' => markOrContent (layout.inFlow || atGap rest) (layout.readKey? g)
    | ':' => markOrContent (layout.inFlow || atGap rest) (layout.readValue? g)
    | '|' => if layout.inFlow then none else layout.readLines? .literal rest
    | '>' => if layout.inFlow then none else layout.readLines? .folded rest
    | _ => layout.readContent? g rest

/-- Reads tokens to the end of the text. Each of them takes at least one glyph. -/
def readTokens? (layout : Layout) : (fuel : Nat) → List Glyph → Option (List Token)
  | 0, _ => none
  | fuel + 1, glyphs =>
    let (keyAllowed, rest) := skipGaps layout.inFlow layout.keyAllowed false glyphs
    let layout := layout.allowKey keyAllowed
    match rest with
    | [] => do
      let layout ← (layout.closeBlocks 0).dropCandidate?
      return layout.tokens.reverse
    | g :: rest => do
      let layout := (← layout.dropStale? g).closeBlocks (g.column + 1)
      let (layout, rest) ← layout.readToken? g rest
      readTokens? layout fuel rest

end Layout

/-- The tokens of a text. -/
def Token.ofGlyphs? (glyphs : List Glyph) : Option (List Token) :=
  Layout.readTokens? {} (glyphs.length + 1) glyphs

end Criteria.Config.Yaml
