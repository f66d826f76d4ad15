import Criteria.Config.Yaml.Token

/-!
# Trees of YAML

A document is a tree of nodes: scalars, lists and tables, of which any may have a tag and an
anchor, and aliases, which stand for anchored nodes. `Node.ofTokens?` reads the tree that tokens
write.

An anchor has a number: how many names the anchors before it have among them. An alias has the
number of the last anchor before it with its name, and it stands for the last node of the document
with that number (`Node.targets`). So an alias may stand for a node that it is part of.
-/

namespace Criteria.Config.Yaml

/-- What stands before a node. -/
structure Label where
  /-- The number of its anchor. -/
  anchor : Option Nat := none
  /-- Its tag. -/
  tag : Option String := none
deriving DecidableEq, Repr

/-- A tree. -/
inductive Node where
  | alias (number : Nat)
  | scalar (label : Label) (style : Style) (text : String)
  | list (label : Label) (items : List Node)
  | table (label : Label) (entries : List (Node × Node))
deriving Repr, Inhabited

namespace Node

/-- The scalar that stands where nothing is written. -/
def absent : Node := .scalar {} .plain ""

mutual

/-- The size of a tree: one for a scalar or an alias, two more than its parts for the others. -/
def size : Node → Nat
  | .alias _ | .scalar .. => 1
  | .list _ items => sizeOfItems items + 2
  | .table _ entries => sizeOfEntries entries + 2

/-- The size of items. -/
def sizeOfItems : List Node → Nat
  | [] => 0
  | item :: items => item.size + sizeOfItems items

/-- The size of entries. -/
def sizeOfEntries : List (Node × Node) → Nat
  | [] => 0
  | (key, value) :: entries => key.size + value.size + sizeOfEntries entries

end

/-- A node with the number of its anchor, if it has one. -/
def Label.target (label : Label) (node : Node) : List (Nat × Node) :=
  label.anchor.toList.map fun number => (number, node)

mutual

/-- The anchored nodes of a tree with their numbers, in the order in which they start. -/
def anchored : Node → List (Nat × Node)
  | .alias _ => []
  | .scalar label style text => Label.target label (.scalar label style text)
  | .list label items => Label.target label (.list label items) ++ anchoredItems items
  | .table label entries => Label.target label (.table label entries) ++ anchoredEntries entries

/-- The anchored nodes of items. -/
def anchoredItems : List Node → List (Nat × Node)
  | [] => []
  | item :: items => item.anchored ++ anchoredItems items

/-- The anchored nodes of entries. -/
def anchoredEntries : List (Node × Node) → List (Nat × Node)
  | [] => []
  | (key, value) :: entries => key.anchored ++ value.anchored ++ anchoredEntries entries

end

/-- The nodes that the aliases of a tree stand for; of those with one number, the first counts. -/
def targets (root : Node) : List (Nat × Node) := root.anchored.reverse

end Node

/-! ### Names -/

/-- The tokens that are left, and the numbers of the anchors that were read, by their names. -/
structure Cursor where
  /-- The tokens that are left. -/
  tokens : List Token
  /-- The numbers of the anchors by their names. -/
  anchors : List (String × Nat) := []

namespace Cursor

/-- The cursor with other tokens left. -/
def goTo (cursor : Cursor) (tokens : List Token) : Cursor := { cursor with tokens := tokens }

/-- Numbers an anchor. -/
def addAnchor (cursor : Cursor) (name : String) : Nat × Cursor :=
  let number := cursor.anchors.length
  (number, { cursor with
    anchors := (name, number) :: cursor.anchors.filter fun anchor => anchor.1 ≠ name })

end Cursor

/-- The handles that need no directive. -/
def commonHandles : List (String × String) := [("!", "!"), ("!!", "tag:yaml.org,2002:")]

/-- The tag that a handle and a suffix make. A tag without a handle is whole. -/
def expandTag? (handles : List (String × String)) (handle suffix : String) : Option String :=
  if handle = "" then some suffix else (handles.lookup handle).map (· ++ suffix)

/-- Reads a tag, if there is one. -/
def readTagLabel? (handles : List (String × String)) (cursor : Cursor) :
    Option (Option String × Cursor) :=
  match cursor.tokens with
  | .tag handle suffix :: rest =>
    (expandTag? handles handle suffix).map fun tag => (some tag, cursor.goTo rest)
  | _ => some (none, cursor)

/-- Reads an anchor, if there is one. -/
def readAnchorLabel (cursor : Cursor) : Option Nat × Cursor :=
  match cursor.tokens with
  | .anchor name :: rest =>
    let (number, cursor) := (cursor.goTo rest).addAnchor name
    (some number, cursor)
  | _ => (none, cursor)

/-- Reads what stands before a node: an anchor and a tag in any order. -/
def readLabel? (handles : List (String × String)) (cursor : Cursor) : Option (Label × Cursor) := do
  match readAnchorLabel cursor with
  | (some number, cursor) =>
    let (tag, cursor) ← readTagLabel? handles cursor
    return (⟨some number, tag⟩, cursor)
  | (none, cursor) =>
    let (tag, cursor) ← readTagLabel? handles cursor
    let (anchor, cursor) := if tag.isSome then readAnchorLabel cursor else (none, cursor)
    return (⟨anchor, tag⟩, cursor)

/-! ### Nodes -/

/-- Where a node stands. -/
inductive Context where
  /-- Within brackets. -/
  | flow
  /-- Outside brackets. -/
  | block
  /-- As a key or value outside brackets, where a list need not be indented. -/
  | blockEntry
deriving DecidableEq, Repr

/-- Whether no item stands between dashes, or behind the last one of a list. -/
def Token.endsItem : Token → Bool
  | .item | .blockEnd => true
  | _ => false

/-- Whether no key or value stands before a token in a table without brackets. -/
def Token.endsEntry : Token → Bool
  | .key | .value | .blockEnd => true
  | _ => false

/-- Whether no key stands before a token in a table with brackets. -/
def Token.endsFlowKey : Token → Bool
  | .value | .comma | .flowTableEnd => true
  | _ => false

/-- Whether the next token has a property. -/
def Cursor.nextIs (cursor : Cursor) (isSuch : Token → Bool) : Bool := cursor.tokens.head?.any isSuch

mutual

/-- Reads a node. -/
def readNode? (handles : List (String × String)) (context : Context) :
    (fuel : Nat) → Cursor → Option (Node × Cursor)
  | 0, _ => none
  | fuel + 1, cursor =>
    match cursor.tokens with
    | .alias name :: rest =>
      (cursor.anchors.lookup name).map fun number => (.alias number, cursor.goTo rest)
    | _ => do
      let (label, cursor) ← readLabel? handles cursor
      match context, cursor.tokens with
      | .blockEntry, .item :: _ => readLooseItems? handles label [] fuel cursor
      | _, .scalar style text :: rest => return (.scalar label style text, cursor.goTo rest)
      | _, .flowListStart :: rest => readFlowItems? handles label true [] fuel (cursor.goTo rest)
      | _, .flowTableStart :: rest => readFlowEntries? handles label true [] fuel (cursor.goTo rest)
      | .block, .blockList :: rest => readItems? handles label [] fuel (cursor.goTo rest)
      | .blockEntry, .blockList :: rest => readItems? handles label [] fuel (cursor.goTo rest)
      | .block, .blockTable :: rest => readEntries? handles label [] fuel (cursor.goTo rest)
      | .blockEntry, .blockTable :: rest => readEntries? handles label [] fuel (cursor.goTo rest)
      | _, _ =>
        if label.anchor.isSome || label.tag.isSome then
          return (.scalar label .plain "", cursor)
        else none
termination_by structural fuel => fuel

/-- Reads a node that is missing before certain tokens. -/
def readNodeBefore? (handles : List (String × String)) (context : Context)
    (isEnd : Token → Bool) : (fuel : Nat) → Cursor → Option (Node × Cursor)
  | 0, _ => none
  | fuel + 1, cursor =>
    if cursor.nextIs isEnd then some (.absent, cursor) else readNode? handles context fuel cursor
termination_by structural fuel => fuel

/-- Reads the items of a list without brackets. Those before come backwards. -/
def readItems? (handles : List (String × String)) (label : Label) (items : List Node) :
    (fuel : Nat) → Cursor → Option (Node × Cursor)
  | 0, _ => none
  | fuel + 1, cursor =>
    match cursor.tokens with
    | .item :: rest => do
      let (item, cursor) ← readNodeBefore? handles .block Token.endsItem fuel (cursor.goTo rest)
      readItems? handles label (item :: items) fuel cursor
    | .blockEnd :: rest => some (.list label items.reverse, cursor.goTo rest)
    | _ => none
termination_by structural fuel => fuel

/-- Reads the items of a list that is not indented deeper than its table. -/
def readLooseItems? (handles : List (String × String)) (label : Label) (items : List Node) :
    (fuel : Nat) → Cursor → Option (Node × Cursor)
  | 0, _ => none
  | fuel + 1, cursor =>
    match cursor.tokens with
    | .item :: rest => do
      let isEnd (token : Token) : Bool := token.endsItem || token.endsEntry
      let (item, cursor) ← readNodeBefore? handles .block isEnd fuel (cursor.goTo rest)
      readLooseItems? handles label (item :: items) fuel cursor
    | _ => some (.list label items.reverse, cursor)
termination_by structural fuel => fuel

/-- Reads the entries of a table without brackets. Those before come backwards. -/
def readEntries? (handles : List (String × String)) (label : Label)
    (entries : List (Node × Node)) : (fuel : Nat) → Cursor → Option (Node × Cursor)
  | 0, _ => none
  | fuel + 1, cursor =>
    match cursor.tokens with
    | .key :: rest => do
      let (key, cursor) ←
        readNodeBefore? handles .blockEntry Token.endsEntry fuel (cursor.goTo rest)
      let (value, cursor) ←
        match cursor.tokens with
        | .value :: rest =>
          readNodeBefore? handles .blockEntry Token.endsEntry fuel (cursor.goTo rest)
        | _ => some (.absent, cursor)
      readEntries? handles label ((key, value) :: entries) fuel cursor
    | .blockEnd :: rest => some (.table label entries.reverse, cursor.goTo rest)
    | _ => none
termination_by structural fuel => fuel

/-- Reads the items of a list with brackets. Those before come backwards. -/
def readFlowItems? (handles : List (String × String)) (label : Label) (isFirst : Bool)
    (items : List Node) : (fuel : Nat) → Cursor → Option (Node × Cursor)
  | 0, _ => none
  | fuel + 1, cursor =>
    let close (rest : List Token) : Option (Node × Cursor) :=
      some (.list label items.reverse, cursor.goTo rest)
    let readNext? (tokens : List Token) : Option (Node × Cursor) :=
      match tokens with
      | .key :: rest => readPair? handles fuel (cursor.goTo rest)
      | tokens => readNode? handles .flow fuel (cursor.goTo tokens)
    match isFirst, cursor.tokens with
    | _, .flowListEnd :: rest => close rest
    | false, .comma :: .flowListEnd :: rest => close rest
    | false, .comma :: rest => do
      let (item, cursor) ← readNext? rest
      readFlowItems? handles label false (item :: items) fuel cursor
    | true, tokens => do
      let (item, cursor) ← readNext? tokens
      readFlowItems? handles label false (item :: items) fuel cursor
    | false, _ => none
termination_by structural fuel => fuel

/-- Reads a table of one entry, which stands among the items of a list with brackets, behind the
mark of its key. Where the key is missing, the next token is lost with it. -/
def readPair? (handles : List (String × String)) :
    (fuel : Nat) → Cursor → Option (Node × Cursor)
  | 0, _ => none
  | fuel + 1, cursor => do
    let (key, cursor) ←
      match cursor.tokens with
      | .value :: rest => some (.absent, cursor.goTo rest)
      | .comma :: rest => some (.absent, cursor.goTo rest)
      | .flowListEnd :: rest => some (.absent, cursor.goTo rest)
      | _ => readNode? handles .flow fuel cursor
    let (value, cursor) ←
      match cursor.tokens with
      | .value :: rest =>
        readNodeBefore? handles .flow (fun token => token = .comma || token = .flowListEnd) fuel
          (cursor.goTo rest)
      | _ => some (.absent, cursor)
    return (.table {} [(key, value)], cursor)
termination_by structural fuel => fuel

/-- Reads the entries of a table with brackets. Those before come backwards. -/
def readFlowEntries? (handles : List (String × String)) (label : Label) (isFirst : Bool)
    (entries : List (Node × Node)) : (fuel : Nat) → Cursor → Option (Node × Cursor)
  | 0, _ => none
  | fuel + 1, cursor =>
    let close (rest : List Token) : Option (Node × Cursor) :=
      some (.table label entries.reverse, cursor.goTo rest)
    let readNext? (tokens : List Token) : Option ((Node × Node) × Cursor) :=
      match tokens with
      | .key :: rest => do
        let (key, cursor) ← readNodeBefore? handles .flow Token.endsFlowKey fuel (cursor.goTo rest)
        match cursor.tokens with
        | .value :: rest =>
          let isEnd (token : Token) : Bool := token = .comma || token = .flowTableEnd
          let (value, cursor) ← readNodeBefore? handles .flow isEnd fuel (cursor.goTo rest)
          return ((key, value), cursor)
        | _ => return ((key, .absent), cursor)
      | tokens => do
        let (key, cursor) ← readNode? handles .flow fuel (cursor.goTo tokens)
        return ((key, .absent), cursor)
    match isFirst, cursor.tokens with
    | _, .flowTableEnd :: rest => close rest
    | false, .comma :: .flowTableEnd :: rest => close rest
    | false, .comma :: rest => do
      let (entry, cursor) ← readNext? rest
      readFlowEntries? handles label false (entry :: entries) fuel cursor
    | true, tokens => do
      let (entry, cursor) ← readNext? tokens
      readFlowEntries? handles label false (entry :: entries) fuel cursor
    | false, _ => none
termination_by structural fuel => fuel

end

/-! ### Documents -/

/-- Whether a document may be written for a version. -/
def isKnownVersion (major minor : Nat) : Bool := major = 1 && (minor = 1 || minor = 2)

/-- Reads the directives before a document: at most one version, and handles, each at most once.
The result also says whether there was any. -/
def readDirectives? (hasVersion : Bool) (handles : List (String × String)) :
    List Token → Option (List (String × String) × List Token)
  | .version major minor :: rest =>
    if hasVersion || !isKnownVersion major minor then none else readDirectives? true handles rest
  | .handle name expansion :: rest =>
    if (handles.lookup name).isSome then none
    else readDirectives? hasVersion ((name, expansion) :: handles) rest
  | tokens => some (handles, tokens)

/-- Whether a token ends a document, or stands before one. -/
def Token.isOutside : Token → Bool
  | .version .. | .handle .. | .documentStart | .documentEnd => true
  | _ => false

/-- Reads a node that makes up a document. -/
def readRoot? (handles : List (String × String)) (tokens : List Token) :
    Option (Node × List Token) :=
  (readNode? (handles ++ commonHandles) .block (3 * tokens.length + 3) { tokens := tokens }).map
    fun (root, cursor) => (root, cursor.tokens)

/-- Reads a document with the directives and the mark before it. Only a document with directives
needs the mark. -/
def readDocument? (tokens : List Token) : Option (Node × List Token) := do
  let (handles, rest) ← readDirectives? false [] tokens
  match rest with
  | .documentStart :: [] => return (.absent, [])
  | .documentStart :: token :: rest =>
    if token.isOutside then return (.absent, token :: rest) else readRoot? handles (token :: rest)
  | rest => if rest.length = tokens.length then readRoot? handles rest else none

/-- The tree that tokens write: one document, behind which only marks of its end may come. There
need not be any. -/
def Node.ofTokens? : List Token → Option Node
  | [] => some .absent
  | tokens => do
    let (root, rest) ← readDocument? tokens
    if rest.all (· = .documentEnd) then some root else none

end Criteria.Config.Yaml
