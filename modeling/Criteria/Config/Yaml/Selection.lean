import Criteria.Config.Document
import Criteria.Config.Outline
import Criteria.Config.Yaml.Node

/-!
# From trees to documents

The scalars of YAML have no types of their own: which value one is depends on what is looked for.
`select` reads the parts of a tree that an outline looks for. It follows aliases, and leaves out
what is not looked for, which may then be anything.

A plain scalar is a number, a boolean or null only in the usual spellings. For a number or a boolean
it may have any tag; lines below a bar are one only if their tag says so. A text is any scalar. A
word may also be the tag of null. An empty plain scalar is an empty section or list; other than
that, a section is a table.

Aliases may make a document far larger than its text. They are followed at most a hundred times for
every part of the tree.
-/

namespace Criteria.Config.Yaml

/-! ### Scalars -/

/-- The natural an unsigned scalar spells: decimal without leading zeros, or behind a mark of its
base. -/
def unsigned? : List Char → Option Nat
  | '0' :: 'x' :: digits => Text.natural? 16 digits
  | '0' :: 'o' :: digits => Text.natural? 8 digits
  | '0' :: 'b' :: digits => Text.natural? 2 digits
  | ['0'] => some 0
  | '0' :: _ => none
  | digits => Text.natural? 10 digits

/-- The natural a scalar spells, which may have a plus sign. -/
def natural? : List Char → Option Nat
  | '+' :: rest => unsigned? rest
  | chars => unsigned? chars

/-- The boolean a scalar spells, in three letter cases. -/
def flag? : String → Option Bool
  | "true" | "True" | "TRUE" => some true
  | "false" | "False" | "FALSE" => some false
  | _ => none

/-- Whether a scalar spells null. -/
def isNullWord (text : String) : Bool := ["~", "null", "Null", "NULL"].contains text

/-- The tag of integers. -/
def integerTag : String := "tag:yaml.org,2002:int"

/-- The tag of booleans. -/
def flagTag : String := "tag:yaml.org,2002:bool"

/-- The tag of null. -/
def nullTag : String := "tag:yaml.org,2002:null"

namespace Node

/-- The text of a scalar. -/
def text? : Node → Option String
  | .scalar _ _ text => some text
  | _ => none

/-- The text of a scalar that may be a value with a tag. -/
def valueText? (tag : String) : Node → Option String
  | .scalar label style text =>
    if style = .plain || (style = .literal && label.tag = some tag) then some text else none
  | _ => none

/-- Whether there is a value and not null. Only null itself may have the tag of null. -/
def isPresent? : Node → Option Bool
  | .scalar label .plain text =>
    match label.tag with
    | none => some (!(text.isEmpty || isNullWord text))
    | some tag =>
      if tag ≠ nullTag then some true else if isNullWord text then some false else none
  | _ => some true

/-- The word of a scalar: the name behind the mark of its tag, if it has such a tag and is null
otherwise, or its text. -/
def word? : Node → Option String
  | .scalar label style text =>
    match label.tag.map String.toList with
    | some ('!' :: name) =>
      if style = .plain && (text.isEmpty || isNullWord text) then some (String.ofList name)
      else none
    | _ => some text
  | _ => none

end Node

/-! ### Trees -/

/-- Reading that counts down how often an alias may still be followed. -/
abbrev Selection := StateT Nat Option

/-- The node that an alias stands for. -/
def follow (targets : List (Nat × Node)) : Node → Selection Node
  | .alias number => do
    match ← get with
    | 0 => failure
    | left + 1 => set left; StateT.lift (targets.lookup number)
  | node => pure node

/-- Reads a scalar by what it may spell. -/
def readScalar {α : Type} (targets : List (Nat × Node)) (spells? : Node → Option α)
    (node : Node) : Selection α := do
  StateT.lift (spells? (← follow targets node))

mutual

/-- Reads what is looked for in a tree. -/
def select (targets : List (Nat × Node)) : Outline → Node → Selection Document
  | .text, node => return .text (← readScalar targets Node.text? node)
  | .natural, node => do
    let spells? (node : Node) : Option Nat :=
      (node.valueText? integerTag).bind fun text => natural? text.toList
    return .integer (← readScalar targets spells? node)
  | .flag, node => do
    return .bool (← readScalar targets (fun node => (node.valueText? flagTag).bind flag?) node)
  | .word, node => return .text (← readScalar targets Node.word? node)
  | .optional value, node => do
    let node ← follow targets node
    if ← StateT.lift node.isPresent? then select targets value node else return .null
  | .list item, node => do
    match ← follow targets node with
    | .list _ items => return .list (← items.mapM (select targets item))
    | .scalar _ .plain "" => return .list []
    | _ => failure
  | .keyed entries, node => do
    match ← follow targets node with
    | .table _ found => do
      let known ← found.mapM fun entry => do
        let key ← readScalar targets Node.text? entry.1
        selectEntry targets key entry.2 entries
      return .table (known.filterMap id)
    | .scalar _ .plain "" => return .table []
    | _ => failure

/-- Reads the value of an entry of a section, if the section has its key. -/
def selectEntry (targets : List (Nat × Node)) (key : String) (node : Node) :
    List (String × Outline) → Selection (Option (String × Document))
  | [] => return none
  | (name, value) :: entries =>
    if name = key then return some (key, ← select targets value node)
    else selectEntry targets key node entries

end

/-- How often aliases are followed for every part of a tree. -/
def followLimit : Nat := 100

/-- Reads what is looked for in a document. -/
def Node.document? (outline : Outline) (root : Node) : Option Document :=
  ((select root.targets outline root).run (followLimit * root.size)).map Prod.fst

end Criteria.Config.Yaml
