import Criteria.Json.Token

/-!
# Reading JSON text

The reader runs over the lexemes of a text with a stack of open containers and a note of what may
come next. Each lexeme is one step, so reading is a plain fold over the lexemes, and the number of
open containers is the length of the stack: nesting deeper than a limit is refused at the bracket
that opens too deep.

A key may be repeated in the text. `Repeats` says what becomes of that: `Repeats.merge` keeps the
first position and the last value, `Repeats.keep` hands every mention to the caller, who may want
to refuse it.

Text with an unreadable string or number is refused, unless the caller names a value that stands for
it. That value then also stands for an object with an unreadable key.
-/

namespace Criteria.Json

/-- What becomes of a repeated key of an object. -/
inductive Repeats where
  /-- The first position and the last value are kept. -/
  | merge
  /-- Every mention is kept. -/
  | keep
deriving DecidableEq, Repr

/-- How text is read. -/
structure ReaderOptions where
  /-- How many containers may be open at once. -/
  maxDepth : Nat
  /-- What becomes of repeated keys. -/
  repeats : Repeats
  /-- What stands for the unreadable; without it, the unreadable is refused. -/
  substitute : Option Json := none
deriving Repr

namespace Reader

/-- The members of an object so far, in reverse; none if one of its keys is unreadable. -/
abbrev OpenMembers := Option Members

/-- A container that is still open, its content so far in reverse. -/
inductive Frame where
  | array (items : List Json)
  /-- An object whose member `key` waits for its value. -/
  | object (members : OpenMembers) (key : String)
deriving Repr

/-- What may come next. -/
inductive Expect where
  /-- A value. -/
  | value
  /-- A value, or the end of the array just opened. -/
  | firstItem
  /-- A key, or the end of the object just opened. -/
  | firstKey
  /-- A key. -/
  | key (members : OpenMembers)
  /-- The colon behind a key. -/
  | colon (members : OpenMembers) (key : String)
  /-- A comma, or the end of the innermost array. -/
  | afterItem (items : List Json)
  /-- A comma, or the end of the innermost object. -/
  | afterMember (members : OpenMembers)
  /-- Nothing: the text is complete. -/
  | done (value : Json)
deriving Repr

/-- The reader between two lexemes: the containers around the innermost one, and what may come. -/
structure State where
  /-- The containers around the current position, the innermost first. -/
  frames : List Frame
  /-- What may come next. -/
  expect : Expect
deriving Repr

/-- Hands a complete value to the innermost open container. -/
def deliver (value : Json) : List Frame → State
  | [] => ⟨[], .done value⟩
  | .array items :: frames => ⟨frames, .afterItem (value :: items)⟩
  | .object members key :: frames => ⟨frames, .afterMember (members.map ((key, value) :: ·))⟩

/-- The object with the given members, or what stands for it. -/
def close? (options : ReaderOptions) : OpenMembers → Option Json
  | none => options.substitute
  | some members =>
    match options.repeats with
    | .merge => some (.object (Members.merge members.reverse))
    | .keep => some (.object members.reverse)

/-- A value starts: a scalar is delivered at once, a bracket opens a container. -/
def begin (options : ReaderOptions) (frames : List Frame) : Token → Option State
  | .scalar value => some (deliver value frames)
  | .text value => some (deliver (.string value) frames)
  | .unreadable => options.substitute.map fun value => deliver value frames
  | .beginArray => if frames.length < options.maxDepth then some ⟨frames, .firstItem⟩ else none
  | .beginObject => if frames.length < options.maxDepth then some ⟨frames, .firstKey⟩ else none
  | _ => none

/-- A key comes, behind the members so far. -/
def beginMember (options : ReaderOptions) (frames : List Frame) (members : OpenMembers) :
    Token → Option State
  | .text key => some ⟨frames, .colon members key⟩
  | .unreadable => options.substitute.map fun _ => ⟨frames, .colon none ""⟩
  | _ => none

/-- One lexeme. -/
def step (options : ReaderOptions) (state : State) (token : Token) : Option State :=
  let frames := state.frames
  match state.expect with
  | .value => begin options frames token
  | .firstItem =>
    if token = .endArray then some (deliver (.array []) frames)
    else begin options (.array [] :: frames) token
  | .firstKey =>
    if token = .endObject then some (deliver (.object []) frames)
    else beginMember options frames (some []) token
  | .key members => beginMember options frames members token
  | .colon members key =>
    if token = .colon then some ⟨.object members key :: frames, .value⟩ else none
  | .afterItem items =>
    match token with
    | .comma => some ⟨.array items :: frames, .value⟩
    | .endArray => some (deliver (.array items.reverse) frames)
    | _ => none
  | .afterMember members =>
    match token with
    | .comma => some ⟨frames, .key members⟩
    | .endObject => (close? options members).map fun value => deliver value frames
    | _ => none
  | .done _ => none

/-- All lexemes in turn. -/
def run (options : ReaderOptions) (state : State) : List Token → Option State
  | [] => some state
  | token :: rest =>
    match step options state token with
    | none => none
    | some next => run options next rest

end Reader

/-- The value a text stands for; `none` if it is not one JSON value. -/
def read? (options : ReaderOptions) (text : String) : Option Json := do
  match ← Reader.run options ⟨[], .value⟩ (← Token.scan text) with
  | ⟨_, .done value⟩ => some value
  | _ => none

/-- Containers nest at most this deep in the text of a client. -/
def maxTextDepth : Nat := 127

/-- Reads text from a client. -/
def ofText? (text : String) : Option Json :=
  read? { maxDepth := maxTextDepth, repeats := .merge } text

end Criteria.Json
