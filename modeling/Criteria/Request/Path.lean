import Criteria.Json.Basic

/-!
# Positions in a document

A `Path` leads from the root of a document to one of its values, through object keys and list
indices. It is what an error about a document points with; written out, it starts with `$`.
-/

namespace Criteria

/-- One step into a value. -/
inductive Path.Step where
  /-- To the member under a key. -/
  | key (name : String)
  /-- To an item of a list. -/
  | index (position : Nat)
deriving DecidableEq, Repr

/-- The steps from the root of a document. -/
abbrev Path := List Path.Step

namespace Path

/-- The written form of a step. -/
def Step.text : Step → String
  | .key name => "." ++ name
  | .index position => "[" ++ toString position ++ "]"

/-- The written form of a path. -/
def text (path : Path) : String := path.foldl (fun written step => written ++ step.text) "$"

end Path

end Criteria
