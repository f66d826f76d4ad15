import Criteria.Adapter
import Criteria.Operator

/-!
# Patterns that match text literally

Substrings, beginnings and endings are looked for with `LIKE`, so the characters that mean
something in a pattern are escaped in the text of the client. The escape character is `!`; a
backslash would clash with the escapes of string literals in some dialects. One dialect reads
character classes in brackets, so there the opening bracket is escaped too.
-/

namespace Criteria.Sql

/-- The escape character of patterns. -/
def escapeMark : Char := '!'

/-- Whether a character means something in a pattern of a dialect. -/
def isSpecial (dialect : Dialect) (c : Char) : Bool :=
  c = '%' || c = '_' || c = escapeMark || (c = '[' && dialect = .mssql)

/-- The pattern that matches exactly a text. -/
def escapePattern (dialect : Dialect) (text : List Char) : List Char :=
  text.flatMap fun c => if isSpecial dialect c then [escapeMark, c] else [c]

/-- Where a text is looked for. -/
inductive Placement where
  /-- Anywhere. -/
  | within
  /-- At the beginning. -/
  | atStart
  /-- At the end. -/
  | atEnd
deriving DecidableEq, Repr

/-- The pattern that matches what has a text at a place. -/
def literalPattern (dialect : Dialect) (placement : Placement) (text : String) : String :=
  let escaped := escapePattern dialect text.toList
  String.ofList <|
    match placement with
    | .within => '%' :: escaped ++ ['%']
    | .atStart => escaped ++ ['%']
    | .atEnd => '%' :: escaped

end Criteria.Sql
