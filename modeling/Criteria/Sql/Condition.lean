import Criteria.Native.Binding
import Criteria.Sql.Quoting

/-!
# SQL conditions

A `Condition` is a boolean expression of SQL as a tree. Its leaves test a column against
parameters, which are referred to by number, so the tree is the same in all dialects; only the
spelling of identifiers and placeholders and of a few tests differs.

`Condition.pieces` writes a condition as a list of pieces: fixed text, columns, parameters, and the
text of custom filters as it stands. `Condition.text` spells the pieces in a dialect. Conjunctions
and disjunctions stand in parentheses, and so does what is negated.
-/

namespace Criteria.Sql

/-- How a column is compared with a parameter. -/
inductive Comparison where
  | equal
  | unequal
  | above
  | atLeast
  | below
  | atMost
deriving DecidableEq, Repr

/-- The sign of a comparison. -/
def Comparison.sign : Comparison → String
  | equal => "="
  | unequal => "<>"
  | above => ">"
  | atLeast => ">="
  | below => "<"
  | atMost => "<="

/-- A test of a column; parameters are given by their numbers. -/
inductive Test where
  /-- A comparison with a parameter. -/
  | compare (comparison : Comparison) (param : Nat)
  /-- The column is among the parameters, or is not. -/
  | among (positive : Bool) (params : List Nat)
  /-- The column matches a pattern of the client. -/
  | like (param : Nat)
  /-- The column matches a pattern of the client in any letter case. -/
  | likeAnyCase (param : Nat)
  /-- The column matches a pattern with escapes. -/
  | likeEscaped (param : Nat)
  /-- The array has all elements of the parameter. -/
  | hasAll (param : Nat)
  /-- The array shares an element with the parameter. -/
  | overlaps (param : Nat)
  /-- The column lies between two parameters. -/
  | between (low high : Nat)
  /-- The column is null, or is not. -/
  | isNull (positive : Bool)
deriving DecidableEq, Repr

/-- A piece of the text of a custom filter. -/
inductive Insert where
  /-- Text as it stands. -/
  | text (sql : String)
  /-- A parameter. -/
  | param (number : Nat)
deriving DecidableEq, Repr

/-- A boolean expression. -/
inductive Condition where
  /-- Always true or always false. -/
  | constant (value : Bool)
  /-- A test of a column, given by its native reference. -/
  | test (reference : String) (check : Test)
  /-- What a custom filter wrote. -/
  | custom (inserts : List Insert)
  /-- All parts hold. -/
  | all (parts : List Condition)
  /-- At least one part holds. -/
  | any (parts : List Condition)
  /-- The part does not hold. -/
  | not (part : Condition)
deriving Repr

/-- A piece of SQL text. -/
inductive Piece where
  /-- Text that is the same in every dialect. -/
  | fixed (sql : String)
  /-- A column. -/
  | column (reference : String)
  /-- A parameter. -/
  | param (number : Nat)
  /-- Text of a custom filter. -/
  | verbatim (sql : String)
deriving DecidableEq, Repr

/-- A piece as a dialect spells it. -/
def Piece.text (dialect : Dialect) : Piece → String
  | fixed sql => sql
  | column reference => dialect.quote reference
  | param number => dialect.placeholder.text number
  | verbatim sql => sql

/-- Pieces as a dialect spells them. -/
def spell (dialect : Dialect) (pieces : List Piece) : String :=
  String.join (pieces.map (Piece.text dialect))

/-- Parameters with commas between them. -/
def paramPieces : List Nat → List Piece
  | [] => []
  | [number] => [.param number]
  | number :: rest => .param number :: .fixed ", " :: paramPieces rest

/-- A test as pieces. Only one dialect matches in any letter case by itself; in the others both
sides are brought to lower case. -/
def Test.pieces (dialect : Dialect) (reference : String) : Test → List Piece
  | compare comparison param =>
    [.column reference, .fixed (" " ++ comparison.sign ++ " "), .param param]
  | among positive params =>
    .column reference :: .fixed (if positive then " IN (" else " NOT IN (") ::
      (paramPieces params ++ [.fixed ")"])
  | like param => [.column reference, .fixed " LIKE ", .param param]
  | likeAnyCase param =>
    if dialect = .postgres then [.column reference, .fixed " ILIKE ", .param param]
    else [.fixed "LOWER(", .column reference, .fixed ") LIKE LOWER(", .param param, .fixed ")"]
  | likeEscaped param => [.column reference, .fixed " LIKE ", .param param, .fixed " ESCAPE '!'"]
  | hasAll param => [.column reference, .fixed " @> ", .param param]
  | overlaps param => [.column reference, .fixed " && ", .param param]
  | between low high =>
    [.column reference, .fixed " BETWEEN ", .param low, .fixed " AND ", .param high]
  | isNull positive => [.column reference, .fixed (if positive then " IS NULL" else " IS NOT NULL")]

/-- The text of a custom filter as pieces. -/
def Insert.piece : Insert → Piece
  | text sql => .verbatim sql
  | param number => .param number

namespace Condition

mutual

/-- A condition as pieces. -/
def pieces (dialect : Dialect) : Condition → List Piece
  | .constant true => [.fixed "1=1"]
  | .constant false => [.fixed "1=0"]
  | .test reference check => check.pieces dialect reference
  | .custom inserts => inserts.map Insert.piece
  | .all parts => .fixed "(" :: (joined dialect " AND " parts ++ [.fixed ")"])
  | .any parts => .fixed "(" :: (joined dialect " OR " parts ++ [.fixed ")"])
  | .not part => .fixed "NOT (" :: (pieces dialect part ++ [.fixed ")"])

/-- Conditions as pieces with a connective between them. -/
def joined (dialect : Dialect) (connective : String) : List Condition → List Piece
  | [] => []
  | [part] => pieces dialect part
  | part :: rest => pieces dialect part ++ .fixed connective :: joined dialect connective rest

end

/-- The text of a condition in a dialect. -/
def text (dialect : Dialect) (condition : Condition) : String :=
  spell dialect (condition.pieces dialect)

/-- The conjunction of conditions; a single one stands for itself. -/
def allOf : List Condition → Condition
  | [] => .constant true
  | [part] => part
  | parts => .all parts

/-- The disjunction of conditions; a single one stands for itself. -/
def anyOf : List Condition → Condition
  | [] => .constant false
  | [part] => part
  | parts => .any parts

@[simp] theorem allOf_nil : allOf [] = .constant true := rfl
@[simp] theorem anyOf_nil : anyOf [] = .constant false := rfl
@[simp] theorem allOf_singleton (part : Condition) : allOf [part] = part := rfl
@[simp] theorem anyOf_singleton (part : Condition) : anyOf [part] = part := rfl

end Condition

end Criteria.Sql
