import Criteria.Adapter
import Criteria.Text.Split

/-!
# Quoted identifiers

A native reference is a dotted path. Each of its segments is quoted by itself, and within the
quotes the closing quote is written twice, so a quoted segment ends at the first closing quote that
is not doubled.
-/

namespace Criteria

namespace Dialect

/-- The character that opens a quoted identifier. -/
def openQuote : Dialect → Char
  | .postgres | .sqlite => '"'
  | .mysql => '\x60'
  | .mssql => '['

/-- The character that closes a quoted identifier. -/
def closeQuote : Dialect → Char
  | .postgres | .sqlite => '"'
  | .mysql => '\x60'
  | .mssql => ']'

/-- A segment with its closing quotes doubled. -/
def doubleQuotes (dialect : Dialect) (segment : List Char) : List Char :=
  segment.flatMap fun c => if c = dialect.closeQuote then [c, c] else [c]

/-- One quoted segment. -/
def quoteSegment (dialect : Dialect) (segment : List Char) : List Char :=
  dialect.openQuote :: dialect.doubleQuotes segment ++ [dialect.closeQuote]

/-- A dotted path with each segment quoted. -/
def quote (dialect : Dialect) (reference : String) : String :=
  String.ofList
    (Text.join ['.'] ((Text.split '.' reference.toList).map dialect.quoteSegment))

end Dialect

/-- An identifier in the spelling of an adapter; the search index takes it as it stands. -/
def Adapter.quote : Adapter → String → String
  | .sql dialect, reference => dialect.quote reference
  | .search, reference => reference

end Criteria
