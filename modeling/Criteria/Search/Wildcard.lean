/-!
# Wildcard patterns of the search index

In a wildcard pattern `*` matches any text and `?` any single character; a backslash makes the
character behind it stand for itself.

* `escapeWildcards` is the pattern that matches exactly a text;
* `ofLike` says the same as a `LIKE` pattern, in which `%` matches any text, `_` any single
  character, and everything else itself.
-/

namespace Criteria.Search

/-- Whether a character means something in a wildcard pattern. -/
def isWildcard (c : Char) : Bool := c = '*' || c = '?' || c = '\\'

/-- A character that stands for itself. -/
def escapeWildcard (c : Char) : List Char := if isWildcard c then ['\\', c] else [c]

/-- The pattern that matches exactly a text. -/
def escapeWildcards (text : List Char) : List Char := text.flatMap escapeWildcard

/-- The wildcard pattern that says the same as a `LIKE` pattern. -/
def ofLike (pattern : List Char) : List Char :=
  pattern.flatMap fun c => if c = '%' then ['*'] else if c = '_' then ['?'] else escapeWildcard c

end Criteria.Search
