import Criteria.Json.Basic

/-!
# Search queries

A `Query` is a query of a search index as a tree, `Query.toJson` its document. Values of the client
stand in the places for values only; the keys of a document are words of the query language and
paths of declared fields.

A `bool` query holds when all its required parts hold, none of the excluded ones does, and at least
a given number of the optional ones. Without that number, one optional part must hold if nothing is
required, and none otherwise.
-/

namespace Criteria.Search

/-- A bound of a range. -/
inductive Limit where
  | above
  | atLeast
  | below
  | atMost
deriving DecidableEq, Repr

/-- The word for a bound. -/
def Limit.word : Limit → String
  | above => "gt"
  | atLeast => "gte"
  | below => "lt"
  | atMost => "lte"

/-- A point on the globe. -/
structure Point where
  /-- Degrees north. -/
  latitude : Binary64
  /-- Degrees east. -/
  longitude : Binary64
deriving DecidableEq, Repr

/-- A query. -/
inductive Query where
  /-- Everything matches. -/
  | everything
  /-- Nothing matches. -/
  | nothing
  /-- The field has exactly this value. -/
  | term (path : String) (value : Json)
  /-- The field has one of these values. -/
  | terms (path : String) (values : List Json)
  /-- The field lies within bounds. -/
  | range (path : String) (limits : List (Limit × Json))
  /-- The field matches a wildcard pattern. -/
  | wildcard (path : String) (pattern : String) (anyCase : Bool)
  /-- The field starts with a text. -/
  | startsWith (path : String) (text : String)
  /-- The field has a value. -/
  | present (path : String)
  /-- The field matches words. -/
  | fullText (path : String) (words : Json)
  /-- The field matches words next to each other. -/
  | phrase (path : String) (words : Json)
  /-- The field lies within a distance of a point. -/
  | withinDistance (path : String) (center : Point) (distance : String)
  /-- The field lies within a box. -/
  | withinBounds (path : String) (topLeft bottomRight : Point)
  /-- Ranks by the distance to a point. -/
  | nearness (path : String) (origin : Point) (pivot : String)
  /-- A combination of queries. -/
  | bool (required optional excluded : List Query) (minimum : Option Nat)
  /-- A document as a custom filter wrote it. -/
  | verbatim (document : Json)
deriving Repr

/-- A point as a value. -/
def Point.toJson (point : Point) : Json :=
  .object [("lat", .number (.double point.latitude)), ("lon", .number (.double point.longitude))]

namespace Query

/-- The negation of a query. -/
def negation (query : Query) : Query := .bool [] [] [query] none

/-- The conjunction of queries; a single one stands for itself. -/
def allOf : List Query → Query
  | [] => .everything
  | [part] => part
  | parts => .bool parts [] [] none

/-- The disjunction of queries; a single one stands for itself. -/
def anyOf : List Query → Query
  | [] => .nothing
  | [part] => part
  | parts => .bool [] parts [] (some 1)

/-- A clause of a `bool` query, left out if it is empty. -/
def clause (name : String) (documents : List Json) : Json.Members :=
  if documents.isEmpty then [] else [(name, .array documents)]

/-- The members of a distance query. The path takes the place of the distance if it is spelled
the same. -/
def distanceMembers (path : String) (center : Point) (distance : String) : Json.Members :=
  Json.Members.insert path center.toJson [("distance", .string distance)]

mutual

/-- The document of a query. -/
def toJson : Query → Json
  | .everything => .single "match_all" (.object [])
  | .nothing => .single "match_none" (.object [])
  | .term path value => .single "term" (.single path value)
  | .terms path values => .single "terms" (.single path (.array values))
  | .range path limits =>
    .single "range" (.single path (.object (limits.map fun l => (l.1.word, l.2))))
  | .wildcard path pattern anyCase =>
    .single "wildcard" (.single path
      (.object [("value", .string pattern), ("case_insensitive", .bool anyCase)]))
  | .startsWith path text => .single "prefix" (.single path (.single "value" (.string text)))
  | .present path => .single "exists" (.single "field" (.string path))
  | .fullText path words => .single "match" (.single path (.single "query" words))
  | .phrase path words => .single "match_phrase" (.single path (.single "query" words))
  | .withinDistance path center distance =>
    .single "geo_distance" (.object (distanceMembers path center distance))
  | .withinBounds path topLeft bottomRight =>
    .single "geo_bounding_box" (.single path
      (.object [("top_left", topLeft.toJson), ("bottom_right", bottomRight.toJson)]))
  | .nearness path origin pivot =>
    .single "distance_feature"
      (.object [("field", .string path), ("origin", origin.toJson), ("pivot", .string pivot)])
  | .bool required optional excluded minimum =>
    .single "bool" (.object
      (clause "filter" (toJsons required) ++ clause "should" (toJsons optional) ++
        clause "must_not" (toJsons excluded) ++
        (minimum.map fun n => ("minimum_should_match", Json.nat n)).toList))
  | .verbatim document => document

/-- The documents of queries. -/
def toJsons : List Query → List Json
  | [] => []
  | query :: rest => toJson query :: toJsons rest

end

-- There are many equations, so they are made once, here, and not where they are first used.
attribute [grind =] toJson toJsons

end Query

end Criteria.Search
