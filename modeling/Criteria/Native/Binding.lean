import Criteria.Adapter
import Criteria.Json.Basic

/-!
# Bound parameters

A SQL text refers to its parameters by placeholders, numbered from one in the order in which they
are bound. How a placeholder is spelled depends on the adapter. A search document holds its values
itself, so nothing is bound for it.
-/

namespace Criteria

/-- How parameters are referred to. -/
inductive Placeholder where
  /-- `$1`, `$2`, … -/
  | dollar
  /-- `?` for every parameter. -/
  | question
  /-- `@p1`, `@p2`, … -/
  | named
  /-- Not at all: values stand in the document. -/
  | inline
deriving DecidableEq, Repr

/-- The spelling of the placeholder with a number. -/
def Placeholder.text (style : Placeholder) (number : Nat) : String :=
  match style with
  | dollar => "$" ++ toString number
  | question => "?"
  | named => "@p" ++ toString number
  | inline => ""

/-- The placeholders of a dialect. -/
def Dialect.placeholder : Dialect → Placeholder
  | postgres => .dollar
  | mysql | sqlite => .question
  | mssql => .named

/-- The placeholders of an adapter. -/
def Adapter.placeholder : Adapter → Placeholder
  | .sql dialect => dialect.placeholder
  | .search => .inline

/-- The values bound so far. -/
structure Binder where
  /-- How they are referred to. -/
  style : Placeholder
  /-- The values in order of their numbers. -/
  params : List Json
deriving Repr

/-- Binds a value; the first result is its placeholder. Nothing is bound inline. -/
def Binder.bind (binder : Binder) (value : Json) : String × Binder :=
  match binder.style with
  | .inline => ("", binder)
  | style =>
    (style.text (binder.params.length + 1), { binder with params := binder.params ++ [value] })

end Criteria
