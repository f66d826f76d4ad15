import Criteria.Config.Basic

/-!
# What a configuration consists of

An `Outline` says what is looked for in a document: which keys a section has, and what stands under
each of them. A format whose scalars have no types of their own needs it to tell which value a
scalar is, and which parts of a document are not looked at.

`Config.outline` is the outline of a whole configuration.
-/

namespace Criteria.Config

/-- What is looked for in a document. -/
inductive Outline where
  | text
  /-- A natural number. -/
  | natural
  /-- A boolean. -/
  | flag
  /-- One of a few words. -/
  | word
  /-- A value that may be null. -/
  | optional (value : Outline)
  | list (item : Outline)
  /-- A section with its keys in declaration order. -/
  | keyed (entries : List (String × Outline))
deriving Repr, Inhabited

/-- The keys of a section. -/
def Outline.keys : Outline → List String
  | .keyed entries => entries.map Prod.fst
  | _ => []

/-- The binding of the adapter. -/
def AdapterSection.outline : Outline :=
  .keyed [("name", .optional .text), ("backend", .optional .text)]

/-- The limits. -/
def limitsOutline : Outline :=
  .keyed
    [("max_depth", .natural), ("max_input_bytes", .natural), ("max_predicates", .natural),
     ("max_list_len", .natural), ("max_order_clauses", .natural)]

/-- What is logged. -/
def LoggingSection.outline : Outline := .keyed [("level", .text)]

/-- An argument of a field. -/
def ArgumentSection.outline : Outline := .keyed [("name", .text), ("type", .text)]

/-- A field. -/
def FieldSection.outline : Outline :=
  .keyed
    [("name", .text), ("type", .optional .text), ("kind", .optional .text),
     ("column", .optional .text), ("filterable", .optional .flag), ("sortable", .optional .flag),
     ("args", .list ArgumentSection.outline)]

/-- A type. -/
def TypeSection.outline : Outline :=
  .keyed
    [("name", .text), ("kind", .word), ("interfaces", .list .text), ("members", .list .text),
     ("fields", .list FieldSection.outline)]

/-- An enum. -/
def EnumSection.outline : Outline :=
  .keyed [("name", .text), ("values", .list .text), ("operators", .list .text)]

/-- The declarations. -/
def SchemaSection.outline : Outline :=
  .keyed
    [("roots", .list .text), ("types", .list TypeSection.outline),
     ("enums", .list EnumSection.outline)]

/-- A configuration. -/
def outline : Outline :=
  .keyed
    [("adapter", AdapterSection.outline), ("limits", limitsOutline),
     ("logging", LoggingSection.outline), ("schema", SchemaSection.outline)]

end Criteria.Config
