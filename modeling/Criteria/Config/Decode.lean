import Criteria.Config.Document
import Criteria.Config.Outline

/-!
# What a document means

`Config.decode` reads a document as a configuration; `none` means that it has not the shape of one.

A section is a table. Unknown keys are ignored and missing ones have their defaults, but a known
key must not be repeated. Only optional scalars may be null.

The formats differ in little. In JSON and TOML a section may also be a list of its entries in
declaration order, where the last ones may be missing; in TOML that list may have more entries than
the section. In both, the sort of a type may also be a table that maps its word to nothing.
-/

namespace Criteria.Config

namespace Document

/-! ### Scalars -/

/-- A text. -/
def text? : Document → Option String
  | .text value => some value
  | _ => none

/-- A value that is not there. -/
def isNull : Document → Bool
  | .null => true
  | _ => false

/-- A boolean. -/
def bool? : Document → Option Bool
  | .bool value => some value
  | _ => none

/-- A natural number. It fits 64 bits. -/
def nat? : Document → Option Nat
  | .integer value =>
    if 0 ≤ value ∧ value.toNat < Nat.pow 2 64 then some value.toNat else none
  | _ => none

/-! ### Sections and lists -/

/-- The items of a list. -/
def list? : Document → Option (List Document)
  | .list items => some items
  | _ => none

/-- A list of texts. -/
def texts? (document : Document) : Option (List String) := do
  (← document.list?).mapM text?

/-- The entry under a key, which must not be repeated. -/
def unrepeated? (entries : List (String × Document)) (key : String) : Option (Option Document) :=
  match entries.filter fun entry => entry.1 == key with
  | [] => some none
  | [entry] => some (some entry.2)
  | _ => none

/-- The entries of a section with the given keys, in their order. -/
def section? (format : Format) (keys : List String) : Document → Option (List (Option Document))
  | .table entries => keys.mapM (unrepeated? entries)
  | .list items =>
    if format = .toml || (format = .json && items.length ≤ keys.length) then
      some (keys.zipIdx.map fun (_, i) => items[i]?)
    else none
  | _ => none

end Document

open Document

/-- An entry that has a default. -/
def entryOr {α : Type} (fallback : α) (read : Document → Option α) : Option Document → Option α
  | none => some fallback
  | some document => read document

/-- An entry that may be missing or null. -/
def optionalEntry {α : Type} (read : Document → Option α) : Option Document → Option (Option α)
  | none => some none
  | some document => if document.isNull then some none else (read document).map some

/-- A list of sections that is empty by default. -/
def listEntry {α : Type} (read : Document → Option α) : Option Document → Option (List α)
  | none => some []
  | some document => do (← document.list?).mapM read

/-! ### The sections of a configuration -/

/-- The binding of the adapter. -/
def AdapterSection.decode (format : Format) (document : Document) : Option AdapterSection := do
  match ← document.section? format AdapterSection.outline.keys with
  | [name, backend] =>
    return { name := ← optionalEntry text? name, backend := ← optionalEntry text? backend }
  | _ => none

/-- The limits. -/
def decodeLimits (format : Format) (document : Document) : Option Limits := do
  let base : Limits := {}
  match ← document.section? format limitsOutline.keys with
  | [depth, bytes, predicates, length, clauses] =>
    return {
      maxDepth := ← entryOr base.maxDepth nat? depth
      maxInputBytes := ← entryOr base.maxInputBytes nat? bytes
      maxPredicates := ← entryOr base.maxPredicates nat? predicates
      maxListLength := ← entryOr base.maxListLength nat? length
      maxOrderClauses := ← entryOr base.maxOrderClauses nat? clauses }
  | _ => none

/-- What is logged. -/
def LoggingSection.decode (format : Format) (document : Document) : Option LoggingSection := do
  match ← document.section? format LoggingSection.outline.keys with
  | [level] => return { level := ← entryOr ({} : LoggingSection).level text? level }
  | _ => none

/-- A sort of type: its word, or where the format has tagged values a table that maps the word to
nothing. -/
def TypeSort.decode (format : Format) : Document → Option TypeSort
  | .table [(word, value)] =>
    match format, value with
    | .json, .null => TypeSort.ofWord? word
    | .toml, .list [] | .toml, .table [] => TypeSort.ofWord? word
    | _, _ => none
  | document => document.text?.bind TypeSort.ofWord?

/-- An argument of a field. -/
def ArgumentSection.decode (format : Format) (document : Document) : Option ArgumentSection := do
  match ← document.section? format ArgumentSection.outline.keys with
  | [some name, some type] => return { name := ← name.text?, type := ← type.text? }
  | _ => none

/-- A field. -/
def FieldSection.decode (format : Format) (document : Document) : Option FieldSection := do
  match ← document.section? format FieldSection.outline.keys with
  | [some name, type, kind, column, filterable, sortable, args] =>
    return {
      name := ← name.text?
      type := ← optionalEntry text? type
      kind := ← optionalEntry text? kind
      column := ← optionalEntry text? column
      filterable := ← optionalEntry bool? filterable
      sortable := ← optionalEntry bool? sortable
      args := ← listEntry (ArgumentSection.decode format) args }
  | _ => none

/-- A type. -/
def TypeSection.decode (format : Format) (document : Document) : Option TypeSection := do
  match ← document.section? format TypeSection.outline.keys with
  | [some name, sort, interfaces, members, fields] =>
    return {
      name := ← name.text?
      sort := ← entryOr .object (TypeSort.decode format) sort
      interfaces := ← entryOr [] texts? interfaces
      members := ← entryOr [] texts? members
      fields := ← listEntry (FieldSection.decode format) fields }
  | _ => none

/-- An enum. -/
def EnumSection.decode (format : Format) (document : Document) : Option EnumSection := do
  match ← document.section? format EnumSection.outline.keys with
  | [some name, values, operators] =>
    return {
      name := ← name.text?
      values := ← entryOr [] texts? values
      operators := ← entryOr [] texts? operators }
  | _ => none

/-- The declarations. -/
def SchemaSection.decode (format : Format) (document : Document) : Option SchemaSection := do
  match ← document.section? format SchemaSection.outline.keys with
  | [roots, types, enums] =>
    return {
      roots := ← entryOr [] texts? roots
      types := ← listEntry (TypeSection.decode format) types
      enums := ← listEntry (EnumSection.decode format) enums }
  | _ => none

/-- The configuration that a document describes. -/
def decode (format : Format) (document : Document) : Option Config := do
  match ← document.section? format outline.keys with
  | [adapter, limits, logging, schema] =>
    return {
      adapter := ← entryOr {} (AdapterSection.decode format) adapter
      limits := ← entryOr {} (decodeLimits format) limits
      logging := ← entryOr {} (LoggingSection.decode format) logging
      schema := ← entryOr {} (SchemaSection.decode format) schema }
  | _ => none

end Criteria.Config
