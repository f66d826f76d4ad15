import Criteria.Catalog
import Criteria.Kind
import Criteria.Text.Split

/-!
# Schemas

A schema declares entities and their fields. A field has a name for clients, a native reference
for the backend (`users.age`, a dotted path), and a kind, and it may or may not be used to filter
and to order by.

`Schema.build` checks a list of declarations. Names must be identifiers and must not repeat, the
parts of native references must be native names, and no enum field may use a reserved name. It
reports the first fault in the order of declaration; a schema, once built, has none.
-/

namespace Criteria

/-- A declared field. -/
structure Field where
  /-- The name clients use. -/
  name : String
  /-- The dotted path of the field in the backend. -/
  reference : String
  /-- The kind of the field. -/
  kind : Kind
  /-- Whether clients may filter by the field. -/
  filterable : Bool
  /-- Whether clients may order by the field. -/
  sortable : Bool
deriving DecidableEq, Repr

/-- An entity with its fields in declaration order. -/
structure Entity where
  /-- The name of the entity. -/
  name : String
  /-- Its fields. -/
  fields : List Field
deriving DecidableEq, Repr

/-- Entities that passed the checks of `Schema.build`. -/
structure Schema where
  /-- The entities under their names. -/
  entities : Catalog Entity

namespace Field

/-- A field with the defaults of its kind: filterable, and its reference is its name. -/
def declare (name : String) (kind : Kind) : Field :=
  ⟨name, name, kind, true, kind.sortableByDefault⟩

/-- The parts of the native reference. -/
def segments (field : Field) : List (List Char) := Text.split '.' field.reference.toList

end Field

namespace Entity

/-- The field with a name. -/
def field? (entity : Entity) (name : String) : Option Field :=
  entity.fields.find? fun field => field.name == name

/-- The fields clients may filter by. -/
def filterable (entity : Entity) : List Field := entity.fields.filter Field.filterable

/-- The fields clients may order by. -/
def sortable (entity : Entity) : List Field := entity.fields.filter Field.sortable

end Entity

namespace Schema

/-! ### Names -/

/-- An ASCII letter or an underscore. -/
def isNameStart (c : Char) : Bool := c.isAlpha || c = '_'

/-- A name that starts with a letter or an underscore and goes on with characters of a class. -/
def isName (further : Char → Bool) : List Char → Bool
  | [] => false
  | c :: rest => isNameStart c && rest.all further

/-- A name that clients may use: ASCII letters, digits and underscores, no digit first. -/
def isIdentifier (name : String) : Bool :=
  isName (fun c => c.isAlphanum || c = '_') name.toList

/-- A part of a native reference, which may also hold dollar signs. -/
def isNativeName (part : List Char) : Bool :=
  isName (fun c => c.isAlphanum || c = '_' || c = '$') part

/-! ### Building -/

/-- Checks one field, given the names of the fields before it. -/
def checkField (entity : String) (seen : List String) (field : Field) :
    Except DeclarationError Unit := do
  unless isIdentifier field.name do throw (.invalidIdentifier field.name)
  unless field.segments.all isNativeName do
    throw (.invalidNativeReference field.name field.reference)
  if let .enum name := field.kind then
    if Kind.isReserved name then throw (.reservedEnumName name)
  if seen.contains field.name then throw (.duplicateField entity field.name)

/-- Checks the fields of an entity in turn, given the names of the fields before them. -/
def checkFields (entity : String) (seen : List String) : List Field → Except DeclarationError Unit
  | [] => .ok ()
  | field :: rest => do
    checkField entity seen field
    checkFields entity (field.name :: seen) rest

/-- Adds entities in turn, up to the first that is refused. -/
def addAll (entities : Catalog Entity) : List Entity → Except DeclarationError Schema
  | [] => .ok ⟨entities⟩
  | entity :: rest => do
    unless isIdentifier entity.name do throw (.invalidIdentifier entity.name)
    checkFields entity.name [] entity.fields
    if entities.contains entity.name then throw (.duplicateEntity entity.name)
    addAll (entities.insert entity.name entity) rest

/-- The schema of a list of declarations, or the first fault in it. -/
def build (entities : List Entity) : Except DeclarationError Schema := addAll .empty entities

/-- The schema without entities. -/
def empty : Schema := ⟨.empty⟩

instance : Inhabited Schema := ⟨empty⟩

/-! ### Look-up -/

/-- The entity with a name. -/
def entity? (schema : Schema) (name : String) : Option Entity := schema.entities.get? name

/-- Whether an entity is declared. -/
def contains (schema : Schema) (entity : String) : Bool := schema.entities.contains entity

/-- The field of an entity. -/
def field? (schema : Schema) (entity field : String) : Option Field :=
  (schema.entity? entity).bind fun e => e.field? field

end Schema

end Criteria
