import Criteria.Config.Basic

/-!
# A sample configuration

A small configuration to try things with: a query leads to users, a user has posts, and the status
of a user is an enum. It has an input and an enum type beside the entities, fields without a kind,
and an argument.
-/

namespace Criteria.Config

/-- A field with a kind. -/
def FieldSection.ofKind (name type kind : String) : FieldSection :=
  { name, type := some type, kind := some kind }

/-- A field that leads to another type. -/
def FieldSection.link (name type : String) (args : List ArgumentSection) : FieldSection :=
  { name, type := some type, args }

/-- Queries, users with a filter on them, their posts and their status. -/
def sample : Config where
  schema := {
    roots := ["Query"]
    types := [
      { name := "Query", fields := [.link "users" "User" [⟨"filter", "UserFilter"⟩]] },
      { name := "UserFilter", sort := .input },
      { name := "User"
        fields := [
          .ofKind "id" "ID" "id",
          .ofKind "name" "String" "string",
          .ofKind "age" "Int" "integer",
          .ofKind "status" "Status" "enum:Status",
          .link "posts" "Post" []] },
      { name := "Post", fields := [.ofKind "id" "ID" "id", .ofKind "title" "String" "string"] },
      { name := "Status", sort := .enum }]
    enums := [{ name := "Status", values := ["active", "inactive", "banned"] }] }

end Criteria.Config
