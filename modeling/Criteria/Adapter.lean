import Criteria.DeclarationError
import Criteria.Text.Blank
import Criteria.Text.Split

/-!
# Adapters

An adapter is the backend that criteria are compiled for: a SQL dialect or a search index. An
engine is bound to one of them. The adapter may be named, or inferred from the name of a storage
backend such as a driver or a server product.
-/

namespace Criteria

/-- A SQL dialect. -/
inductive Dialect where
  | postgres
  | mysql
  | sqlite
  | mssql
deriving DecidableEq, Repr, Inhabited

/-- A backend that criteria are compiled for. -/
inductive Adapter where
  /-- A relational database. -/
  | sql (dialect : Dialect)
  /-- A search index that takes query documents. -/
  | search
deriving DecidableEq, Repr

instance : Inhabited Adapter := ⟨.sql .postgres⟩

namespace Adapter

/-- The name of an adapter. -/
def name : Adapter → String
  | .sql .postgres => "postgres"
  | .sql .mysql => "mysql"
  | .sql .sqlite => "sqlite"
  | .sql .mssql => "mssql"
  | .search => "search"

/-- Whether the adapter is a relational database. -/
def isSql : Adapter → Bool
  | .sql _ => true
  | .search => false

/-- The adapter with a name in lower case. -/
def ofWord? : String → Option Adapter
  | "postgres" | "postgresql" | "pg" => some (.sql .postgres)
  | "mysql" | "mariadb" => some (.sql .mysql)
  | "sqlite" | "sqlite3" => some (.sql .sqlite)
  | "mssql" | "sqlserver" => some (.sql .mssql)
  | "search" | "elasticsearch" | "opensearch" => some .search
  | _ => none

/-- Reads the name of an adapter, with blanks around it and in any letter case. -/
def read (text : String) : Except DeclarationError Adapter :=
  match ofWord? (Text.lower (Text.trim text)) with
  | some adapter => .ok adapter
  | none => .error (.unknownAdapter text)

/-- Names of backends and the adapter each stands for, in order of precedence. -/
def backendNames : List (List String × Adapter) :=
  [(["postgres", "pgsql", "cockroach"], .sql .postgres),
   (["mysql", "mariadb", "myxql"], .sql .mysql),
   (["sqlite"], .sql .sqlite),
   (["mssql", "sqlserver", "sql_server", "tds"], .sql .mssql),
   (["elasticsearch", "opensearch", "search"], .search)]

/-- The adapter of a storage backend: the first one of whose names occurs in it, and the first
adapter also for the bare abbreviation `pg`. -/
def ofBackend? (backend : String) : Option Adapter :=
  let text := Text.lower backend
  if text = "pg" then some (.sql .postgres)
  else
    (backendNames.find? fun entry =>
      entry.1.any fun name => Text.occursIn name.toList text.toList).map Prod.snd

/-- The adapter to bind to. A given name must be known. Without one the backend decides, and an
unknown or missing backend means the default adapter. -/
def resolve (explicit backend : Option String) : Except DeclarationError Adapter :=
  match explicit with
  | some name => read name
  | none => .ok ((backend.bind ofBackend?).getD default)

end Adapter

end Criteria
