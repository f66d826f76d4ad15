import Criteria.Config.Document

/-!
# Growing tables of TOML

The tables of a TOML text grow while it is read: headers open tables and elements of lists of
tables, assignments with dotted keys create tables on their way, and nothing may be defined twice.
A `Branch` is a table under construction together with how it came to be, which decides what may
still be added to it.

* `assign` sets the value under a dotted key;
* `openTable` and `openElement` open what a header names;
* `Branch.document` is the finished document.
-/

namespace Criteria.Config.Toml

/-- How a table came to be. -/
inductive Origin where
  /-- On the way to a table with a header of its own. -/
  | passage
  /-- On the way of a dotted key. -/
  | dotted
  /-- By its own header. -/
  | header
deriving DecidableEq, Repr

/-- A value or a table under construction. -/
inductive Branch where
  /-- A finished value. -/
  | value (document : Document)
  /-- A table. -/
  | table (origin : Origin) (entries : List (String × Branch))
  /-- A list of tables, the last of which is under construction. -/
  | tables (elements : List (List (String × Branch)))
deriving Inhabited

/-- The entries of a table under construction. -/
abbrev Entries := List (String × Branch)

/-- Replaces the branch under a key, or adds it. -/
def put (key : String) (branch : Branch) : Entries → Entries
  | [] => [(key, branch)]
  | (k, b) :: rest => if k = key then (k, branch) :: rest else (k, b) :: put key branch rest

/-- Changes the entries of the last element of a list of tables. -/
def changeLast (change : Entries → Option Entries) : List Entries → Option (List Entries)
  | [] => none
  | [element] => (change element).map fun e => [e]
  | element :: rest => (changeLast change rest).map (element :: ·)

/-- Changes the entries of the table under a key on the way of a dotted key: a table without a
header of its own, or the last element of a list of tables. The table that receives the value must
have come by dotted keys alone. -/
def throughDotted (key : String) (receives : Bool) (change : Entries → Option Entries)
    (entries : Entries) : Option Entries :=
  match entries.lookup key with
  | none => (change []).map fun inner => put key (.table .dotted inner) entries
  | some (.table .dotted inner) =>
    (change inner).map fun inner => put key (.table .dotted inner) entries
  | some (.table .passage inner) =>
    if receives then none
    else (change inner).map fun inner => put key (.table .passage inner) entries
  | some (.tables elements) =>
    if receives then none
    else (changeLast change elements).map fun elements => put key (.tables elements) entries
  | some (.table .header _) | some (.value _) => none

/-- Sets the value under a dotted key. -/
def assign (document : Document) : List String → Entries → Option Entries
  | [], _ => none
  | [key], entries =>
    match entries.lookup key with
    | none => some (put key (.value document) entries)
    | some _ => none
  | key :: keys, entries => throughDotted key (keys.length = 1) (assign document keys) entries

/-- Changes the entries of the table under a key on the way of a header: any table, or the last
element of a list of tables. -/
def throughHeader (key : String) (change : Entries → Option Entries) (entries : Entries) :
    Option Entries :=
  match entries.lookup key with
  | none => (change []).map fun inner => put key (.table .passage inner) entries
  | some (.table origin inner) =>
    (change inner).map fun inner => put key (.table origin inner) entries
  | some (.tables elements) =>
    (changeLast change elements).map fun elements => put key (.tables elements) entries
  | some (.value _) => none

/-- Goes to the table that a path leads to and changes its entries. -/
def changeAt (change : Entries → Option Entries) : List String → Entries → Option Entries
  | [], entries => change entries
  | key :: keys, entries => throughHeader key (changeAt change keys) entries

/-- Opens the table under a key. It must be new, or have been passed through only. -/
def openTable (key : String) (entries : Entries) : Option Entries :=
  match entries.lookup key with
  | none => some (put key (.table .header []) entries)
  | some (.table .passage inner) => some (put key (.table .header inner) entries)
  | some _ => none

/-- Adds an element to the list of tables under a key. -/
def openElement (key : String) (entries : Entries) : Option Entries :=
  match entries.lookup key with
  | none => some (put key (.tables [[]]) entries)
  | some (.tables elements) => some (put key (.tables (elements ++ [[]])) entries)
  | some _ => none

mutual

/-- The document of a branch. -/
def Branch.document : Branch → Document
  | .value document => document
  | .table _ entries => .table (documents entries)
  | .tables elements => .list (tableDocuments elements)

/-- The entries of a table as documents. -/
def documents : List (String × Branch) → List (String × Document)
  | [] => []
  | (key, branch) :: rest => (key, branch.document) :: documents rest

/-- The elements of a list of tables as documents. -/
def tableDocuments : List (List (String × Branch)) → List Document
  | [] => []
  | entries :: rest => .table (documents entries) :: tableDocuments rest

end

end Criteria.Config.Toml
