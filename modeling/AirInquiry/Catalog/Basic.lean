import AirInquiry.Json.Basic

/-!
# Tables and their fields

A catalog lists the tables that questions are answered from, by increasing name and each name once.
A field holds a value of its own, one row of another table, or a list of rows of another table.
-/

set_option autoImplicit false
set_option relaxedAutoImplicit false

namespace AirInquiry

/-- What a field holds. -/
inductive FieldContent where
  | scalar
  | object (target : String)
  | list (target : String)
  deriving DecidableEq, Repr

/-- A field of a table. -/
structure TableField where
  name : String
  description : String
  kind : FieldContent
  deriving DecidableEq, Repr

/-- A table. -/
structure Table where
  name : String
  description : String
  fields : List TableField
  deriving DecidableEq, Repr

/-- The known tables. -/
structure Catalog where
  tables : List Table
  deriving DecidableEq, Repr

namespace Catalog

/-- A list of tables with one more, which takes the place of a table of the same name. -/
def insert (table : Table) : List Table → List Table
  | [] => [table]
  | other :: rest =>
    if table.name < other.name then table :: other :: rest
    else if table.name = other.name then table :: rest
    else other :: insert table rest

/-- The catalog of the given tables; of two tables of one name the later one stays. -/
def ofTables (tables : List Table) : Catalog :=
  ⟨tables.foldl (fun known table ↦ insert table known) []⟩

/-- The table of a name. -/
def get? (catalog : Catalog) (name : String) : Option Table :=
  catalog.tables.find? fun table ↦ table.name = name

/-- The names of the tables. -/
def names (catalog : Catalog) : List String := catalog.tables.map Table.name

/-- How many relations one path may follow. -/
def relationLimit : Nat := 2

end Catalog

/-- The field that identifies a row. -/
def identifierName : String := "id"

end AirInquiry
