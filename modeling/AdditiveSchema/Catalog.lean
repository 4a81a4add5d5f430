import AdditiveSchema.View

/-!
# Catalogs

The tables of a database, in the order of their names and at most one of each name. A table is
brought to its normal form when it is inserted: schemas are filled in and keys over one column
become flags.
-/

namespace AdditiveSchema

/-- The tables of a database and the schema that stands for an empty one. -/
structure Catalog where
  defaultSchema : String := ""
  /-- The tables, in the order of their names. -/
  tables : List Table := []
  deriving DecidableEq, Repr, Inhabited

namespace Catalog

/-- The form in which a catalog holds a table. -/
def normalize (defaultSchema : String) (t : Table) : Table :=
  (t.resolve defaultSchema).foldKeys

/-- Adds a table in its normal form. A table of the same name gives way. -/
def insert (c : Catalog) (t : Table) : Catalog :=
  { c with
    tables := Keyed.insert Table.qualifiedName (normalize c.defaultSchema t) c.tables }

/-- The catalog of the tables, inserted one after the other. -/
def ofTables (defaultSchema : String) (tables : List Table) : Catalog :=
  tables.foldl insert { defaultSchema }

/-- The table of that name. An empty schema stands for the default. -/
def table? (c : Catalog) (name : QualifiedName) : Option Table :=
  Keyed.find? Table.qualifiedName (name.resolve c.defaultSchema) c.tables

/-- The table of that name, which must be there. -/
def require (c : Catalog) (name : QualifiedName) : Except ReadError Table :=
  match c.table? name with
  | some t => .ok t
  | none => .error (.missing (name.resolve c.defaultSchema))

/-- The names of the tables, in order. -/
def names (c : Catalog) : List QualifiedName :=
  c.tables.map Table.qualifiedName

/-- What a comparison reads of the catalog. -/
def view (c : Catalog) : View :=
  .ofLookup c.defaultSchema c.names c.require

end Catalog

end AdditiveSchema
