import AdditiveSchema.Dialect.MySql
import AdditiveSchema.Dialect.Postgres
import AdditiveSchema.Dialect.Sqlite

/-!
# Generating statements

One function for each kind of item that can be created, over all dialects.
-/

namespace AdditiveSchema.Dialect

/-- The definition of a column, as it stands in a table or is added to one. -/
def columnDefinition (d : Dialect) (table : QualifiedName) (c : Column) :
    Except GenerateError String :=
  match d with
  | .postgres => Postgres.columnDefinition table c
  | .mysql => MySql.columnDefinition table c
  | .sqlite => Sqlite.columnDefinition table c

/-- The statement that creates an index. -/
def createIndex (d : Dialect) (table : QualifiedName) (i : Index) :
    Except GenerateError Statement :=
  match d with
  | .postgres => Standard.createIndex .postgres table i
  | .mysql => MySql.createIndex table i
  | .sqlite => Sqlite.createIndex table i

/-- The statements that create a table with its indices. -/
def createTable (d : Dialect) (t : Table) : Except GenerateError (List Statement) :=
  match d with
  | .sqlite => Sqlite.createTable t
  | d => Standard.createTable d (d.columnDefinition t.qualifiedName)
      (d.createIndex t.qualifiedName) t

/-- The statement that adds a column to a table. -/
def createColumn (d : Dialect) (table : QualifiedName) (c : Column) :
    Except GenerateError Statement :=
  match d with
  | .sqlite => Sqlite.createColumn table c
  | d => Standard.createColumn d (d.columnDefinition table c) table c

/-- The statement that adds a constraint to a table. -/
def createConstraint (d : Dialect) (table : QualifiedName) (c : TableConstraint) :
    Except GenerateError Statement :=
  match d with
  | .sqlite => Sqlite.createConstraint table c
  | d => Standard.createConstraint d table c

/-- The statement that adds a foreign key to a column. -/
def addForeignKey (d : Dialect) (table : QualifiedName) (column : String) (fk : ForeignKey) :
    Except GenerateError Statement :=
  match d with
  | .sqlite => Sqlite.addForeignKey table column
  | d => Standard.addForeignKey d table column fk

end AdditiveSchema.Dialect
