import AdditiveSchema.Dialect.Generate
import AdditiveSchema.Warning

/-!
# Actions

An action creates one item: a table with all it owns, or one more part of an existing table. A
plan is a row of actions with the warnings that go with it.
-/

namespace AdditiveSchema

/-- One creation. -/
inductive Action where
  /-- A table with its constraints and indices. -/
  | createTable (table : Table)
  /-- A column of an existing table. -/
  | createColumn (table : QualifiedName) (column : Column)
  /-- A constraint of an existing table. -/
  | createConstraint (table : QualifiedName) (constraint : TableConstraint)
  /-- An index of an existing table. -/
  | createIndex (table : QualifiedName) (index : Index)
  /-- A foreign key that the creation of its table left out. -/
  | addForeignKey (table : QualifiedName) (column : String) (foreignKey : ForeignKey)
  deriving DecidableEq, Repr

namespace Action

/-- The table that the action creates or changes. -/
def table : Action → QualifiedName
  | .createTable t => t.qualifiedName
  | .createColumn table _ => table
  | .createConstraint table _ => table
  | .createIndex table _ => table
  | .addForeignKey table _ _ => table

/-- The action in words. -/
def message : Action → String
  | .createTable t => "create table " ++ t.qualifiedName.toString
  | .createColumn table c => "create column " ++ table.toString ++ "." ++ c.name
  | .createConstraint table c => "create constraint " ++ c.name ++ " on " ++ table.toString
  | .createIndex table i => "create index " ++ i.name ++ " on " ++ table.toString
  | .addForeignKey table column fk =>
    "add foreign key " ++ table.toString ++ "." ++ column ++ " -> " ++ fk.table.toString ++ "." ++
      fk.column

/-- The statements of the action. -/
def statements (d : Dialect) : Action → Except GenerateError (List Statement)
  | .createTable t => d.createTable t
  | .createColumn table c => (d.createColumn table c).map ([·])
  | .createConstraint table c => (d.createConstraint table c).map ([·])
  | .createIndex table i => (d.createIndex table i).map ([·])
  | .addForeignKey table column fk => (d.addForeignKey table column fk).map ([·])

end Action

/-- The actions that bring a database up to its declaration, in order. -/
structure Plan where
  actions : List Action := []
  /-- What was found while the schema was built, then what was found while it was compared. -/
  warnings : List Warning := []
  deriving DecidableEq, Repr

namespace Plan

/-- Nothing is missing. -/
def isEmpty (p : Plan) : Bool :=
  p.actions.isEmpty

/-- The statements of all actions, in order. -/
def statements (d : Dialect) (p : Plan) : Except GenerateError (List Statement) :=
  (p.actions.mapM (Action.statements d)).map List.flatten

end Plan

end AdditiveSchema
