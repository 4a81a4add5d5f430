import AdditiveSchema.Dialect.Statement
import AdditiveSchema.Dialect.TypeName

/-!
# PostgreSQL

PostgreSQL uses the shared forms. Only the definition of a column is its own: identity columns,
the serial types, and generated columns, which are always stored.
-/

namespace AdditiveSchema.Postgres

/-- The serial type for an integer type. -/
def serialType? (columnType : String) : Option String :=
  [("INT", "SERIAL"), ("INTEGER", "SERIAL"), ("INT4", "SERIAL"),
    ("BIGINT", "BIGSERIAL"), ("INT8", "BIGSERIAL"),
    ("SMALLINT", "SMALLSERIAL"), ("INT2", "SMALLSERIAL")].lookup (TypeName.canonical columnType)

/-- The type of a column with its mode of generating values. -/
def dataType (context : String) (c : Column) : Except GenerateError String :=
  match c.autoincrement with
  | .none | .identity => .ok c.columnType
  | .serial =>
    match serialType? c.columnType with
    | some type => .ok type
    | none => .error (.unsupported .postgres ("SERIAL for type " ++ c.columnType) context)
  | other => .error (.unsupported .postgres (other.name ++ " autoincrement") context)

/-- The definition of a column. -/
def columnDefinition (table : QualifiedName) (c : Column) : Except GenerateError String := do
  let type ← dataType (table.toString ++ "." ++ c.name) c
  return Dialect.postgres.quote c.name ++ " " ++ type ++
    Dialect.clause (c.autoincrement == .identity) " GENERATED BY DEFAULT AS IDENTITY" ++
    Dialect.clauseOf (fun g => " GENERATED ALWAYS AS (" ++ g.expr ++ ") STORED") c.generated ++
    Dialect.clauseOf (fun name => " COLLATE " ++ Dialect.postgres.quote name) c.collation ++
    Dialect.clause c.primaryKey " PRIMARY KEY" ++
    Dialect.clause (!c.primaryKey && c.notNull) " NOT NULL" ++
    Dialect.clause (!c.primaryKey && c.unique) " UNIQUE" ++
    Dialect.clauseOf (fun e => " DEFAULT " ++ Dialect.postgres.renderDefault e) c.default ++
    Dialect.clauseOf (fun fk => " " ++ Dialect.postgres.referencesClause fk) c.references

end AdditiveSchema.Postgres
