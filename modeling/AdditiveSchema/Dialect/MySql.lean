import AdditiveSchema.Dialect.Statement

/-!
# MySQL

MySQL has its own definition of a column, writes foreign keys as constraints of the table, and
has no index over a part of the rows or with columns beside its keys.
-/

namespace AdditiveSchema.MySql

/-- The word that says whether the values of a generated column are stored. -/
def storage (g : Generated) : String :=
  if g.stored then "STORED" else "VIRTUAL"

/-- The definition of a column. -/
def columnDefinition (table : QualifiedName) (c : Column) : Except GenerateError String := do
  let increment ← match c.autoincrement with
    | .none => .ok ""
    | .autoIncrement => .ok " AUTO_INCREMENT"
    | other => .error (.unsupported .mysql (other.name ++ " autoincrement")
        (table.toString ++ "." ++ c.name))
  return Dialect.mysql.quote c.name ++ " " ++ c.columnType ++
    Dialect.clauseOf (" COLLATE " ++ ·) c.collation ++
    Dialect.clauseOf (fun g => " GENERATED ALWAYS AS (" ++ g.expr ++ ") " ++ storage g)
      c.generated ++
    Dialect.clause (c.notNull || c.primaryKey) " NOT NULL" ++
    Dialect.clauseOf (fun e => " DEFAULT " ++ Dialect.mysql.renderDefault e) c.default ++
    Dialect.clause c.onUpdateCurrentTimestamp " ON UPDATE CURRENT_TIMESTAMP" ++
    increment ++
    Dialect.clause c.primaryKey " PRIMARY KEY" ++
    Dialect.clause (!c.primaryKey && c.unique) " UNIQUE"

/-- The word in front of an index and the method behind its name. -/
def indexForm (i : Index) : Except GenerateError (String × String) :=
  match i.indexType with
  | .btree => .ok (Dialect.clause i.unique "UNIQUE ", "")
  | .hash => .ok (Dialect.clause i.unique "UNIQUE ", " USING HASH")
  | .fullText => .ok ("FULLTEXT ", "")
  | .spatial => .ok ("SPATIAL ", "")
  | other => .error (.unsupported .mysql (other.sql ++ " indices") i.name)

/-- The statement for an index. -/
def createIndex (table : QualifiedName) (i : Index) : Except GenerateError Statement := do
  if i.isPartial || i.whereExpr.isSome then throw (.unsupported .mysql "partial indices" i.name)
  if !i.carried.isEmpty then throw (.unsupported .mysql "INCLUDE columns" i.name)
  let (word, method) ← indexForm i
  return { sql := "CREATE " ++ word ++ "INDEX " ++ Dialect.mysql.quote i.name ++ method ++
    " ON " ++ Dialect.mysql.quoteName table ++ " (" ++ Dialect.mysql.indexKeys i ++ ")" }

end AdditiveSchema.MySql
