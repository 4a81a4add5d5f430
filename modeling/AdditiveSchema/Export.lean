import AdditiveSchema.Json.Basic
import AdditiveSchema.Plan.Action

/-!
# Schemas and plans as JSON

Every record is an object with all its fields in a fixed order; an absent value is `null`. The
variant of an action or a warning stands in its first member.
-/

namespace AdditiveSchema

/-- A name, the schema first. -/
def QualifiedName.toJson (n : QualifiedName) : Json :=
  .object [("schema", .string n.schema), ("name", .string n.name)]

/-- A generating expression. -/
def Generated.toJson (g : Generated) : Json :=
  .object [("expr", .string g.expr), ("stored", .bool g.stored)]

/-- A foreign key. -/
def ForeignKey.toJson (fk : ForeignKey) : Json :=
  .object
    [("table", fk.table.toJson),
      ("column", .string fk.column),
      ("on_update", .ofOption (fun a => .string a.name) fk.onUpdate),
      ("on_delete", .ofOption (fun a => .string a.name) fk.onDelete)]

/-- A column. -/
def Column.toJson (c : Column) : Json :=
  .object
    [("name", .string c.name),
      ("column_type", .string c.columnType),
      ("kind", .ofOption (fun k => .string k.name) c.kind),
      ("not_null", .bool c.notNull),
      ("primary_key", .bool c.primaryKey),
      ("unique", .bool c.unique),
      ("autoincrement", .string c.autoincrement.name),
      ("default", .ofOption .string c.default),
      ("generated", .ofOption Generated.toJson c.generated),
      ("collation", .ofOption .string c.collation),
      ("references", .ofOption ForeignKey.toJson c.references),
      ("on_update_current_timestamp", .bool c.onUpdateCurrentTimestamp)]

/-- A constraint. -/
def TableConstraint.toJson (c : TableConstraint) : Json :=
  .object
    [("name", .string c.name),
      ("kind", .string c.kind.name),
      ("columns", .strings c.columns),
      ("check_expr", .ofOption .string c.checkExpr)]

/-- An index. -/
def Index.toJson (i : Index) : Json :=
  .object
    [("schema", .string i.schema),
      ("name", .string i.name),
      ("index_type", .string i.indexType.name),
      ("unique", .bool i.unique),
      ("partial", .bool i.isPartial),
      ("where_expr", .ofOption .string i.whereExpr),
      ("columns", .strings i.columns),
      ("exprs", .strings i.exprs),
      ("include", .strings i.carried)]

/-- A table with all it owns. -/
def Table.toJson (t : Table) : Json :=
  .object
    [("schema", .string t.schema),
      ("name", .string t.name),
      ("columns", .array (t.columns.map Column.toJson)),
      ("constraints", .array (t.constraints.map TableConstraint.toJson)),
      ("indices", .array (t.indices.map Index.toJson)),
      ("fts5", .ofOption .string t.fts5)]

/-- A warning. -/
def Warning.toJson : Warning → Json
  | .unknownModifier field modifier =>
    .object [("kind", .string "unknown_modifier"), ("field", .string field),
      ("modifier", .string modifier)]
  | .schemaDrift table column detail =>
    .object [("kind", .string "schema_drift"), ("table", table.toJson),
      ("column", .string column), ("detail", .string detail)]
  | .deferredForeignKey table column references =>
    .object [("kind", .string "deferred_foreign_key"), ("table", table.toJson),
      ("column", .string column), ("references", references.toJson)]
  | .unsupported table detail =>
    .object [("kind", .string "unsupported"), ("table", table.toJson),
      ("detail", .string detail)]

/-- An action. -/
def Action.toJson : Action → Json
  | .createTable t => .object [("action", .string "create_table"), ("table", t.toJson)]
  | .createColumn table column =>
    .object [("action", .string "create_column"), ("table", table.toJson),
      ("column", column.toJson)]
  | .createConstraint table constraint =>
    .object [("action", .string "create_constraint"), ("table", table.toJson),
      ("constraint", constraint.toJson)]
  | .createIndex table index =>
    .object [("action", .string "create_index"), ("table", table.toJson), ("index", index.toJson)]
  | .addForeignKey table column fk =>
    .object [("action", .string "add_foreign_key"), ("table", table.toJson),
      ("column", .string column), ("foreign_key", fk.toJson)]

/-- A plan. -/
def Plan.toJson (p : Plan) : Json :=
  .object [("actions", .array (p.actions.map Action.toJson)),
    ("warnings", .array (p.warnings.map Warning.toJson))]

end AdditiveSchema
