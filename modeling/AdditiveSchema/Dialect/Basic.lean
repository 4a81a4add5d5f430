import AdditiveSchema.Kind
import AdditiveSchema.Text.Basic

/-!
# Dialects

The databases that a schema can be declared for, and how the dialect is found from its name or
from the address of a database.
-/

namespace AdditiveSchema

/-- A database whose statements are generated. -/
inductive Dialect where
  | postgres
  | mysql
  | sqlite
  deriving DecidableEq, Repr, Inhabited

namespace Dialect

/-- All dialects. -/
def all : List Dialect := [.postgres, .mysql, .sqlite]

/-- The name of the dialect. -/
def name : Dialect → String
  | .postgres => "postgres"
  | .mysql => "mysql"
  | .sqlite => "sqlite3"

instance : ToString Dialect := ⟨name⟩

/-- The position of the dialect among all. -/
def rank : Dialect → Nat
  | .postgres => 0
  | .mysql => 1
  | .sqlite => 2

/-- Dialects are ordered as they are listed. -/
instance : Ord Dialect where
  compare := compareOn rank

/-- The dialect of that exact name. -/
def ofName? (s : String) : Option Dialect :=
  (all.map fun d => (d.name, d)).lookup s

/-- The dialect of a name in any case. Two dialects have a second name. -/
def read (s : String) : Except UnknownWord Dialect :=
  let lower := Text.asciiLower s
  readWordOf "dialect" ((all.map fun d => (d.name, d)) ++
    [("postgresql", .postgres), ("sqlite", .sqlite)]) lower lower

/-- The names that stand before the first colon of a database address. -/
def schemes : List (String × Dialect) :=
  [("postgres", .postgres), ("postgresql", .postgres), ("mysql", .mysql), ("mariadb", .mysql),
    ("sqlite", .sqlite), ("sqlite3", .sqlite)]

/-- The dialect of a database address, by what stands before its first colon in any case. -/
def ofUrl? (url : String) : Option Dialect :=
  schemes.lookup (Text.asciiLower (String.ofList (url.toList.takeWhile (· != ':'))))

/-- The column type of a field that declares none. Expressions have no such type. -/
def defaultType : Dialect → FieldKind → String
  | .postgres, .blob => "BYTEA"
  | .postgres, .boolean => "BOOLEAN"
  | .postgres, .json => "JSONB"
  | .postgres, .number => "INT"
  | .postgres, .string => "TEXT"
  | .postgres, .time => "TIMESTAMPTZ"
  | .mysql, .blob => "LONGBLOB"
  | .mysql, .boolean => "BOOLEAN"
  | .mysql, .json => "JSON"
  | .mysql, .number => "INT"
  | .mysql, .string => "VARCHAR(255)"
  | .mysql, .time => "DATETIME"
  | .sqlite, .blob => "BLOB"
  | .sqlite, .boolean => "BOOLEAN"
  | .sqlite, .json => "JSON"
  | .sqlite, .number => "INT"
  | .sqlite, .string => "TEXT"
  | .sqlite, .time => "DATETIME"
  | _, .expr => ""

/-- The mode that a bare `autoincrement` stands for. -/
def nativeAutoincrement : Dialect → Autoincrement
  | .postgres => .identity
  | .mysql => .autoIncrement
  | .sqlite => .rowid

/-- A table may reference a table that is created after it. -/
def allowsForwardReferences (d : Dialect) : Bool :=
  d == .sqlite

/-- Foreign keys are written on their column and not as constraints of the table. -/
def inlinesReferences (d : Dialect) : Bool :=
  d != .mysql

end Dialect

end AdditiveSchema
