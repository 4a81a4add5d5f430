import AdditiveSchema.Text.Basic

/-!
# Kinds

The closed sets of words that a declaration or a database uses: the kind of a field, the way a
column generates its values, the action of a foreign key, the kind of a constraint and the method
of an index. Each word has one spelling for output; reading is more generous, and a word that is
not known is reported by `UnknownWord`.
-/

namespace AdditiveSchema

/-- A word that is not in its set: what was expected, and what was found. -/
structure UnknownWord where
  expected : String
  found : String
  deriving DecidableEq, Repr

/-- The wording of an `UnknownWord`. -/
def UnknownWord.message (e : UnknownWord) : String :=
  "unknown " ++ e.expected ++ " '" ++ e.found ++ "'"

/-- The value that a table of spellings gives a word. -/
def readWordOf {α : Type} (expected : String) (table : List (String × α)) (word shown : String) :
    Except UnknownWord α :=
  match table.lookup word with
  | some value => .ok value
  | none => .error ⟨expected, shown⟩

/-- What a declared field holds. The kind picks the column type where none is declared. -/
inductive FieldKind where
  | blob
  | boolean
  | json
  | number
  | string
  | time
  /-- The value of an expression. Such a field must declare its type. -/
  | expr
  deriving DecidableEq, Repr, Inhabited

namespace FieldKind

/-- All kinds. -/
def all : List FieldKind := [.blob, .boolean, .json, .number, .string, .time, .expr]

/-- The name of the kind. -/
def name : FieldKind → String
  | .blob => "blob"
  | .boolean => "boolean"
  | .json => "json"
  | .number => "number"
  | .string => "string"
  | .time => "time"
  | .expr => "expr"

/-- The kind of that exact name. -/
def ofName? (s : String) : Option FieldKind :=
  (all.map fun k => (k.name, k)).lookup s

/-- The kind of that name in any case. -/
def read (s : String) : Except UnknownWord FieldKind :=
  let lower := Text.asciiLower s
  readWordOf "field kind" (all.map fun k => (k.name, k)) lower lower

end FieldKind

/-- How a column generates its own values. -/
inductive Autoincrement where
  | none
  /-- The row number of SQLite, through `INTEGER PRIMARY KEY`. -/
  | rowid
  /-- The row number of SQLite, never used twice. -/
  | rowidAutoincrement
  /-- The identity column of PostgreSQL. -/
  | identity
  /-- The serial types of PostgreSQL. -/
  | serial
  /-- The automatic increment of MySQL. -/
  | autoIncrement
  deriving DecidableEq, Repr, Inhabited

namespace Autoincrement

/-- All modes. -/
def all : List Autoincrement :=
  [.none, .rowid, .rowidAutoincrement, .identity, .serial, .autoIncrement]

/-- The name of the mode. -/
def name : Autoincrement → String
  | .none => "none"
  | .rowid => "rowid"
  | .rowidAutoincrement => "rowid_autoincrement"
  | .identity => "identity"
  | .serial => "serial"
  | .autoIncrement => "auto_increment"

/-- The column generates values. -/
def isEnabled (mode : Autoincrement) : Bool :=
  mode != .none

/-- The mode of that exact name. -/
def ofName? (s : String) : Option Autoincrement :=
  (all.map fun m => (m.name, m)).lookup s

/-- The mode of that name in any case. -/
def read (s : String) : Except UnknownWord Autoincrement :=
  let lower := Text.asciiLower s
  readWordOf "autoincrement mode" (all.map fun m => (m.name, m)) lower lower

end Autoincrement

/-- What a foreign key does when its target changes. -/
inductive ReferentialAction where
  | noAction
  | restrict
  | cascade
  | setNull
  | setDefault
  deriving DecidableEq, Repr, Inhabited

namespace ReferentialAction

/-- All actions. -/
def all : List ReferentialAction := [.noAction, .restrict, .cascade, .setNull, .setDefault]

/-- The words of the action in a statement. -/
def sql : ReferentialAction → String
  | .noAction => "NO ACTION"
  | .restrict => "RESTRICT"
  | .cascade => "CASCADE"
  | .setNull => "SET NULL"
  | .setDefault => "SET DEFAULT"

/-- The name of the action in data. -/
def name : ReferentialAction → String
  | .noAction => "no_action"
  | .restrict => "restrict"
  | .cascade => "cascade"
  | .setNull => "set_null"
  | .setDefault => "set_default"

/-- The name of the action in a directive. -/
def word : ReferentialAction → String
  | .noAction => "noaction"
  | .restrict => "restrict"
  | .cascade => "cascade"
  | .setNull => "setnull"
  | .setDefault => "setdefault"

/-- The action of that exact name in data. -/
def ofName? (s : String) : Option ReferentialAction :=
  (all.map fun a => (a.name, a)).lookup s

/-- The action of that word in any case, with blanks and underscores anywhere. -/
def read (s : String) : Except UnknownWord ReferentialAction :=
  let letters := s.toList.filter fun c => !Text.isBlank c && c != '_'
  let key := Text.asciiLower (String.ofList letters)
  readWordOf "foreign key action" (all.map fun a => (a.word, a)) key s

end ReferentialAction

/-- What a table constraint demands. -/
inductive ConstraintKind where
  | primaryKey
  | unique
  | check
  deriving DecidableEq, Repr, Inhabited

namespace ConstraintKind

/-- The words of the constraint in a statement. -/
def sql : ConstraintKind → String
  | .primaryKey => "PRIMARY KEY"
  | .unique => "UNIQUE"
  | .check => "CHECK"

/-- The name of the kind in data. -/
def name : ConstraintKind → String
  | .primaryKey => "primary_key"
  | .unique => "unique"
  | .check => "check"

/-- The kind of that exact name in data. -/
def ofName? : String → Option ConstraintKind
  | "primary_key" => some .primaryKey
  | "unique" => some .unique
  | "check" => some .check
  | _ => none

end ConstraintKind

/-- The access method of an index. -/
inductive IndexType where
  | btree
  | hash
  | gist
  | spGist
  | gin
  | brin
  | fullText
  | spatial
  deriving DecidableEq, Repr, Inhabited

namespace IndexType

/-- All methods. -/
def all : List IndexType :=
  [.btree, .hash, .gist, .spGist, .gin, .brin, .fullText, .spatial]

/-- The name of the method in a statement. -/
def sql : IndexType → String
  | .btree => "BTREE"
  | .hash => "HASH"
  | .gist => "GIST"
  | .spGist => "SPGIST"
  | .gin => "GIN"
  | .brin => "BRIN"
  | .fullText => "FULLTEXT"
  | .spatial => "SPATIAL"

/-- The name of the method in data. -/
def name (t : IndexType) : String :=
  Text.asciiLower t.sql

/-- The method of that exact name in data. -/
def ofName? (s : String) : Option IndexType :=
  (all.map fun t => (t.name, t)).lookup s

/-- The method of that name in any case. No name is the balanced tree. -/
def read (s : String) : Except UnknownWord IndexType :=
  let upper := Text.asciiUpper s
  readWordOf "index type" (("", .btree) :: all.map fun t => (t.sql, t)) upper upper

end IndexType

end AdditiveSchema
