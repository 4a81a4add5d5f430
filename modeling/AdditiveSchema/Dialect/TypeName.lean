import AdditiveSchema.Dialect.Basic
import AdditiveSchema.Text.Uppercase

/-!
# Type names

Two spellings of one column type must compare equal. `canonical` settles case and spacing for all
dialects; `normal` then replaces the aliases of one dialect by a common name. Aliases are looked
up for the base of a type, which is what stands before its first parenthesis or bracket.
-/

namespace AdditiveSchema.TypeName

open AdditiveSchema.Text

/-- The characters before which no blank is kept. -/
def closesUp (c : Char) : Bool :=
  c == '(' || c == ')' || c == ',' || c == '['

/-- The characters behind which no blank is kept. -/
def opensUp (c : Char) : Bool :=
  c == '(' || c == ','

/-- Writes the text with every run of blanks as one space, or as none at the ends and around
parentheses and commas. `last` is the character written last, and `gap` tells of blanks since. -/
def spaced (last : Option Char) (gap : Bool) : List Char → List Char
  | [] => []
  | c :: cs =>
    if isBlank c then spaced last true cs
    else
      let space := gap && !closesUp c && last.any fun l => !opensUp l
      if space then ' ' :: c :: spaced (some c) false cs else c :: spaced (some c) false cs

/-- The type in upper case with the least spacing. -/
def canonical (columnType : String) : String :=
  String.ofList (spaced none false (uppercase (trim columnType.toList)))

/-- The text up to the first parenthesis or bracket, without blanks at its end, and the rest. -/
def baseAndRest (cs : List Char) : List Char × List Char :=
  let opens (c : Char) : Bool := c == '(' || c == '['
  match cs.dropWhile (!opens ·) with
  | [] => (cs, [])
  | rest => (trimEnd (cs.takeWhile (!opens ·)), rest)

/-- The aliases of PostgreSQL, each with the name that stands for it. -/
def postgresAliases : List (String × String) :=
  [("INTEGER", "INT"), ("INT4", "INT"), ("SERIAL", "INT"), ("SERIAL4", "INT"),
    ("INT8", "BIGINT"), ("BIGSERIAL", "BIGINT"), ("SERIAL8", "BIGINT"),
    ("INT2", "SMALLINT"), ("SMALLSERIAL", "SMALLINT"), ("SERIAL2", "SMALLINT"),
    ("CHARACTER VARYING", "VARCHAR"),
    ("CHARACTER", "CHAR"), ("BPCHAR", "CHAR"),
    ("BOOL", "BOOLEAN"),
    ("DECIMAL", "NUMERIC"),
    ("FLOAT8", "DOUBLE PRECISION"),
    ("FLOAT4", "REAL"),
    ("TIMESTAMP WITHOUT TIME ZONE", "TIMESTAMP"),
    ("TIMESTAMP WITH TIME ZONE", "TIMESTAMPTZ"),
    ("TIME WITHOUT TIME ZONE", "TIME"),
    ("TIME WITH TIME ZONE", "TIMETZ")]

/-- The aliases of MySQL. -/
def mysqlAliases : List (String × String) :=
  [("BOOL", "BOOLEAN"), ("INTEGER", "INT"), ("NUMERIC", "DECIMAL"),
    ("DOUBLE PRECISION", "DOUBLE"), ("REAL", "DOUBLE")]

/-- The aliases of SQLite. -/
def sqliteAliases : List (String × String) :=
  [("INTEGER", "INT"), ("BOOL", "BOOLEAN")]

/-- The name that stands for all aliases of the base. -/
def unalias (aliases : List (String × String)) (base : String) : String :=
  (aliases.lookup base).getD base

/-- The integer types of MySQL, whose number in parentheses is a display width. -/
def mysqlIntegers : List String :=
  ["TINYINT", "SMALLINT", "MEDIUMINT", "INT", "INTEGER", "BIGINT"]

/-- What stands behind a display width: the text behind the first closing parenthesis. -/
def behindWidth (rest : List Char) : List Char :=
  match rest with
  | '(' :: _ =>
    match splitFirst? ')' rest with
    | some (_, behind) => trimStart behind
    | none => rest
  | _ => rest

/-- The normal form of a canonical type of MySQL. A `TINYINT` of width one is a truth value, and
the widths of all other integers are dropped. -/
def mysqlNormal (cs : List Char) : String :=
  let (baseChars, rest) := baseAndRest cs
  let base := String.ofList baseChars
  if base == "TINYINT" && "(1)".toList.isPrefixOf rest then "BOOLEAN"
  else
    let name := unalias mysqlAliases base
    let rest := if mysqlIntegers.contains name then behindWidth rest else rest
    let gap := !rest.isEmpty && rest.head? != some '('
    name ++ (if gap then " " else "") ++ String.ofList rest

/-- The type with its base replaced by the name that stands for it. -/
def unaliased (aliases : List (String × String)) (cs : List Char) : String :=
  let (base, rest) := baseAndRest cs
  unalias aliases (String.ofList base) ++ String.ofList rest

end AdditiveSchema.TypeName

namespace AdditiveSchema

/-- The spelling of a column type that all its aliases share. -/
def Dialect.normalType (d : Dialect) (columnType : String) : String :=
  let canonical := (TypeName.canonical columnType).toList
  match d with
  | .postgres => TypeName.unaliased TypeName.postgresAliases canonical
  | .mysql => TypeName.mysqlNormal canonical
  | .sqlite => TypeName.unaliased TypeName.sqliteAliases canonical

end AdditiveSchema
