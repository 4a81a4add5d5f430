import AdditiveSchema.Run.Outcome

/-!
# Loading a declared schema

A schema file is read, its table definitions are decoded, and the schema is built for one dialect.
Each of the three steps has its own error.
-/

namespace AdditiveSchema

/-- The content of a file as text. -/
def decodeText (bytes : ByteArray) : Except FileError String :=
  match String.fromUTF8? bytes with
  | some text => .ok text
  | none => .error .notText

namespace SchemaFile

/-- The table definitions in a file of that name and content. -/
def load (path : String) (content : Except FileError String) :
    Except RunError (List TableDef) := do
  let text ← content.mapError .file
  (parse text).mapError (.schemaFile path)

end SchemaFile

/-- The schema that definitions declare for the dialect. -/
def DeclaredSchema.load (d : Dialect) (policy : ModifierPolicy) (definitions : List TableDef) :
    Except RunError DeclaredSchema :=
  (DeclaredSchema.build d policy definitions).mapError .schema

end AdditiveSchema
