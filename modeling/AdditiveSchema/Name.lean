/-!
# Qualified names

The name of a table or an index, with the schema it lives in. An empty schema stands for the
default schema of the connection.
-/

namespace AdditiveSchema

/-- A name with its schema. -/
structure QualifiedName where
  schema : String := ""
  name : String
  deriving DecidableEq, Repr, Inhabited

namespace QualifiedName

/-- Names are ordered by schema, then by name. -/
instance : Ord QualifiedName where
  compare := compareLex (compareOn schema) (compareOn name)

/-- A schema is given. -/
def isQualified (n : QualifiedName) : Bool :=
  !n.schema.isEmpty

/-- The name with an empty schema replaced by the default. -/
def resolve (defaultSchema : String) (n : QualifiedName) : QualifiedName :=
  if n.schema.isEmpty then { n with schema := defaultSchema } else n

/-- The name as it is shown: the schema and a point in front, if a schema is given. -/
def toString (n : QualifiedName) : String :=
  if n.schema.isEmpty then n.name else n.schema ++ "." ++ n.name

instance : ToString QualifiedName := ⟨toString⟩

instance : Std.TransOrd QualifiedName :=
  inferInstanceAs (Std.TransCmp (compareLex (compareOn schema) (compareOn name)))

instance : Std.LawfulEqOrd QualifiedName where
  eq_of_compare {a b} h := by
    have h : (compare a.schema b.schema).then (compare a.name b.name) = .eq := h
    rw [Ordering.then_eq_eq] at h
    have hs := Std.LawfulEqOrd.eq_of_compare h.1
    have hn := Std.LawfulEqOrd.eq_of_compare h.2
    cases a
    cases b
    simp_all

theorem resolve_resolve (d e : String) (n : QualifiedName) (h : d ≠ "") :
    (n.resolve d).resolve e = n.resolve d := by
  unfold resolve
  by_cases hs : n.schema.isEmpty <;> simp_all

end QualifiedName

end AdditiveSchema
