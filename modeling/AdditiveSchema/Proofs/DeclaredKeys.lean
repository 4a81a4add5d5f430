import AdditiveSchema.Proofs.Declared

/-!
# Keys that a table declares

A table declares keys with the modifiers `unique` and `primarykey` of its own directive. A key over
a single column becomes a flag of that column in the end, unless it is a unique key with a name of
its own. All other keys, and the checks, stay constraints of the table.

## Main definitions

* `TableDef.nameIn`, `TableDef.keys` : the name and the keys that a definition declares.
* `TableConstraint.IsFlag` : a key for which a flag of its column stands.

## Main results

* `Table.neverFolds_iff` : which keys become flags.
* `Table.constraints_foldKeys` : the constraints that stay.
-/

namespace AdditiveSchema

/-! ### What a definition declares -/

/-- The kind of key that a modifier of that name declares. -/
def Declared.KeyKind.ofName? (name : String) : Option KeyKind :=
  match name with
  | "primarykey" => some .primaryKey
  | "unique" => some .unique
  | _ => none

/-- The key that a modifier of the table declares, if it declares one. -/
def Declared.tableKey? (table : String) (m : Directive.Modifier) : Option TableConstraint :=
  match KeyKind.ofName? m.name, Directive.valueAndModifiers m.value with
  | some kind, .ok (label, modifiers) =>
    some (kind.constraint table (label? label) (modifiers.foldlM (applyKeyModifier table) []).value)
  | _, _ => none

namespace TableDef

/-- The modifiers of the directive of the table. -/
def modifiers (declared : TableDef) : List Directive.Modifier :=
  (Directive.modifiers declared.directive).toOption.getD []

/-- The name of the table in the dialect. -/
def nameIn (declared : TableDef) (d : Dialect) : QualifiedName :=
  ⟨declared.schemaIn d, Declared.nameOr declared.name declared.modifiers⟩

/-- The keys that the directive of the table declares. -/
def keys (declared : TableDef) : List TableConstraint :=
  declared.modifiers.filterMap
    (Declared.tableKey? (Declared.nameOr declared.name declared.modifiers))

theorem modifiers_eq {declared : TableDef} {ms : List Directive.Modifier}
    (h : Directive.modifiers declared.directive = .ok ms) : declared.modifiers = ms := by
  rw [modifiers, h]
  rfl

theorem kind_of_mem_keys {declared : TableDef} {k : TableConstraint} (h : k ∈ declared.keys) :
    k.kind = .primaryKey ∨ k.kind = .unique := by
  obtain ⟨m, -, hk⟩ := List.mem_filterMap.mp h
  unfold Declared.tableKey? at hk
  split at hk
  · rename_i kind _ _ _ _
    cases hk
    cases kind
    · exact Or.inl rfl
    · exact Or.inr rfl
  · cases hk

end TableDef

/-! ### Keys that become flags -/

/-- A flag of its only column stands for the key, in a table of that name: the key is a primary key,
or a unique key with a name that a database makes up. -/
def TableConstraint.IsFlag (table : String) (k : TableConstraint) : Prop :=
  ∃ column, k.columns = [column] ∧ (k.kind = .primaryKey ∨
    k.kind = .unique ∧ Table.isGeneratedKeyName table column k.name = true)

instance (table : String) (k : TableConstraint) : Decidable (k.IsFlag table) :=
  match h : k.columns with
  | [column] => decidable_of_iff (k.kind = .primaryKey ∨
      k.kind = .unique ∧ Table.isGeneratedKeyName table column k.name = true) (by
        simp [TableConstraint.IsFlag, h])
  | [] => isFalse (by simp [TableConstraint.IsFlag, h])
  | _ :: _ :: _ => isFalse (by simp [TableConstraint.IsFlag, h])

/-- **Which keys become flags.** The others stay constraints, whatever columns their table has. -/
theorem Table.neverFolds_iff {table : String} {k : TableConstraint} :
    NeverFolds table k ↔ ¬ k.IsFlag table := by
  constructor
  · rintro hnever ⟨column, hcolumns, hkey⟩
    have hnone := hnever [{ name := column }]
    rcases hkey with hkind | ⟨hkind, hname⟩
    · simp [foldsInto?, hcolumns, hkind] at hnone
    · simp [foldsInto?, hcolumns, hkind, hname] at hnone
  · intro hflag columns
    unfold foldsInto?
    split
    · rename_i column hcolumns
      cases hkind : k.kind with
      | primaryKey => exact absurd ⟨column, hcolumns, Or.inl hkind⟩ hflag
      | unique =>
        have hname : isGeneratedKeyName table column k.name = false := Bool.eq_false_iff.mpr
          fun hname => hflag ⟨column, hcolumns, Or.inr ⟨hkind, hname⟩⟩
        simp [hname]
      | check => simp
    · rfl

/-- Keys over own columns become flags just if flags can stand for them. -/
theorem Table.constraints_foldKeys {u : Table} (hown : u.ConstrainsOwnColumns) :
    u.foldKeys.constraints = u.constraints.filter fun k => ¬k.IsFlag u.name := by
  refine List.filter_congr fun k hk => ?_
  rw [Bool.eq_iff_iff, Option.isNone_iff_eq_none, decide_eq_true_iff, ← neverFolds_iff]
  exact ⟨fun hfolds => neverFolds_of_own hfolds (hown k hk), fun hnever => hnever u.columns⟩

end AdditiveSchema
