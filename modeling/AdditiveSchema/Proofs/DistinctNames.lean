import AdditiveSchema.Except
import AdditiveSchema.Proofs.DeclaredItems
import AdditiveSchema.Proofs.Keyed

/-!
# Names inside of a declared table

A comparison looks up the columns, the constraints and the indices of a table by their names, so
items of one name hide each other: the last of them is all that is seen. Nothing sees to it that the
names are different when a definition is read. They are those that the definition gives or has made
up for it, and so the look-ups find everything just if the definition names everything differently.

## Main definitions

* `Table.NamesAreKeys`, `TableDef.NamesAreKeysIn` : the names of a table and those of a definition.

## Main results

* `TableDef.Declares.namesAreKeys_iff` : the table of one definition.
* `DeclaredSchema.build_namesAreKeys_iff` : the tables of a declared schema, and what is found by
  the names in them.
-/

namespace AdditiveSchema

namespace Table

variable {t : Table}

theorem length_columnsByName_eq_iff :
    t.columnsByName.length = t.columns.length ↔ (t.columns.map (·.name)).Nodup :=
  Keyed.length_ofList_eq_iff

theorem length_constraintsByName_eq_iff :
    t.constraintsByName.length = t.constraints.length ↔ (t.constraints.map (·.name)).Nodup :=
  Keyed.length_ofList_eq_iff

theorem length_indicesByName_eq_iff :
    t.indicesByName.length = t.indices.length ↔ (t.indices.map (·.nameIn t.schema)).Nodup := by
  have hlength : t.indicesByName.length = (t.indices.map fun i => (i.nameIn t.schema, i)).length ↔
      ((t.indices.map fun i => (i.nameIn t.schema, i)).map Prod.fst).Nodup :=
    Keyed.length_ofList_eq_iff
  rwa [List.length_map, List.map_map] at hlength

end Table

/-- Items of the table are told apart by their names, and its columns have names. -/
structure Table.NamesAreKeys (t : Table) : Prop where
  named : "" ∉ t.columns.map (·.name)
  columns : (t.columns.map (·.name)).Nodup
  constraints : (t.constraints.map (·.name)).Nodup
  indices : (t.indices.map (·.name)).Nodup

namespace TableDef

variable {declared : TableDef} {d : Dialect} {t : Table}

/-- What the definition declares is told apart by its names, and the columns have names. -/
structure NamesAreKeysIn (declared : TableDef) (d : Dialect) : Prop where
  named : "" ∉ declared.columnNamesIn d
  columns : (declared.columnNamesIn d).Nodup
  constraints : ((declared.standingConstraintsIn d).map (·.name)).Nodup
  indices : ((declared.indicesIn d).map (·.name)).Nodup

/-- **The names in the table of one definition** are keys just if those of the definition are. -/
theorem Declares.namesAreKeys_iff (h : declared.Declares d t) :
    t.NamesAreKeys ↔ declared.NamesAreKeysIn d := by
  constructor
  · rintro ⟨hnamed, hcolumns, hconstraints, hindices⟩
    rw [h.columns] at hnamed hcolumns
    rw [h.constraints] at hconstraints
    rw [h.indices] at hindices
    exact ⟨hnamed, hcolumns, hconstraints, hindices⟩
  · rintro ⟨hnamed, hcolumns, hconstraints, hindices⟩
    rw [← h.columns] at hnamed hcolumns
    rw [← h.constraints] at hconstraints
    rw [← h.indices] at hindices
    exact ⟨hnamed, hcolumns, hconstraints, hindices⟩

/-- An index of a declared table is looked up by its own name in the schema of the table. -/
theorem Declares.nodup_nameIn_indices_iff (h : declared.Declares d t) :
    (t.indices.map (·.nameIn t.schema)).Nodup ↔ (t.indices.map (·.name)).Nodup := by
  have hnameIn : t.indices.map (·.nameIn t.schema) =
      (t.indices.map (·.name)).map (QualifiedName.mk t.schema) := by
    rw [List.map_map]
    refine List.map_congr_left fun i hi => ?_
    have hschema : i.schema = "" := schema_of_mem_indicesIn (h.indices ▸ hi)
    simp [Index.nameIn, Index.qualifiedName, QualifiedName.resolve, hschema]
  rw [hnameIn, List.nodup_map_iff]
  intro name name' heq
  exact (QualifiedName.mk.injEq .. ▸ heq).2

end TableDef

namespace DeclaredSchema

variable {d : Dialect} {policy : ModifierPolicy} {definitions : List TableDef} {s : DeclaredSchema}
  {t : Table}

/-- A declared table is found by its name. -/
theorem require_eq_of_build (h : build d policy definitions = .ok s) (ht : t ∈ s.tables) :
    s.require t.qualifiedName = .ok t := by
  rw [require, table?, find?_key_eq_some (nodup_names_of_build h) ht]

/-- **The names inside of declared tables.** The names in the table of each definition are keys just
if those that the definition declares are: nothing sees to it, and nothing changes a name. Looking
up the items of a declared table by their names always succeeds, and gives all of them just if the
names are different. -/
theorem build_namesAreKeys_iff (h : build d policy definitions = .ok s) :
    List.Forall₂ (fun declared t => t.NamesAreKeys ↔ declared.NamesAreKeysIn d)
      (kept d definitions) s.tables ∧
    ∀ t ∈ s.tables, ∃ columns constraints indices,
      s.view.columns t.qualifiedName = .ok columns ∧
      s.view.constraints t.qualifiedName = .ok constraints ∧
      s.view.indices t.qualifiedName = .ok indices ∧
      (columns.length = t.columns.length ↔ (t.columns.map (·.name)).Nodup) ∧
      (constraints.length = t.constraints.length ↔ (t.constraints.map (·.name)).Nodup) ∧
      (indices.length = t.indices.length ↔ (t.indices.map (·.name)).Nodup) := by
  have hall := forall₂_declares_of_build h
  refine ⟨hall.imp fun _ _ => TableDef.Declares.namesAreKeys_iff, fun t ht => ?_⟩
  obtain ⟨declared, -, hdeclares⟩ := exists_of_forall₂_right hall ht
  have hfound {α : Type} (f : Table → α) :
      (s.require t.qualifiedName).map f = .ok (f t) := by
    rw [require_eq_of_build h ht]
    rfl
  exact ⟨_, _, _, hfound _, hfound _, hfound _, Table.length_columnsByName_eq_iff,
    Table.length_constraintsByName_eq_iff,
    Table.length_indicesByName_eq_iff.trans hdeclares.nodup_nameIn_indices_iff⟩

end DeclaredSchema

/-- A payment, with a key, an index and one check of its amount. -/
def checkedPayment : TableDef where
  name := "payment"
  columns := [
    { field := "payment_id", kind := .number, directive := "primarykey" },
    { field := "amount", kind := .number, directive := "index check=\x7bamount > 0\x7d" }]

/-- A rental whose column of days has two checks. -/
def twiceCheckedRental : TableDef where
  name := "rental"
  columns := [
    { field := "days", kind := .number,
      directive := "check=\x7bdays > 0\x7d check=\x7bdays < 30\x7d" }]

/-- The names in the table of payments are keys. Of the two checks of a rental, which have one name,
only one is found. -/
theorem build_namesAreKeys_iff_paymentAndRental :
    ∃ s payment rental, DeclaredSchema.build .postgres .warn [checkedPayment, twiceCheckedRental] =
        .ok s ∧ s.tables = [payment, rental] ∧ payment.NamesAreKeys ∧ ¬rental.NamesAreKeys ∧
      ∃ constraints, s.view.constraints rental.qualifiedName = .ok constraints ∧
        constraints.length ≠ rental.constraints.length := by
  obtain ⟨s, hbuild, hnodup⟩ : ∃ s,
      DeclaredSchema.build .postgres .warn [checkedPayment, twiceCheckedRental] = .ok s ∧
      s.tables.map (fun t => decide (t.constraints.map (·.name)).Nodup) = [true, false] := by
    decide +kernel
  obtain ⟨payment, rest, htables, -, hrest⟩ := List.map_eq_cons_iff.mp hnodup
  obtain ⟨rental, rfl, hrental⟩ := List.map_eq_singleton_iff.mp hrest
  have hchecks := of_decide_eq_false hrental
  obtain ⟨hall, hview⟩ := DeclaredSchema.build_namesAreKeys_iff hbuild
  have hkept : DeclaredSchema.kept .postgres [checkedPayment, twiceCheckedRental] =
      [checkedPayment, twiceCheckedRental] := by
    decide
  rw [hkept, htables] at hall
  obtain ⟨hpayment, -⟩ := List.forall₂_cons.mp hall
  have hpaymentNames : checkedPayment.NamesAreKeysIn .postgres := by
    have hcolumns : checkedPayment.columnNamesIn .postgres = ["payment_id", "amount"] := by
      decide +kernel
    have hconstraints : (checkedPayment.standingConstraintsIn .postgres).map (·.name) =
        ["payment_amount_check"] := by
      decide +kernel
    have hindices : (checkedPayment.indicesIn .postgres).map (·.name) = ["payment_amount_idx"] := by
      decide +kernel
    constructor
    · rw [hcolumns]
      decide
    · rw [hcolumns]
      decide
    · rw [hconstraints]
      decide
    · rw [hindices]
      decide
  obtain ⟨_, constraints, _, -, hconstraints, -, -, hlength, -⟩ :=
    hview rental (htables ▸ List.mem_cons_of_mem _ List.mem_cons_self)
  exact ⟨s, payment, rental, hbuild, htables, hpayment.mpr hpaymentNames,
    fun h => hchecks h.constraints, constraints, hconstraints, mt hlength.mp hchecks⟩

/-- A film with a title and another column that is renamed to it. -/
def twiceTitledFilm : TableDef where
  name := "film"
  columns := [
    { field := "title", kind := .string },
    { field := "original", kind := .string, directive := "name=title" }]

/-- The table of films has two columns of one name, and one of them is found. -/
theorem build_hidesColumn_twiceTitledFilm :
    ∃ s film columns, DeclaredSchema.build .postgres .warn [twiceTitledFilm] = .ok s ∧
      s.tables = [film] ∧ ¬film.NamesAreKeys ∧
      s.view.columns film.qualifiedName = .ok columns ∧ columns.length < film.columns.length := by
  obtain ⟨s, hbuild, hfilms⟩ : ∃ s,
      DeclaredSchema.build .postgres .warn [twiceTitledFilm] = .ok s ∧
      s.tables.map (fun t => (t.columns.map (·.name),
        (s.view.columns t.qualifiedName).toOption.map (·.length))) =
        [(["title", "title"], some 1)] := by
    decide +kernel
  obtain ⟨film, htables, hfilm⟩ := List.map_eq_singleton_iff.mp hfilms
  obtain ⟨hnames, hfound⟩ := Prod.mk.inj hfilm
  obtain ⟨columns, hcolumns, hlength⟩ := Option.map_eq_some_iff.mp hfound
  refine ⟨s, film, columns, hbuild, htables, fun h => ?_,
    Except.toOption_eq_some_iff.mp hcolumns, ?_⟩
  · have hnodup := h.columns
    rw [hnames] at hnodup
    exact absurd hnodup (by decide)
  · have htwo := congrArg List.length hnames
    rw [List.length_map] at htwo
    rw [hlength, htwo]
    decide

end AdditiveSchema
