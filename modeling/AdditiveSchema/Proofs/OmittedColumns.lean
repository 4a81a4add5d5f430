import AdditiveSchema.Except
import AdditiveSchema.Proofs.DeclaredColumns
import Mathlib.Data.List.Flatten

/-!
# Columns that a dialect does not have

A column can be declared for some dialects only: an override drops it, or its type in the end is the
one that takes it out. Such a column is left out before anything else of its table is put together,
so no key, check or index can be over it. If an override drops it, the definitions are read as if it
had not been declared, and whatever is wrong with them is reported just so. If its own type takes it
out, its directive was read before: a mistake in it still stands in the way, and an unknown modifier
is still warned about. But the schema, if there is one, is the one without the column.

## Main definitions

* `Checked.IsTrimmed` : the same value, with some of the issues missing.

## Main results

* `Declared.readTable_of_drops`, `Declared.isTrimmed_readTable` : a definition with the column and
  without.
* `DeclaredSchema.build_without` : the schemas of all definitions.
-/

namespace AdditiveSchema

/-! ### Fewer issues -/

namespace Checked

variable {α β : Type} {policy : ModifierPolicy}

/-- The value is that of `x`, and nothing is found that was not found in `x`. -/
structure IsTrimmed (y x : Checked α) : Prop where
  value : y.value = x.value
  issues : y.issues.Sublist x.issues

theorem IsTrimmed.refl (x : Checked α) : x.IsTrimmed x :=
  ⟨rfl, List.Sublist.refl _⟩

theorem IsTrimmed.isSound {x y : Checked α} (h : y.IsTrimmed x) (hx : x.IsSound policy) :
    y.IsSound policy :=
  fun issue hissue => hx issue (h.issues.subset hissue)

/-- What comes behind does not notice the difference, if it makes the same of both values. -/
theorem isTrimmed_bind {x y : Checked α} {f g : α → Checked β} (h : y.issues.Sublist x.issues)
    (hrest : (g y.value).IsTrimmed (f x.value)) : (y >>= g).IsTrimmed (x >>= f) :=
  ⟨hrest.value, h.append hrest.issues⟩

theorem IsTrimmed.bind {x y : Checked α} (h : y.IsTrimmed x) (f : α → Checked β) :
    (y >>= f).IsTrimmed (x >>= f) :=
  isTrimmed_bind h.issues (h.value ▸ .refl _)

theorem bind_eq_of_value {x y : Checked α} {f g : α → Checked β} (h : y.issues = x.issues)
    (hrest : g y.value = f x.value) : y >>= g = x >>= f := by
  change Checked.mk _ _ = Checked.mk _ _
  rw [h, hrest]

end Checked

namespace Declared

variable {d : Dialect} {policy : ModifierPolicy} {declared : TableDef} {c : ColumnDef}
  {pre post : List ColumnDef} {ms : List Directive.Modifier}

/-! ### One definition -/

/-- Parts without anything add nothing to the table. -/
theorem ofParts_append_nil (schema name : String) (parts rest : List ColumnParts) :
    ofParts schema name (parts ++ {} :: rest) = ofParts schema name (parts ++ rest) := by
  simp only [ofParts, List.filterMap_append, List.filterMap_cons, List.flatMap_append,
    List.flatMap_cons, List.nil_append]

/-- What is read of the columns, with a column that adds nothing. -/
theorem ofParts_mapM {f : ColumnDef → Checked ColumnParts} (hc : (f c).value = {})
    (schema name : String) :
    ofParts schema name ((pre ++ post).mapM f).value =
      ofParts schema name ((pre ++ c :: post).mapM f).value := by
  simp only [Checked.value_mapM, List.map_append, List.map_cons, hc, ofParts_append_nil]

theorem sublist_issues_mapM (f : ColumnDef → Checked ColumnParts) :
    ((pre ++ post).mapM f).issues.Sublist ((pre ++ c :: post).mapM f).issues := by
  rw [Checked.issues_mapM, Checked.issues_mapM]
  exact ((List.Sublist.refl pre).append (List.sublist_cons_self c post)).flatMap _

theorem issues_mapM_eq {f : ColumnDef → Checked ColumnParts} (hc : f c = pure {}) :
    ((pre ++ post).mapM f).issues = ((pre ++ c :: post).mapM f).issues := by
  simp only [Checked.issues_mapM, List.flatMap_append, List.flatMap_cons, hc, Checked.issues_pure,
    List.nil_append]

/-- A definition without one of its columns is read as before, if that adds nothing: only what was
wrong with the column is missing. -/
theorem isTrimmed_readTable (hcolumns : declared.columns = pre ++ c :: post)
    (hc : ∀ table, (readColumn d table (declared.customization? d) c).value = {}) :
    (readTable d { declared with columns := pre ++ post }).IsTrimmed (readTable d declared) := by
  cases h : Directive.modifiers declared.directive with
  | error e =>
    rw [readTable, readTable, h]
    exact .refl _
  | ok ms =>
    rw [readTable_eq { declared with columns := pre ++ post } h, readTable_eq declared h,
      hcolumns]
    split
    · exact .refl _
    · refine Checked.isTrimmed_bind (sublist_issues_mapM _) ?_
      rw [← ofParts_mapM (hc _)]
      exact .refl _

/-- **If the dialect drops the column**, nothing is missing. -/
theorem readTable_of_drops (hcolumns : declared.columns = pre ++ c :: post)
    (hc : ∀ table, readColumn d table (declared.customization? d) c = pure {}) :
    readTable d { declared with columns := pre ++ post } = readTable d declared := by
  cases h : Directive.modifiers declared.directive with
  | error e =>
    rw [readTable, readTable, h]
    rfl
  | ok ms =>
    rw [readTable_eq { declared with columns := pre ++ post } h, readTable_eq declared h,
      hcolumns]
    split
    · rfl
    · refine Checked.bind_eq_of_value (issues_mapM_eq (hc _)) ?_
      rw [← ofParts_mapM (by rw [hc, Checked.value_pure])]
      rfl

end Declared

namespace DeclaredSchema

variable {d : Dialect} {policy : ModifierPolicy} {before after : List TableDef}
  {declared declared' : TableDef} {s : DeclaredSchema}

/-! ### All definitions -/

theorem isTrimmed_addDefinition
    (h : (Declared.readTable d declared').IsTrimmed (Declared.readTable d declared))
    (hsound : (Declared.readTable d declared).IsSound policy) (tables : List Table) :
    (addDefinition d policy tables declared').IsTrimmed
      (addDefinition d policy tables declared) := by
  rw [addDefinition, addDefinition, Declared.keepSound_of_isSound hsound,
    Declared.keepSound_of_isSound (h.isSound hsound)]
  exact h.bind _

/-- Definitions of which one is trimmed are read as before, if nothing stands in their way. -/
theorem isTrimmed_readTables
    (h : (Declared.readTable d declared').IsTrimmed (Declared.readTable d declared))
    (hsound : (readTables d policy (before ++ declared :: after)).IsSound policy) :
    (readTables d policy (before ++ declared' :: after)).IsTrimmed
      (readTables d policy (before ++ declared :: after)) := by
  have hone : (Declared.readTable d declared).IsSound policy := fun issue hissue =>
    hsound issue (mem_issues_readTables (List.mem_append_right _ List.mem_cons_self) hissue)
  refine Checked.IsTrimmed.bind ?_ _
  rw [List.foldlM_append, List.foldlM_append]
  refine Checked.isTrimmed_bind (List.Sublist.refl _) ?_
  rw [List.foldlM_cons, List.foldlM_cons]
  exact (isTrimmed_addDefinition h hone _).bind _

/-- Definitions of which one is replaced by one that is read alike are read alike. -/
theorem readTables_eq (h : Declared.readTable d declared' = Declared.readTable d declared) :
    readTables d policy (before ++ declared' :: after) =
      readTables d policy (before ++ declared :: after) := by
  have hadd (tables : List Table) :
      addDefinition d policy tables declared' = addDefinition d policy tables declared := by
    rw [addDefinition, addDefinition, h]
  simp only [readTables, List.foldlM_append, List.foldlM_cons, hadd]

/-- Which definitions the dialect has, around one of them. -/
theorem kept_append_cons (d : Dialect) (before after : List TableDef) (declared : TableDef) :
    kept d (before ++ declared :: after) =
      kept d before ++
        if declared.isSkippedIn d then kept d after else declared :: kept d after := by
  rw [kept, List.filter_append, List.filter_cons]
  cases declared.isSkippedIn d <;> rfl

/-- The names of the skipped tables, around one of the definitions. -/
theorem skipped_append_cons (hskip : declared'.isSkippedIn d = declared.isSkippedIn d)
    (hname : skippedName d declared' = skippedName d declared) :
    ((before ++ declared' :: after).filter (·.isSkippedIn d)).map (skippedName d) =
      ((before ++ declared :: after).filter (·.isSkippedIn d)).map (skippedName d) := by
  rw [List.filter_append, List.filter_append, List.filter_cons, List.filter_cons, hskip]
  split
  · rw [List.map_append, List.map_append, List.map_cons, List.map_cons, hname]
  · rfl

/-- **A definition may be replaced** by one that is read alike. -/
theorem build_congr (hskip : declared'.isSkippedIn d = declared.isSkippedIn d)
    (hname : skippedName d declared' = skippedName d declared)
    (h : Declared.readTable d declared' = Declared.readTable d declared) :
    build d policy (before ++ declared' :: after) =
      build d policy (before ++ declared :: after) := by
  have hread : readTables d policy (kept d (before ++ declared' :: after)) =
      readTables d policy (kept d (before ++ declared :: after)) := by
    rw [kept_append_cons, kept_append_cons, hskip]
    split
    · rfl
    · exact readTables_eq h
  have hblockers : blockers d policy (before ++ declared' :: after) =
      blockers d policy (before ++ declared :: after) := by
    rw [blockers, blockers, hread]
  have hcandidate : candidate d policy (before ++ declared' :: after) =
      candidate d policy (before ++ declared :: after) := by
    rw [candidate, candidate, hread, skipped_append_cons hskip hname]
  rw [build_eq, build_eq, hblockers, hcandidate]

/-- **Where there is a schema, a definition may be replaced** by one that is read with fewer
issues. -/
theorem exists_build_of_isTrimmed (hskip : declared'.isSkippedIn d = declared.isSkippedIn d)
    (hname : skippedName d declared' = skippedName d declared)
    (h : (Declared.readTable d declared').IsTrimmed (Declared.readTable d declared))
    (hbuild : build d policy (before ++ declared :: after) = .ok s) :
    ∃ s', build d policy (before ++ declared' :: after) = .ok s' ∧ s'.tables = s.tables ∧
      s'.skipped = s.skipped ∧ s'.warnings.Sublist s.warnings := by
  obtain ⟨hsound, rfl⟩ := build_eq_ok_iff.mp hbuild
  have hread : (readTables d policy (kept d (before ++ declared' :: after))).IsTrimmed
      (readTables d policy (kept d (before ++ declared :: after))) := by
    rw [kept_append_cons] at hsound ⊢
    rw [kept_append_cons, hskip]
    split
    · exact .refl _
    · rename_i hkept
      rw [if_neg hkept] at hsound
      exact isTrimmed_readTables h hsound
  exact ⟨_, build_eq_ok_iff.mpr ⟨hread.isSound hsound, rfl⟩, hread.value,
    skipped_append_cons hskip hname, hread.issues.filterMap _⟩

/-- **A column that the dialect does not have leaves no trace.** Let the directive of a column be
accepted. If the dialect drops the column, the definitions give the same as without it, be that a
schema or errors. If the column ends up with the type that takes it out, then every schema of the
definitions is one without it too: it has the same tables, with all of their columns, keys, checks
and indices, and skips the same ones. -/
theorem build_without (d : Dialect) (policy : ModifierPolicy) (before after : List TableDef)
    {declared : TableDef} {pre post : List ColumnDef} {c : ColumnDef}
    (hcolumns : declared.columns = pre ++ c :: post)
    (hlexes : ∃ ms, Directive.modifiers c.directive = .ok ms) :
    (declared.drops d c = true →
      build d policy (before ++ { declared with columns := pre ++ post } :: after) =
        build d policy (before ++ declared :: after)) ∧
    (declared.typeIn d c = ignoredType →
      ∀ s, build d policy (before ++ declared :: after) = .ok s →
        ∃ s',
          build d policy (before ++ { declared with columns := pre ++ post } :: after) = .ok s' ∧
          s'.tables = s.tables ∧ s'.skipped = s.skipped ∧ s'.warnings.Sublist s.warnings) := by
  obtain ⟨ms, hms⟩ := hlexes
  constructor
  · intro hdrops
    exact build_congr rfl rfl
      (Declared.readTable_of_drops hcolumns (Declared.readColumn_of_drops hms hdrops))
  · intro htype s hbuild
    have homits : declared.omits d c = true := by
      rw [TableDef.omits, htype, beq_self_eq_true, Bool.or_true]
    have htrimmed := Declared.isTrimmed_readTable hcolumns
      (Declared.value_readColumn_of_omits hms homits)
    exact exists_build_of_isTrimmed (by rfl) (by rfl) htrimmed hbuild

end DeclaredSchema

/-- Players have a rank, which is a key of an index together with the name and which SQLite drops,
and a rating, whose type takes it out and whose directive has a misspelled modifier. -/
def rankedPlayer : TableDef where
  name := "player"
  columns := [
    { field := "name", kind := .string, directive := "index=\x7b1 order=1\x7d" },
    { field := "rank", kind := .number,
      directive := "index=\x7b1 order=2\x7d check=\x7brank > 0\x7d unique" },
    { field := "rating", kind := .number,
      directive := "index=\x7b1 order=3\x7d notnul type=\x00" }]
  dialects := [(.sqlite, { columns := [("rank", { ignore := true })] })]

/-- Neither the rank nor the rating leaves a trace in SQLite: the index is over the name alone. -/
theorem build_without_rankedPlayer :
    rankedPlayer.drops .sqlite rankedPlayer.columns[1] = true ∧
    DeclaredSchema.build .sqlite .warn
        [{ rankedPlayer with columns := [rankedPlayer.columns[0], rankedPlayer.columns[2]] }] =
      DeclaredSchema.build .sqlite .warn [rankedPlayer] ∧
    rankedPlayer.typeIn .sqlite rankedPlayer.columns[2] = ignoredType ∧
    ∃ s s', DeclaredSchema.build .sqlite .warn [rankedPlayer] = .ok s ∧
      s.warnings = [.unknownModifier "player.rating" "notnul"] ∧
      DeclaredSchema.build .sqlite .warn
        [{ rankedPlayer with columns := [rankedPlayer.columns[0], rankedPlayer.columns[1]] }] =
          .ok s' ∧
      s'.tables = s.tables ∧ s.tables.map (·.indices.map (·.columns)) = [[["name"]]] := by
  have hdrops : rankedPlayer.drops .sqlite rankedPlayer.columns[1] = true := by decide +kernel
  have htype : rankedPlayer.typeIn .sqlite rankedPlayer.columns[2] = ignoredType := by
    decide +kernel
  obtain ⟨s, hbuild, hwarnings, hindices⟩ : ∃ s,
      DeclaredSchema.build .sqlite .warn [rankedPlayer] = .ok s ∧
      s.warnings = [.unknownModifier "player.rating" "notnul"] ∧
      s.tables.map (·.indices.map (·.columns)) = [[["name"]]] := by
    decide +kernel
  have hsecond : rankedPlayer.columns =
      [rankedPlayer.columns[0]] ++ rankedPlayer.columns[1] :: [rankedPlayer.columns[2]] := rfl
  have hthird : rankedPlayer.columns =
      [rankedPlayer.columns[0], rankedPlayer.columns[1]] ++ rankedPlayer.columns[2] :: [] := rfl
  have hrank := DeclaredSchema.build_without .sqlite .warn [] [] hsecond
    (Except.isOk_iff.mp (by decide +kernel))
  have hrating := DeclaredSchema.build_without .sqlite .warn [] [] hthird
    (Except.isOk_iff.mp (by decide +kernel))
  obtain ⟨s', hbuild', htables, -, -⟩ := hrating.2 htype s hbuild
  exact ⟨hdrops, hrank.1 hdrops, htype, s, s', hbuild, hwarnings, hbuild', htables, hindices⟩

end AdditiveSchema
