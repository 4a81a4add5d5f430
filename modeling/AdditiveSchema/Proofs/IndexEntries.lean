import AdditiveSchema.Proofs.Directive.Appending
import AdditiveSchema.Proofs.OmittedColumns
import AdditiveSchema.Proofs.SkippedDefinitions

/-!
# Indices that a dialect adds

A dialect can add an index to a table, by the text that the value of an `index` modifier has. Such
an entry is trimmed and loses a pair of braces around it, just as the value of a modifier does. So
the entry between braces means the same as an `index` modifier with that text behind the directive
of the table, whatever the text is, as long as its braces match. The entry without braces means the
same, too, unless it begins with a brace and ends with one: a text that is one pair of braces with
all that is between them means what is between them.

## Main definitions

* `Checked.SameOutcome` : the same value and the same issues, or something in the way of both.
* `TableDef.addIndexEntry`, `TableDef.addIndexModifier` : a definition with one more index.

## Main results

* `Declared.bareIndex_eq` : how an entry loses its braces.
* `Declared.sameOutcome_readTable` : a definition with the entry and one with the modifier.
* `DeclaredSchema.build_addIndexEntry` : all definitions.
-/

namespace AdditiveSchema

open Directive

/-! ### Steps with the same outcome -/

namespace Checked

variable {α β : Type} {policy : ModifierPolicy} {x y : Checked α}

/-- Either nothing stands in the way of both, and they are equal, or something stands in the way of
each of them. -/
structure SameOutcome (policy : ModifierPolicy) (x y : Checked α) : Prop where
  isSound_iff : x.IsSound policy ↔ y.IsSound policy
  eq_of_isSound : x.IsSound policy → x = y

namespace SameOutcome

theorem refl (x : Checked α) : SameOutcome policy x x :=
  ⟨Iff.rfl, fun _ => rfl⟩

theorem of_not_isSound (hx : ¬x.IsSound policy) (hy : ¬y.IsSound policy) :
    SameOutcome policy x y :=
  ⟨iff_of_false hx hy, fun h => absurd h hx⟩

theorem bind {f g : α → Checked β} (h : SameOutcome policy x y)
    (hrest : ∀ a, SameOutcome policy (f a) (g a)) : SameOutcome policy (x >>= f) (y >>= g) := by
  by_cases hx : x.IsSound policy
  · obtain rfl := h.eq_of_isSound hx
    refine ⟨?_, fun hsound => bind_eq_of_value rfl ?_⟩
    · rw [isSound_bind, isSound_bind, (hrest x.value).isSound_iff]
    · exact (hrest x.value).eq_of_isSound (isSound_bind.mp hsound).2
  · have hy : ¬y.IsSound policy := fun hy => hx (h.isSound_iff.mpr hy)
    exact of_not_isSound (fun hsound => hx (isSound_bind.mp hsound).1)
      fun hsound => hy (isSound_bind.mp hsound).1

end SameOutcome

end Checked

/-! ### One more index -/

namespace TableDef

/-- The definition with one more entry among the indices that the dialect adds. -/
def addIndexEntry (declared : TableDef) (d : Dialect) (entry : String) : TableDef :=
  let custom := declared.customizationIn d
  declared.customize d { custom with indices := custom.indices ++ [entry] }

/-- The definition with one more modifier behind its directive, an index with that text. -/
def addIndexModifier (declared : TableDef) (text : String) : TableDef :=
  { declared with
    directive := declared.directive ++
      String.ofList (' ' :: bracedText "index".toList text.toList) }

end TableDef

namespace Declared

open AdditiveSchema.Text

/-! ### The braces of an entry -/

/-- **An entry loses its braces** as the value of a modifier does, once it is trimmed. -/
theorem bareIndex_eq (entry : String) :
    bareIndex entry = String.ofList (stripBraces (trim entry.toList)) := by
  unfold bareIndex stripBraces
  generalize trim entry.toList = text
  cases text with
  | nil => rfl
  | cons c text =>
    by_cases hopen : c = '{'
    · subst hopen
      rcases List.eq_nil_or_concat text with rfl | ⟨inside, last, rfl⟩
      · rfl
      · have hlast : ('{' :: (inside ++ [last])).getLast? = some last := by
          rw [← List.cons_append, List.getLast?_concat]
        by_cases hclose : last = '}'
        · subst hclose
          simp [dropLead?, dropTail?, hlast, inner_cons_append]
        · simp [dropLead?, dropTail?, hlast, hclose, Ne.symm hclose]
    · simp [dropLead?, hopen, Ne.symm hopen]

/-- An entry without two braces at its ends is trimmed only. -/
theorem bareIndex_of_not_braces {entry : String}
    (h : ¬((trim entry.toList).head? = some '{' ∧ (trim entry.toList).getLast? = some '}')) :
    bareIndex entry = trimmed entry := by
  rw [bareIndex_eq, stripBraces, if_neg fun hends => h hends.2, trimmed]

/-- An entry between braces loses them. -/
theorem bareIndex_of_braces {entry text : String}
    (h : trim entry.toList = '{' :: (text.toList ++ ['}'])) : bareIndex entry = text := by
  rw [bareIndex_eq, h, stripBraces_braces, String.ofList_toList]

theorem bareIndex_braces (text : String) : bareIndex ("\x7b" ++ text ++ "\x7d") = text := by
  have htoList : ("\x7b" ++ text ++ "\x7d").toList = '{' :: (text.toList ++ ['}']) := by
    rw [String.toList_append, String.toList_append]
    rfl
  refine bareIndex_of_braces ?_
  have hfront : trimStart ('{' :: (text.toList ++ ['}'])) = '{' :: (text.toList ++ ['}']) := by
    rw [trimStart, List.dropWhile_cons_of_neg (by decide)]
  rw [htoList, trim, hfront, trimEnd, ← List.cons_append, List.reverse_concat,
    List.dropWhile_cons_of_neg (by decide), List.reverse_cons, List.reverse_reverse]

/-! ### One more index in a definition -/

variable {policy : ModifierPolicy} {d : Dialect} {declared : TableDef} {ms : List Modifier}
  {t : Table}

/-- The text of an index stands in issues only. -/
theorem sameOutcome_addTableIndex {value text : String}
    (hread : valueAndModifiers value = valueAndModifiers text)
    (htext : IsBalanced text.toList) :
    Checked.SameOutcome policy (addTableIndex t value) (addTableIndex t text) := by
  obtain ⟨⟨label, modifiers⟩, hlex⟩ := exists_valueAndModifiers_iff.mpr htext
  rw [addTableIndex, addTableIndex, hread, hlex]
  refine .bind (.refl _) fun read => ?_
  cases read with
  | none => exact .refl _
  | some read =>
    obtain ⟨label, modifiers⟩ := read
    refine .bind (.refl _) fun draft => .bind ?_ fun passed => .refl _
    unfold checkColumns
    split
    · exact .of_not_isSound (fun h => by cases h _ List.mem_cons_self)
        fun h => by cases h _ List.mem_cons_self
    · exact .refl _

/-- A definition whose directive is accepted, read with one more index behind what its directive
adds to the table. -/
def readTableWith (d : Dialect) (declared : TableDef) (ms : List Modifier) (text : String) :
    Checked (Option Table) :=
  if (nameOr declared.name ms).isEmpty then
    { value := none
      issues := [.invalidValue declared.name "name" "" "table name is empty"] }
  else do
    let name := nameOr declared.name ms
    let parts ← declared.columns.mapM (readColumn d name (some (declared.customizationIn d)))
    let t ← ms.foldlM (applyTableModifier d) (ofParts (declared.schemaIn d) name parts)
    let t ← addTableIndex t text
    let checks := (declared.customizationIn d).checks
    return some
      (checks.foldl (fun t check => t.addConstraint (.check check.name check.expr)) t).foldKeys

theorem schemaIn_eq (declared : TableDef) (d : Dialect) :
    declared.schemaIn d = (declared.customizationIn d).schema.getD declared.schema := by
  unfold TableDef.schemaIn TableDef.customizationIn
  cases declared.customization? d <;> rfl

/-- No customization is one that changes nothing. -/
theorem readColumn_customizationIn (declared : TableDef) (d : Dialect) (table : String) :
    readColumn d table (declared.customization? d) =
      readColumn d table (some (declared.customizationIn d)) := by
  unfold TableDef.customizationIn
  cases declared.customization? d with
  | none => rfl
  | some custom => rfl

theorem fillTable_customizationIn (declared : TableDef) (d : Dialect) (ms : List Modifier)
    (t : Table) :
    fillTable d declared ms t = ms.foldlM (applyTableModifier d) t >>= fun t =>
      addCustom t (declared.customizationIn d) >>= fun t => pure (some t.foldKeys) := by
  unfold fillTable TableDef.customizationIn
  cases declared.customization? d <;> rfl

theorem customization?_addIndexEntry (hentries : (declared.customizationIn d).indices = [])
    (entry : String) :
    (declared.addIndexEntry d entry).customization? d =
      some { declared.customizationIn d with indices := [entry] } := by
  rw [TableDef.addIndexEntry, hentries, List.nil_append, TableDef.customization?_customize]

theorem schemaIn_addIndexEntry (hentries : (declared.customizationIn d).indices = [])
    (entry : String) : (declared.addIndexEntry d entry).schemaIn d = declared.schemaIn d := by
  rw [schemaIn_eq, schemaIn_eq, TableDef.customizationIn, customization?_addIndexEntry hentries]
  rfl

/-- The definition with the entry. -/
theorem readTable_addIndexEntry (h : modifiers declared.directive = .ok ms)
    (hentries : (declared.customizationIn d).indices = []) (entry : String) :
    readTable d (declared.addIndexEntry d entry) =
      readTableWith d declared ms (bareIndex entry) := by
  have hdirective : modifiers (declared.addIndexEntry d entry).directive = .ok ms := h
  rw [readTable_eq _ hdirective, readTableWith]
  refine ite_congr rfl (fun _ => rfl) fun _ => ?_
  simp only [fillTable, customization?_addIndexEntry hentries, schemaIn_addIndexEntry hentries,
    addCustom, List.foldlM_cons, List.foldlM_nil, bind_pure, bind_assoc, pure_bind]
  rfl

/-- The definition with the modifier. -/
theorem readTable_addIndexModifier {text : String} (htext : IsBalanced text.toList)
    (h : modifiers declared.directive = .ok ms)
    (hentries : (declared.customizationIn d).indices = []) :
    readTable d (declared.addIndexModifier text) = readTableWith d declared ms text := by
  have hindex : IsName "index" := by decide
  have hdirective : modifiers (declared.addIndexModifier text).directive =
      .ok (ms ++ [⟨"index", text⟩]) := by
    have hboth := modifiers_append_braced hindex htext h
    rwa [String.ofList_toList] at hboth
  have hname : nameOr (declared.addIndexModifier text).name (ms ++ [⟨"index", text⟩]) =
      nameOr declared.name ms := by
    simp [nameOr, TableDef.addIndexModifier]
  have hcustom :
      (declared.addIndexModifier text).customization? d = declared.customization? d := rfl
  have hcustomIn :
      (declared.addIndexModifier text).customizationIn d = declared.customizationIn d := rfl
  have hlast (t : Table) :
      (ms ++ [(⟨"index", text⟩ : Modifier)]).foldlM (applyTableModifier d) t =
        ms.foldlM (applyTableModifier d) t >>= fun t => addTableIndex t text := by
    rw [List.foldlM_append]
    simp only [List.foldlM_cons, List.foldlM_nil, bind_pure]
    rfl
  rw [readTable_eq _ hdirective, readTableWith, hname]
  simp only [fillTable_customizationIn, hcustom, hcustomIn, readColumn_customizationIn, hlast,
    addCustom, hentries, List.foldlM_nil, pure_bind, bind_assoc]
  rfl

/-- **A definition with the entry and one with the modifier** have the same outcome, if the entry
without its braces is read as the text of the modifier is. -/
theorem sameOutcome_readTable (hentries : (declared.customizationIn d).indices = [])
    {entry text : String} (htext : IsBalanced text.toList)
    (hread : valueAndModifiers (bareIndex entry) = valueAndModifiers text) :
    Checked.SameOutcome policy (readTable d (declared.addIndexEntry d entry))
      (readTable d (declared.addIndexModifier text)) := by
  cases hms : modifiers declared.directive with
  | error e =>
    have hnone : ¬∃ ms, modifiers declared.directive = .ok ms := by simp [hms]
    refine .of_not_isSound (fun h => hnone ?_) fun h => hnone ?_
    · exact Checked.exists_ok_of_ofLexed (Checked.isSound_bind.mp h).1
    · exact (exists_modifiers_append_braced_iff (by decide) htext).mp
        (Checked.exists_ok_of_ofLexed (Checked.isSound_bind.mp h).1)
  | ok ms =>
    rw [readTable_addIndexEntry hms hentries, readTable_addIndexModifier htext hms hentries,
      readTableWith, readTableWith]
    split
    · exact .refl _
    · exact .bind (.refl _) fun parts => .bind (.refl _) fun t =>
        .bind (sameOutcome_addTableIndex hread htext) fun t => .refl _

end Declared

namespace DeclaredSchema

variable {d : Dialect} {policy : ModifierPolicy} {before after : List TableDef}
  {declared declared' : TableDef}

/-! ### All definitions -/

/-- The schema that the definitions declare, if nothing stands in its way. -/
def schema? (d : Dialect) (policy : ModifierPolicy) (definitions : List TableDef) :
    Option DeclaredSchema :=
  (build d policy definitions).toOption

/-- There is no schema if a definition that the dialect has cannot be read. -/
theorem schema?_eq_none (hkept : declared.isSkippedIn d = false)
    (h : ¬(Declared.readTable d declared).IsSound policy) :
    schema? d policy (before ++ declared :: after) = none := by
  cases hbuild : build d policy (before ++ declared :: after) with
  | error errors => rw [schema?, hbuild, Except.toOption]
  | ok s =>
    refine absurd (fun issue hissue => ?_) h
    have hmem : declared ∈ kept d (before ++ declared :: after) :=
      mem_kept_iff.mpr ⟨List.mem_append_right _ List.mem_cons_self, hkept⟩
    exact (build_eq_ok_iff.mp hbuild).1 issue (mem_issues_readTables hmem hissue)

/-- **A definition may be replaced** by one with the same outcome. -/
theorem schema?_congr (hskip : declared'.isSkippedIn d = declared.isSkippedIn d)
    (hname : skippedName d declared' = skippedName d declared)
    (h : Checked.SameOutcome policy (Declared.readTable d declared')
      (Declared.readTable d declared)) :
    schema? d policy (before ++ declared' :: after) =
      schema? d policy (before ++ declared :: after) := by
  cases hskipped : declared.isSkippedIn d with
  | true =>
    have hkept : kept d (before ++ declared' :: after) = kept d (before ++ declared :: after) := by
      rw [kept_append_cons, kept_append_cons, hskip, hskipped, if_pos rfl, if_pos rfl]
    rw [schema?, schema?, build_eq, build_eq, blockers, blockers, candidate, candidate, hkept,
      skipped_append_cons hskip hname]
  | false =>
    by_cases hsound : (Declared.readTable d declared').IsSound policy
    · rw [schema?, schema?, build_congr hskip hname (h.eq_of_isSound hsound)]
    · rw [schema?_eq_none (hskip.trans hskipped) hsound,
        schema?_eq_none hskipped (mt h.isSound_iff.mpr hsound)]

theorem schema?_addIndexEntry (d : Dialect) (policy : ModifierPolicy) (before after : List TableDef)
    (hentries : (declared.customizationIn d).indices = []) {entry text : String}
    (htext : IsBalanced text.toList)
    (hread : valueAndModifiers (Declared.bareIndex entry) = valueAndModifiers text) :
    schema? d policy (before ++ declared.addIndexEntry d entry :: after) =
      schema? d policy (before ++ declared.addIndexModifier text :: after) := by
  refine schema?_congr ?_ ?_ (Declared.sameOutcome_readTable hentries htext hread)
  · rw [TableDef.isSkippedIn, Declared.customization?_addIndexEntry hentries,
      TableDef.customizationIn]
    change _ = (declared.customization? d).any (·.skip)
    cases declared.customization? d <;> rfl
  · rw [skippedName, Declared.schemaIn_addIndexEntry hentries]
    rfl

/-- **An index that a dialect adds means the same as one of the directive.** Let the braces of a
text match, and let the dialect add no other indices to a table. Then the entry with the text
between braces and the `index` modifier with it, behind all others, give the same schema, or none of
them gives one. The entry with the text alone gives that schema, too, unless the text begins with an
opening brace and ends with a closing one. If these two belong together, it gives the schema of the
text between them. -/
theorem build_addIndexEntry (d : Dialect) (policy : ModifierPolicy) (before after : List TableDef)
    (hentries : (declared.customizationIn d).indices = []) {text : String}
    (htext : IsBalanced text.toList) :
    schema? d policy (before ++ declared.addIndexEntry d ("\x7b" ++ text ++ "\x7d") :: after) =
      schema? d policy (before ++ declared.addIndexModifier text :: after) ∧
    (¬((Text.trim text.toList).head? = some '{' ∧ (Text.trim text.toList).getLast? = some '}') →
      schema? d policy (before ++ declared.addIndexEntry d text :: after) =
        schema? d policy (before ++ declared.addIndexModifier text :: after)) ∧
    ∀ inside : String, IsBalanced inside.toList →
      Text.trim text.toList = '{' :: (inside.toList ++ ['}']) →
      schema? d policy (before ++ declared.addIndexEntry d text :: after) =
        schema? d policy (before ++ declared.addIndexModifier inside :: after) := by
  refine ⟨?_, fun hends => ?_, fun inside hinside hbraces => ?_⟩
  · refine schema?_addIndexEntry d policy before after hentries htext ?_
    rw [Declared.bareIndex_braces]
  · refine schema?_addIndexEntry d policy before after hentries htext ?_
    rw [Declared.bareIndex_of_not_braces hends, valueAndModifiers_trimmed htext]
  · refine schema?_addIndexEntry d policy before after hentries hinside ?_
    rw [Declared.bareIndex_of_braces hbraces]

end DeclaredSchema

/-- Films, with a check in PostgreSQL. -/
def checkedFilm : TableDef where
  name := "film"
  columns := [{ field := "title", kind := .string }]
  dialects := [(.postgres, { checks := [⟨"film_title_check", "title <> ''"⟩] })]

/-- The index can be written in all ways. -/
theorem build_addIndexEntry_film :
    let indexed := DeclaredSchema.schema? .postgres .warn
      [checkedFilm.addIndexModifier ". cols=title unique"]
    indexed.map (·.tables.map (·.indices.map fun i => (i.name, i.columns, i.unique))) =
      some [[("film_title_idx", ["title"], true)]] ∧
    DeclaredSchema.schema? .postgres .warn
      [checkedFilm.addIndexEntry .postgres "\x7b. cols=title unique\x7d"] = indexed ∧
    DeclaredSchema.schema? .postgres .warn
      [checkedFilm.addIndexEntry .postgres ". cols=title unique"] = indexed ∧
    DeclaredSchema.schema? .postgres .warn
      [checkedFilm.addIndexEntry .postgres " \x7b. cols=title unique\x7d "] = indexed := by
  have hentries : (checkedFilm.customizationIn .postgres).indices = [] := rfl
  have hbalanced : IsBalanced ". cols=title unique".toList ∧
      IsBalanced " \x7b. cols=title unique\x7d ".toList := by decide
  have hbare := DeclaredSchema.build_addIndexEntry .postgres .warn [] [] hentries hbalanced.1
  have hbraced := DeclaredSchema.build_addIndexEntry .postgres .warn [] [] hentries hbalanced.2
  exact ⟨by decide +kernel, hbare.1, hbare.2.1 (by decide),
    hbraced.2.2 ". cols=title unique" hbalanced.1 (by decide)⟩

/-- **A pair of braces is taken off an entry.** Between braces, the text that has some of its own
keeps these, and is the label of an index without columns; alone, it loses them and names its
columns. -/
theorem build_losesBraces_film :
    IsBalanced "\x7b. cols=title\x7d".toList ∧
    (checkedFilm.customizationIn .postgres).indices = [] ∧
    DeclaredSchema.build .postgres .warn
      [checkedFilm.addIndexEntry .postgres "\x7b\x7b. cols=title\x7d\x7d"] =
      .error [.invalidValue "film" "index" "\x7b. cols=title\x7d" "missing cols"] ∧
    DeclaredSchema.build .postgres .warn
      [checkedFilm.addIndexModifier "\x7b. cols=title\x7d"] =
      .error [.invalidValue "film" "index" "\x7b. cols=title\x7d" "missing cols"] ∧
    ∃ s, DeclaredSchema.build .postgres .warn
        [checkedFilm.addIndexEntry .postgres "\x7b. cols=title\x7d"] = .ok s ∧
      s.tables.map (·.indices.map fun i => (i.name, i.columns)) =
        [[("film_title_idx", ["title"])]] := by
  decide +kernel

end AdditiveSchema
