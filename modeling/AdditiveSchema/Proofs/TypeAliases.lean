import AdditiveSchema.Plan.Diff
import AdditiveSchema.Proofs.Text.Splitting
import AdditiveSchema.Proofs.TypeName.Normal

/-!
# Aliases with modifiers and attributes

Two names of a type are aliases if they have one normal form. The names are looked up in what stands
in front of the first parenthesis, so aliases stay aliases with a modifier behind them, but not with
attributes alone, and not if the modifier stands inside one of them.

## Main definitions

* `Dialect.AreAliases` : two names with one normal form.
* `TypeName.StayAliases` : the suffixes with which they have one, too.

## Main results

* `Dialect.normalType_spelling_iff` : when aliases with one suffix have one normal form.
-/

namespace AdditiveSchema

open AdditiveSchema.Text AdditiveSchema.TypeName

/-- Two names of types with one normal form. -/
structure Dialect.AreAliases (d : Dialect) (a b : String) : Prop where
  left : IsName a
  right : IsName b
  same : d.normalType a = d.normalType b

namespace TypeName

variable {a b base text : String} {cs : List Char} {d : Dialect} {suffix : Suffix}

/-! ### Attributes alone -/

/-- The names with a space in them have different names without one. -/
theorem typeAliases_of_space (d : Dialect) :
    ∀ entry ∈ d.typeAliases, ' ' ∈ entry.1.toList →
      ' ' ∉ entry.2.toList ∧ ∀ other ∈ d.typeAliases, ' ' ∈ other.1.toList →
        entry.2 = other.2 → entry.1 = other.1 := by
  cases d <;> decide +kernel

/-- **A text with a space** in it is known from its name. -/
theorem unalias_injective_of_space (ha : ' ' ∈ a.toList) (hb : ' ' ∈ b.toList)
    (h : unalias d.typeAliases a = unalias d.typeAliases b) : a = b := by
  rcases unalias_cases d.typeAliases a with hentry | hself <;>
    rcases unalias_cases d.typeAliases b with hother | hother
  · exact (typeAliases_of_space d _ hentry ha).2 _ hother hb h
  · exact absurd hb (hother ▸ h ▸ (typeAliases_of_space d _ hentry ha).1)
  · exact absurd ha (hself ▸ h ▸ (typeAliases_of_space d _ hother hb).1)
  · exact hself.symm.trans (h.trans hother)

/-- **Attributes alone** keep different names apart. -/
theorem canonical_eq_of_normalType_eq_none (ha : IsName a) (hb : IsName b)
    (hmodifier : suffix.modifier = none) (hattributes : suffix.attributes ≠ [])
    (h : d.normalType (spelling a suffix) = d.normalType (spelling b suffix)) :
    canonical a = canonical b := by
  have hspace (cs : List Char) : ' ' ∈ (String.ofList (cs ++ suffix.canonicalWords)).toList := by
    rw [String.toList_ofList]
    exact List.mem_append_right _ (Suffix.space_mem_canonicalWords hattributes)
  rw [normalType_spelling_none d ha hmodifier, normalType_spelling_none d hb hmodifier] at h
  have htext := unalias_injective_of_space (hspace _) (hspace _) h
  rw [String.ofList_inj] at htext
  exact String.toList_inj.mp (List.append_cancel_right htext)

/-! ### Modifiers inside of names -/

/-- No alias of another dialect tells of a time zone. -/
theorem typeAliases_not_zoned (hd : d ≠ .postgres) :
    ∀ entry ∈ d.typeAliases, entry.1 ∉ zonedNames ∧ entry.2 ∉ zonedNames := by
  cases d with
  | postgres => exact absurd rfl hd
  | mysql => decide
  | sqlite => decide

theorem eq_of_isZoned (hd : d ≠ .postgres) (hzoned : a ∈ zonedNames)
    (h : unalias d.typeAliases a = unalias d.typeAliases b) : a = b := by
  have hself : unalias d.typeAliases a = a :=
    (unalias_cases d.typeAliases a).resolve_left fun hentry =>
      (typeAliases_not_zoned hd _ hentry).1 hzoned
  rcases unalias_cases d.typeAliases b with hentry | hother
  · exact absurd (h ▸ hself.symm ▸ hzoned) (typeAliases_not_zoned hd _ hentry).2
  · exact hself.symm.trans (h.trans hother)

/-- The number of characters that stand for a name in front of its modifier and behind it. -/
def writtenLength (name : String) : Nat :=
  (unalias postgresAliases (String.ofList (canonicalStemAndZone name).1)).length +
    (canonicalStemAndZone name).2.length

theorem length_normalType_spelling (h : IsName a) (hmodifier : suffix.modifier = some text) :
    (Dialect.postgres.normalType (spelling a suffix)).length =
      writtenLength a + (text.toList.length + suffix.canonicalWords.length + 2) := by
  rw [normalType_spelling_some _ h hmodifier, writtenLength]
  simp only [normalModified, Dialect.typeAliases, String.length_append, String.length_ofList,
    List.length_cons, List.length_append]
  omega

theorem writtenLength_of_isZoned (h : IsZoned a) : writtenLength a = (canonical a).length := by
  have htable : ∀ name ∈ zonedNames,
      (unalias postgresAliases (String.ofList (name.toList.span (!isBlank ·)).1)).length +
        (name.toList.span (!isBlank ·)).2.length = name.length := by
    decide +kernel
  rw [writtenLength, canonicalStemAndZone, if_pos h]
  exact htable _ h

theorem writtenLength_of_not_isZoned (h : ¬IsZoned a) :
    writtenLength a = (unalias postgresAliases (canonical a)).length := by
  simp only [writtenLength, canonicalStemAndZone_of_not_isZoned h, String.ofList_toList,
    List.length_nil, Nat.add_zero]

/-- Each name with a time zone is longer or shorter than the name that stands for it. -/
theorem length_unalias_of_isZoned : ∀ name ∈ zonedNames,
    name.length ≠ (unalias postgresAliases name).length ∧
      ∀ other ∈ zonedNames, unalias postgresAliases name = unalias postgresAliases other →
        name = other := by
  decide +kernel

/-- The lengths tell a name with a time zone from every alias of it. -/
theorem canonical_eq_of_writtenLength_eq (hzoned : IsZoned a ∨ IsZoned b)
    (hsame : unalias postgresAliases (canonical a) = unalias postgresAliases (canonical b))
    (h : writtenLength a = writtenLength b) : canonical a = canonical b := by
  by_cases ha : IsZoned a <;> by_cases hb : IsZoned b
  · exact (length_unalias_of_isZoned _ ha).2 _ hb hsame
  · rw [writtenLength_of_isZoned ha, writtenLength_of_not_isZoned hb, ← hsame] at h
    exact absurd h (length_unalias_of_isZoned _ ha).1
  · rw [writtenLength_of_not_isZoned ha, writtenLength_of_isZoned hb, hsame] at h
    exact absurd h.symm (length_unalias_of_isZoned _ hb).1
  · exact absurd hzoned (not_or.mpr ⟨ha, hb⟩)

/-- **A modifier inside of a name** keeps different names apart. -/
theorem canonical_eq_of_normalType_eq_some (h : d.AreAliases a b) (hzoned : IsZoned a ∨ IsZoned b)
    (hmodifier : suffix.modifier = some text)
    (hnormal : d.normalType (spelling a suffix) = d.normalType (spelling b suffix)) :
    canonical a = canonical b := by
  have hsame := h.same
  rw [normalType_name d h.left, normalType_name d h.right] at hsame
  by_cases hd : d = .postgres
  · -- the suffix is written in full behind either name, so the lengths tell the names apart
    subst hd
    refine canonical_eq_of_writtenLength_eq hzoned hsame ?_
    have hlength := congrArg String.length hnormal
    rw [length_normalType_spelling h.left hmodifier,
      length_normalType_spelling h.right hmodifier] at hlength
    exact Nat.add_right_cancel hlength
  · rcases hzoned with ha | hb
    · exact eq_of_isZoned hd ha hsame
    · exact (eq_of_isZoned hd hb hsame.symm).symm

/-! ### Display widths -/

/-- The name stands for an integer type of MySQL, and so does every alias of it. -/
theorem mem_mysqlIntegers_of_unalias (h : unalias mysqlAliases base ∈ mysqlIntegers) :
    base ∈ mysqlIntegers := by
  have htable : ∀ entry ∈ mysqlAliases, entry.2 ∈ mysqlIntegers → entry.1 ∈ mysqlIntegers := by
    decide
  rcases unalias_cases mysqlAliases base with hentry | hself
  · exact htable _ hentry h
  · exact hself ▸ h

theorem not_isZoned_of_mem_mysqlIntegers (h : canonical a ∈ mysqlIntegers) : ¬IsZoned a := by
  have htable : ∀ name ∈ mysqlIntegers, name ∉ zonedNames := by decide
  exact htable _ h

/-- An integer type with attributes is no alias. -/
theorem unalias_integer_append (h : base ∈ mysqlIntegers) (hspace : ' ' ∈ cs) :
    unalias mysqlAliases (String.ofList (base.toList ++ cs)) =
      String.ofList (base.toList ++ cs) := by
  have htable : ∀ entry ∈ mysqlAliases, ∀ name ∈ mysqlIntegers,
      name.toList <+: entry.1.toList → ' ' ∉ entry.1.toList := by decide
  refine (unalias_cases mysqlAliases _).resolve_left fun hentry => ?_
  refine htable _ hentry base h ?_ ?_
  · rw [String.toList_ofList]
    exact List.prefix_append _ _
  · rw [String.toList_ofList]
    exact List.mem_append_right _ hspace

theorem Suffix.behindWidth_eq (hmodifier : suffix.modifier = some text) :
    behindWidth ('(' :: (text.toList ++ ')' :: suffix.canonicalWords)) =
      trimStart suffix.canonicalWords := by
  have hnotMem : ')' ∉ '(' :: text.toList := by
    rw [List.mem_cons, not_or]
    refine ⟨by decide, fun hmem => ?_⟩
    have := (toNat_of_isModifierChar (Suffix.isModifierChar_of_mem hmodifier _ hmem)).1
    exact absurd this (by decide)
  have hsplit := splitFirst?_append hnotMem suffix.canonicalWords
  rw [List.cons_append] at hsplit
  rw [behindWidth, hsplit]

/-- A width of one is written no other way. -/
theorem Suffix.eq_one_of_isPrefixOf (hmodifier : suffix.modifier = some text)
    (h : "(1)".toList.isPrefixOf ('(' :: (text.toList ++ ')' :: cs)) = true) : text = "1" := by
  have hchars := Suffix.isModifierChar_of_mem hmodifier
  have hprefix : ['1', ')'] <+: text.toList ++ ')' :: cs := by
    rw [List.isPrefixOf_iff_prefix] at h
    exact (List.cons_prefix_cons.mp h).2
  rw [← String.toList_inj]
  match htext : text.toList with
  | [] =>
    rw [htext, List.nil_append, List.cons_prefix_cons] at hprefix
    exact absurd hprefix.1 (by decide)
  | [c] =>
    rw [htext, List.cons_append, List.cons_prefix_cons] at hprefix
    rw [← hprefix.1]
    rfl
  | c :: d :: _ =>
    rw [htext, List.cons_append, List.cons_append, List.cons_prefix_cons,
      List.cons_prefix_cons] at hprefix
    have hcode := (toNat_of_isModifierChar (hchars d (by simp [htext]))).1
    rw [← hprefix.2.1] at hcode
    exact absurd hcode (by decide)

/-- **A display width** is dropped. -/
theorem normalModified_integer {name : String} (hname : name ∈ mysqlIntegers)
    (hmodifier : suffix.modifier = some text) (hwidth : ¬(name = "TINYINT" ∧ text = "1")) :
    normalModified .mysql name ('(' :: (text.toList ++ ')' :: suffix.canonicalWords)) =
      name ++ String.ofList suffix.canonicalWords := by
  have htruth : ¬(name == "TINYINT" && "(1)".toList.isPrefixOf
      ('(' :: (text.toList ++ ')' :: suffix.canonicalWords))) = true := by
    rw [Bool.and_eq_true, beq_iff_eq]
    exact fun h => hwidth ⟨h.1, Suffix.eq_one_of_isPrefixOf hmodifier h.2⟩
  rw [normalModified, if_neg htruth]
  dsimp only
  rw [if_pos (List.contains_iff_mem.mpr hname), Suffix.behindWidth_eq hmodifier]
  by_cases hattributes : suffix.attributes = []
  · simp [Suffix.canonicalWords_eq_nil hattributes, trimStart]
  · obtain ⟨c, cs, hwords, hc⟩ := Suffix.exists_canonicalWords_eq hattributes
    obtain ⟨hblank, hmark⟩ := isWordChar_eq_true_iff.mp hc
    have hopen : c ≠ '(' := by rintro rfl; cases hmark
    have htrim : trimStart (' ' :: c :: cs) = c :: cs := by
      rw [trimStart, List.dropWhile_cons_of_pos rfl, List.dropWhile_cons_of_neg (by simp [hblank])]
    have hgap : (!(c :: cs).isEmpty && (c :: cs).head? != some '(') = true := by simp [hopen]
    rw [hwords, htrim, if_pos hgap, ← String.toList_inj]
    simp

/-- **An integer type with a display width** and one without it. -/
theorem normalType_integer_iff (h : Dialect.mysql.AreAliases a b)
    (hinteger : Dialect.mysql.normalType a ∈ mysqlIntegers)
    (hmodifier : suffix.modifier = some text)
    (hwidth : ¬(Dialect.mysql.normalType a = "TINYINT" ∧ text = "1")) :
    Dialect.mysql.normalType (spelling a suffix) =
        Dialect.mysql.normalType (spelling b suffix.withoutModifier) ↔
      suffix.attributes = [] ∨ canonical b = Dialect.mysql.normalType b := by
  have hname := hinteger
  rw [normalType_name _ h.left] at hname
  have ha := not_isZoned_of_mem_mysqlIntegers (mem_mysqlIntegers_of_unalias hname)
  have hother := hinteger
  rw [h.same, normalType_name _ h.right] at hother
  have hb := mem_mysqlIntegers_of_unalias hother
  rw [normalType_spelling_of_not_isZoned _ h.left ha hmodifier,
    normalModified_integer hinteger hmodifier hwidth, normalType_spelling_none _ h.right rfl,
    h.same]
  change _ = unalias mysqlAliases (String.ofList (_ ++ suffix.canonicalWords)) ↔ _
  by_cases hattributes : suffix.attributes = []
  · refine iff_of_true ?_ (Or.inl hattributes)
    rw [Suffix.canonicalWords_eq_nil hattributes, List.append_nil, String.ofList_toList,
      String.ofList_nil, String.append_empty]
    exact normalType_name _ h.right
  · rw [unalias_integer_append hb (Suffix.space_mem_canonicalWords hattributes),
      String.ofList_append, String.ofList_toList, String.append_left_inj, eq_comm]
    exact (or_iff_right hattributes).symm

/-! ### Aliases that stay aliases -/

/-- The suffixes with which two aliases have one normal form: any if the names are spelled alike,
none at all, and a modifier if it stands behind both names. -/
def StayAliases (a b : String) (suffix : Suffix) : Prop :=
  canonical a = canonical b ∨ (suffix.modifier = none ∧ suffix.attributes = []) ∨
    (suffix.modifier ≠ none ∧ ¬IsZoned a ∧ ¬IsZoned b)

/-- **Aliases with one suffix** have one normal form if and only if they stay aliases with it. -/
theorem normalType_spelling_eq_iff (h : d.AreAliases a b) (suffix : Suffix) :
    d.normalType (spelling a suffix) = d.normalType (spelling b suffix) ↔
      StayAliases a b suffix := by
  constructor
  · intro hnormal
    cases hmodifier : suffix.modifier with
    | none =>
      by_cases hattributes : suffix.attributes = []
      · exact Or.inr (Or.inl ⟨hmodifier, hattributes⟩)
      · exact Or.inl
          (canonical_eq_of_normalType_eq_none h.left h.right hmodifier hattributes hnormal)
    | some text =>
      by_cases hzoned : IsZoned a ∨ IsZoned b
      · exact Or.inl (canonical_eq_of_normalType_eq_some h hzoned hmodifier hnormal)
      · exact Or.inr (Or.inr ⟨by simp [hmodifier], not_or.mp hzoned⟩)
  · rintro (hsame | ⟨hmodifier, hattributes⟩ | ⟨hmodifier, ha, hb⟩)
    · exact normalType_congr d (canonical_spelling_congr h.left h.right hsame suffix)
    · rw [normalType_spelling_none d h.left hmodifier, normalType_spelling_none d h.right hmodifier,
        Suffix.canonicalWords_eq_nil hattributes, List.append_nil, List.append_nil,
        String.ofList_toList, String.ofList_toList, ← normalType_name d h.left,
        ← normalType_name d h.right, h.same]
    · obtain ⟨text, htext⟩ := Option.ne_none_iff_exists'.mp hmodifier
      rw [normalType_spelling_of_not_isZoned d h.left ha htext,
        normalType_spelling_of_not_isZoned d h.right hb htext, h.same]

end TypeName

theorem Diff.typeDrift_eq_none_iff (d : Dialect) (declared found : Column) :
    typeDrift d declared found = none ↔
      found.columnType = "" ∨ declared.primaryKey = true ∨ found.generated.isSome = true ∨
        d.normalType declared.columnType = d.normalType found.columnType := by
  rw [typeDrift]
  split
  · rename_i hskipped
    simp only [Bool.or_eq_true, String.isEmpty_iff] at hskipped
    exact iff_of_true rfl (by tauto)
  · rename_i hcompared
    simp only [Bool.or_eq_true, String.isEmpty_iff, not_or] at hcompared
    obtain ⟨⟨hfound, hkey⟩, hgenerated⟩ := hcompared
    simp [hfound, hkey, hgenerated]

/-- **Aliases with a modifier and attributes.** Two aliases have one normal form with one suffix,
and no drift is found between them, if and only if they stay aliases with it. In MySQL, a display
width behind an integer type counts for nothing, if the alias without it is the name that stands for
the type, or if there are no attributes. -/
theorem Dialect.normalType_spelling_iff {d : Dialect} {a b : String} (h : d.AreAliases a b)
    (suffix : Suffix) :
    (d.normalType (spelling a suffix) = d.normalType (spelling b suffix) ↔
        StayAliases a b suffix) ∧
      (∀ declared found : Column,
        Diff.typeDrift d { declared with columnType := spelling a suffix }
            { found with columnType := spelling b suffix } = none ↔
          declared.primaryKey = true ∨ found.generated.isSome = true ∨ StayAliases a b suffix) ∧
      (d = .mysql → d.normalType a ∈ mysqlIntegers → ∀ width, suffix.modifier = some width →
        ¬(d.normalType a = "TINYINT" ∧ width = "1") →
        (d.normalType (spelling a suffix) = d.normalType (spelling b suffix.withoutModifier) ↔
          suffix.attributes = [] ∨ canonical b = d.normalType b)) := by
  refine ⟨normalType_spelling_eq_iff h suffix, fun declared found => ?_, ?_⟩
  · rw [Diff.typeDrift_eq_none_iff, or_iff_right (spelling_ne_empty h.right suffix),
      normalType_spelling_eq_iff h suffix]
  · rintro rfl hinteger width hmodifier hwidth
    exact normalType_integer_iff h hinteger hmodifier hwidth

/-- Precision and scale of a number. -/
def precisionAndScale : Suffix :=
  .ofModifier "10,2" (by decide)

/-- Precision and scale stay behind either name of one type. -/
theorem normalType_spelling_iff_decimal :
    Dialect.postgres.AreAliases "decimal" "NUMERIC" ∧
      spelling "decimal" precisionAndScale = "decimal(10,2)" ∧
      Dialect.postgres.normalType (spelling "decimal" precisionAndScale) =
        Dialect.postgres.normalType (spelling "NUMERIC" precisionAndScale) := by
  have haliases : Dialect.postgres.AreAliases "decimal" "NUMERIC" :=
    ⟨by decide, by decide, by decide⟩
  have hstay : StayAliases "decimal" "NUMERIC" precisionAndScale :=
    Or.inr (Or.inr ⟨by decide, by decide, by decide⟩)
  exact ⟨haliases, by decide,
    (Dialect.normalType_spelling_iff haliases precisionAndScale).1.mpr hstay⟩

/-- A precision of three. -/
def precisionThree : Suffix :=
  .ofModifier "3" (by decide)

/-- The attribute of the integers without a sign. -/
def unsigned : Suffix :=
  .ofAttributes ["UNSIGNED"] (by decide)

/-- Two pairs of aliases that are none any longer with a precision and with an attribute, and the
drift that is reported for the first one. -/
theorem normalType_spelling_losesAliases :
    (Dialect.postgres.AreAliases "TIMESTAMPTZ" "timestamp with time zone" ∧
        spelling "TIMESTAMPTZ" precisionThree = "TIMESTAMPTZ(3)" ∧
        spelling "timestamp with time zone" precisionThree = "timestamp(3) with time zone" ∧
        Diff.typeDrift .postgres { name := "paid_at", columnType := "TIMESTAMPTZ(3)" }
            { name := "paid_at", columnType := "timestamp(3) with time zone" } =
          some "type is TIMESTAMP(3) WITH TIME ZONE, declared TIMESTAMPTZ(3)") ∧
      ∀ d ∈ [Dialect.postgres, .mysql, .sqlite], d.AreAliases "INTEGER" "INT" ∧
        spelling "INTEGER" unsigned = "INTEGER UNSIGNED" ∧
        spelling "INT" unsigned = "INT UNSIGNED" ∧
        d.normalType "INTEGER UNSIGNED" ≠ d.normalType "INT UNSIGNED" := by
  have hzoned : Dialect.postgres.AreAliases "TIMESTAMPTZ" "timestamp with time zone" :=
    ⟨by decide, by decide, by decide⟩
  have hsame : ∀ d ∈ [Dialect.postgres, .mysql, .sqlite],
      d.normalType "INTEGER" = d.normalType "INT" := by decide
  have hattribute : ∀ d ∈ [Dialect.postgres, .mysql, .sqlite],
      d.normalType "INTEGER UNSIGNED" ≠ d.normalType "INT UNSIGNED" := by decide
  refine ⟨⟨hzoned, by decide, by decide, by decide⟩, fun d hd => ?_⟩
  exact ⟨⟨by decide, by decide, hsame d hd⟩, by decide, by decide, hattribute d hd⟩

end AdditiveSchema
