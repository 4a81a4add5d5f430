import AdditiveSchema.Proofs.TypeName.Spelling

/-!
# Normal types

The normal form of a type is made of the name that stands for its base, which is what is in front of
its first parenthesis, and of the rest. A type without parentheses is all base, its attributes
included.

## Main definitions

* `Dialect.typeAliases` : the aliases of a dialect.
* `TypeName.normalModified` : a name and the text in parentheses behind it.

## Main results

* `TypeName.normalType_of_noMark`, `TypeName.normalType_of_base` : types without and with
  parentheses.
* `TypeName.normalType_spelling_none`, `TypeName.normalType_spelling_some` : spellings of a type.
-/

namespace AdditiveSchema

open AdditiveSchema.Text AdditiveSchema.TypeName

/-- The aliases of the types of a dialect. -/
def Dialect.typeAliases : Dialect → List (String × String)
  | .postgres => postgresAliases
  | .mysql => mysqlAliases
  | .sqlite => sqliteAliases

namespace TypeName

variable {a s text base : String} {cs rest : List Char} {suffix : Suffix}

/-! ### Base and rest -/

/-- What can stand in front of a parenthesis in a canonical type. -/
structure IsBase (cs : List Char) : Prop where
  noMark : ∀ c ∈ cs, closesUp c = false
  noBlank : ∀ c ∈ cs.getLast?, isBlank c = false

theorem not_opens {c : Char} (h : closesUp c = false) : (!(c == '(' || c == '[')) = true := by
  simp only [closesUp, Bool.or_eq_false_iff] at h
  simp [h.1.1.1, h.2]

theorem baseAndRest_of_noMark (h : ∀ c ∈ cs, closesUp c = false) : baseAndRest cs = (cs, []) := by
  have hnil := List.dropWhile_eq_nil_iff.mpr fun c hc => not_opens (h c hc)
  rw [baseAndRest]
  dsimp only
  rw [hnil]

theorem baseAndRest_append (h : IsBase cs) (rest : List Char) :
    baseAndRest (cs ++ '(' :: rest) = (cs, '(' :: rest) := by
  have hopens : ∀ c ∈ cs, (!(c == '(' || c == '[')) = true := fun c hc => not_opens (h.noMark c hc)
  rw [baseAndRest]
  dsimp only
  rw [List.dropWhile_append_of_pos hopens, List.takeWhile_append_of_pos hopens,
    List.dropWhile_cons_of_neg (by decide), List.takeWhile_cons_of_neg (by decide), List.append_nil,
    trimEnd_eq_self h.noBlank]

/-! ### Aliases -/

theorem unalias_cases (aliases : List (String × String)) (base : String) :
    (base, unalias aliases base) ∈ aliases ∨ unalias aliases base = base := by
  rw [unalias]
  cases hlookup : aliases.lookup base with
  | none => exact Or.inr rfl
  | some name =>
    obtain ⟨front, behind, htable, -⟩ := List.lookup_eq_some_iff.mp hlookup
    exact Or.inl (by simp [htable])

theorem unalias_eq_tinyint_iff : unalias mysqlAliases base = "TINYINT" ↔ base = "TINYINT" := by
  have htable : ∀ entry ∈ mysqlAliases, entry.1 ≠ "TINYINT" ∧ entry.2 ≠ "TINYINT" := by decide
  rcases unalias_cases mysqlAliases base with hentry | hself
  · exact iff_of_false (htable _ hentry).2 (htable _ hentry).1
  · rw [hself]

/-! ### Normal forms -/

/-- What is made of a name and the text behind it, which begins with a parenthesis. -/
def normalModified (d : Dialect) (name : String) (rest : List Char) : String :=
  match d with
  | .postgres | .sqlite => name ++ String.ofList rest
  | .mysql =>
    if name == "TINYINT" && "(1)".toList.isPrefixOf rest then "BOOLEAN"
    else
      let rest := if mysqlIntegers.contains name then behindWidth rest else rest
      let gap := !rest.isEmpty && rest.head? != some '('
      name ++ (if gap then " " else "") ++ String.ofList rest

/-- **A type without parentheses** is looked up as a whole. -/
theorem normalType_of_noMark (d : Dialect) (h : ∀ c ∈ (canonical s).toList, closesUp c = false) :
    d.normalType s = unalias d.typeAliases (canonical s) := by
  have hsplit := baseAndRest_of_noMark h
  cases d with
  | postgres => simp [Dialect.normalType, unaliased, hsplit, Dialect.typeAliases]
  | mysql => simp [Dialect.normalType, mysqlNormal, hsplit, Dialect.typeAliases, behindWidth]
  | sqlite => simp [Dialect.normalType, unaliased, hsplit, Dialect.typeAliases]

/-- **A type with parentheses** is looked up by what is in front of them. -/
theorem normalType_of_base (d : Dialect) (h : IsBase cs)
    (hs : (canonical s).toList = cs ++ '(' :: rest) :
    d.normalType s =
      normalModified d (unalias d.typeAliases (String.ofList cs)) ('(' :: rest) := by
  have hsplit : baseAndRest (canonical s).toList = (cs, '(' :: rest) := by
    rw [hs, baseAndRest_append h]
  cases d with
  | postgres => simp [Dialect.normalType, unaliased, hsplit, Dialect.typeAliases, normalModified]
  | mysql =>
    have htinyint : (String.ofList cs == "TINYINT") =
        (unalias mysqlAliases (String.ofList cs) == "TINYINT") := by
      rw [Bool.eq_iff_iff, beq_iff_eq, beq_iff_eq, unalias_eq_tinyint_iff]
    rw [Dialect.normalType, mysqlNormal]
    simp only [hsplit, htinyint]
    rfl
  | sqlite => simp [Dialect.normalType, unaliased, hsplit, Dialect.typeAliases, normalModified]

theorem normalType_congr (d : Dialect) {t : String} (h : canonical s = canonical t) :
    d.normalType s = d.normalType t := by
  simp only [Dialect.normalType, h]

theorem normalType_name (d : Dialect) (h : IsName a) :
    d.normalType a = unalias d.typeAliases (canonical a) :=
  normalType_of_noMark d (closesUp_of_mem_canonical h)

theorem normalType_spelling_none (d : Dialect) (h : IsName a) (hmodifier : suffix.modifier = none) :
    d.normalType (spelling a suffix) = unalias d.typeAliases
      (String.ofList ((canonical a).toList ++ suffix.canonicalWords)) := by
  have hs := toList_canonical_spelling_none h hmodifier
  have hmark : ∀ c ∈ (canonical (spelling a suffix)).toList, closesUp c = false := by
    rw [hs]
    intro c hc
    rcases List.mem_append.mp hc with hc | hc
    · exact closesUp_of_mem_canonical h c hc
    · exact suffix.closesUp_of_mem_canonicalWords c hc
  rw [normalType_of_noMark d hmark, ← hs, String.ofList_toList]

theorem isBase_canonicalStem (h : IsName a) : IsBase (canonicalStemAndZone a).1 := by
  have hstem := congrArg Prod.fst (canonicalStemAndZone_eq h)
  dsimp only at hstem
  rw [hstem]
  exact ⟨closesUp_of_mem_spaced (closesUp_stemAndZone h).1, getLast?_spaced⟩

theorem normalType_spelling_some (d : Dialect) (h : IsName a)
    (hmodifier : suffix.modifier = some text) :
    d.normalType (spelling a suffix) =
      normalModified d (unalias d.typeAliases (String.ofList (canonicalStemAndZone a).1))
        ('(' :: (text.toList ++ ')' :: ((canonicalStemAndZone a).2 ++ suffix.canonicalWords))) :=
  normalType_of_base d (isBase_canonicalStem h) (toList_canonical_spelling_some h hmodifier)

/-- **A modifier behind the whole name** is kept behind the name that stands for it. -/
theorem normalType_spelling_of_not_isZoned (d : Dialect) (h : IsName a) (hzoned : ¬IsZoned a)
    (hmodifier : suffix.modifier = some text) :
    d.normalType (spelling a suffix) =
      normalModified d (d.normalType a) ('(' :: (text.toList ++ ')' :: suffix.canonicalWords)) := by
  rw [normalType_spelling_some d h hmodifier, canonicalStemAndZone_of_not_isZoned hzoned,
    normalType_name d h, String.ofList_toList, List.nil_append]

end TypeName

end AdditiveSchema
