import AdditiveSchema.Proofs.TypeName.Spacing
import Mathlib.Data.List.Chain
import Mathlib.Logic.Relation

/-!
# Canonical types as normal forms

Types that differ only in their case and in blanks that mean nothing have one canonical form, and
all others have different ones. Blanks mean nothing beyond the fact that they are there, and not
even that at the ends, in front of a parenthesis, comma or opening bracket, and behind an opening
parenthesis or comma.

## Main definitions

* `TypeName.Respaces` : one change of the blanks of a text that does not matter.
* `TypeName.IsWellSpaced` : no blanks at the ends and no two in a row.

## Main results

* `TypeName.spaced_eq_iff` : which texts are written alike.
* `TypeName.canonical_isNormalForm` : canonical types are normal forms for spacing.
-/

namespace AdditiveSchema.TypeName

open AdditiveSchema.Text

variable {c l : Char} {cs ds blanks : List Char} {last : Option Char} {gap : Bool}

/-- One change of the blanks of a text that does not matter. -/
inductive Respaces : List Char → List Char → Prop
  /-- There are other blanks where there were some. -/
  | swap {front run run' behind : List Char} (hne : run ≠ []) (hne' : run' ≠ [])
    (h : ∀ c ∈ run, isBlank c = true) (h' : ∀ c ∈ run', isBlank c = true) :
    Respaces (front ++ (run ++ behind)) (front ++ (run' ++ behind))
  /-- There are more blanks at the front. -/
  | first {blanks cs : List Char} (h : ∀ c ∈ blanks, isBlank c = true) : Respaces cs (blanks ++ cs)
  /-- There are more blanks at the end. -/
  | last {cs blanks : List Char} (h : ∀ c ∈ blanks, isBlank c = true) : Respaces cs (cs ++ blanks)
  /-- There are more blanks in front of a parenthesis, a comma or an opening bracket. -/
  | before {front blanks behind : List Char} {c : Char} (hc : c = '(' ∨ c = ')' ∨ c = ',' ∨ c = '[')
    (h : ∀ c ∈ blanks, isBlank c = true) :
    Respaces (front ++ c :: behind) (front ++ (blanks ++ c :: behind))
  /-- There are more blanks behind an opening parenthesis or a comma. -/
  | after {front blanks behind : List Char} {c : Char} (hc : c = '(' ∨ c = ',')
    (h : ∀ c ∈ blanks, isBlank c = true) :
    Respaces (front ++ c :: behind) (front ++ c :: (blanks ++ behind))

/-- The text has no blanks at its ends and no two in a row. -/
structure IsWellSpaced (cs : List Char) : Prop where
  head : ∀ c ∈ cs.head?, isBlank c = false
  last : ∀ c ∈ cs.getLast?, isBlank c = false
  single : cs.IsChain fun a b => isBlank a = false ∨ isBlank b = false

/-! ### Marks -/

theorem closesUp_eq_true_iff : closesUp c = true ↔ c = '(' ∨ c = ')' ∨ c = ',' ∨ c = '[' := by
  simp [closesUp, or_assoc]

theorem opensUp_eq_true_iff : opensUp c = true ↔ c = '(' ∨ c = ',' := by
  simp [opensUp]

theorem isBlank_of_closesUp (h : closesUp c = true) : isBlank c = false := by
  rcases closesUp_eq_true_iff.mp h with rfl | rfl | rfl | rfl <;> decide

theorem closesUp_of_opensUp (h : opensUp c = true) : closesUp c = true :=
  closesUp_eq_true_iff.mpr ((opensUp_eq_true_iff.mp h).imp_right fun h => Or.inr (Or.inl h))

/-! ### Blanks that do not matter -/

theorem spaced_blanks_append (hne : blanks ≠ []) (h : ∀ c ∈ blanks, isBlank c = true)
    (last : Option Char) (gap : Bool) (cs : List Char) :
    spaced last gap (blanks ++ cs) = spaced last true cs := by
  induction blanks generalizing gap with
  | nil => exact absurd rfl hne
  | cons b blanks ih =>
    obtain ⟨hb, hblanks⟩ := List.forall_mem_cons.mp h
    rw [List.cons_append, spaced_cons_blank hb]
    cases blanks with
    | nil => rfl
    | cons b' blanks => exact ih (List.cons_ne_nil _ _) hblanks true

/-- Where it does not matter whether there are blanks, it does not matter which. -/
theorem spaced_blanks_append_of_gap (h : ∀ c ∈ blanks, isBlank c = true)
    (hgap : ∀ gap, spaced last gap cs = spaced last true cs) (gap : Bool) :
    spaced last gap (blanks ++ cs) = spaced last gap cs := by
  cases blanks with
  | nil => rfl
  | cons b blanks => rw [spaced_blanks_append (List.cons_ne_nil _ _) h, ← hgap gap]

theorem spaced_cons_of_closesUp (h : closesUp c = true) (last : Option Char) (gap : Bool)
    (cs : List Char) : spaced last gap (c :: cs) = c :: spaced (some c) false cs := by
  rw [spaced_cons (isBlank_of_closesUp h), h]
  simp

theorem spaced_of_opensUp (h : opensUp l = true) (gap : Bool) (cs : List Char) :
    spaced (some l) gap cs = spaced (some l) true cs := by
  cases cs with
  | nil => rfl
  | cons c cs =>
    cases hc : isBlank c with
    | true => rw [spaced_cons_blank hc, spaced_cons_blank hc]
    | false => simp [spaced_cons hc, h]

/-- **Texts that are written alike:** changes that do not matter. -/
theorem Respaces.spaced_eq (h : Respaces cs ds) : spaced none false cs = spaced none false ds := by
  cases h with
  | swap hne hne' hrun hrun' =>
    rw [spaced_append none false _ (_ ++ _), spaced_append none false _ (_ ++ _),
      spaced_blanks_append hne hrun, spaced_blanks_append hne' hrun']
  | first hblanks =>
    refine (spaced_blanks_append_of_gap hblanks (fun gap => ?_) false).symm
    rw [spaced_none gap, spaced_none true]
  | last hblanks => rw [spaced_append none false cs, spaced_of_blanks hblanks, List.append_nil]
  | before hc hblanks =>
    have hclose := closesUp_eq_true_iff.mpr hc
    rw [spaced_append, spaced_append, spaced_blanks_append_of_gap hblanks fun gap => ?_]
    rw [spaced_cons_of_closesUp hclose, spaced_cons_of_closesUp hclose]
  | after hc hblanks =>
    have hopen := opensUp_eq_true_iff.mpr hc
    have hclose := closesUp_of_opensUp hopen
    rw [spaced_append, spaced_append, spaced_cons_of_closesUp hclose,
      spaced_cons_of_closesUp hclose,
      spaced_blanks_append_of_gap hblanks fun gap => spaced_of_opensUp hopen gap _]

/-! ### A text and what is written for it -/

/-- The texts differ only in blanks that do not matter. -/
def Respaced : List Char → List Char → Prop :=
  Relation.EqvGen Respaces

theorem Respaces.respaced (h : Respaces cs ds) : Respaced cs ds :=
  .rel _ _ h

namespace Respaced

variable {es : List Char}

theorem refl (cs : List Char) : Respaced cs cs :=
  Relation.EqvGen.refl cs

theorem symm (h : Respaced cs ds) : Respaced ds cs :=
  Relation.EqvGen.symm _ _ h

theorem trans (h : Respaced cs ds) (h' : Respaced ds es) : Respaced cs es :=
  Relation.EqvGen.trans _ _ _ h h'

theorem spaced_eq (h : Respaced cs ds) : spaced none false cs = spaced none false ds := by
  induction h with
  | rel _ _ h => exact h.spaced_eq
  | refl _ => rfl
  | symm _ _ _ ih => exact ih.symm
  | trans _ _ _ _ _ ih ih' => exact ih.trans ih'

end Respaced

/-- The space that is due if there were blanks. -/
def dueSpace (gap : Bool) : List Char :=
  if gap then [' '] else []

theorem isBlank_of_mem_dueSpace (h : c ∈ dueSpace gap) : isBlank c = true := by
  cases gap with
  | true => exact List.mem_singleton.mp h ▸ rfl
  | false => cases h

theorem respaced_dueSpace_cons (hc : isBlank c = true) (front : List Char) (gap : Bool)
    (cs : List Char) :
    Respaced (front ++ (dueSpace gap ++ c :: cs)) (front ++ (dueSpace true ++ cs)) := by
  have hrun : ∀ b ∈ dueSpace gap ++ [c], isBlank b = true := by
    intro b hb
    rcases List.mem_append.mp hb with hb | hb
    · exact isBlank_of_mem_dueSpace hb
    · exact List.mem_singleton.mp hb ▸ hc
  have hspace : ∀ b ∈ dueSpace true, isBlank b = true := fun b => isBlank_of_mem_dueSpace
  have hswap : Respaces (front ++ ((dueSpace gap ++ [c]) ++ cs)) (front ++ (dueSpace true ++ cs)) :=
    .swap (by simp) (List.cons_ne_nil ' ' []) hrun hspace
  rw [List.append_assoc] at hswap
  exact hswap.respaced

/-- A space that is not written does not matter. -/
theorem respaced_of_not_written {front : List Char}
    (h : (gap && !closesUp c && front.getLast?.any fun l => !opensUp l) = false) (cs : List Char) :
    Respaced (front ++ (dueSpace gap ++ c :: cs)) (front ++ c :: cs) := by
  have hblanks : ∀ b ∈ dueSpace gap, isBlank b = true := fun b => isBlank_of_mem_dueSpace
  rw [Bool.and_eq_false_iff, Bool.and_eq_false_iff, Bool.not_eq_false'] at h
  rcases h with (rfl | hclose) | hlast
  · exact .refl _
  · exact (Respaces.before (closesUp_eq_true_iff.mp hclose) hblanks).respaced.symm
  · rcases List.eq_nil_or_concat' front with rfl | ⟨front, l, rfl⟩
    · exact (Respaces.first hblanks).respaced.symm
    · have hopen : opensUp l = true := by simpa using hlast
      have hafter : Respaces (front ++ l :: (c :: cs)) (front ++ l :: (dueSpace gap ++ c :: cs)) :=
        .after (opensUp_eq_true_iff.mp hopen) hblanks
      simpa using hafter.respaced.symm

/-- **What is written for a text** differs from it only in blanks that do not matter, whatever is
written in front of it. -/
theorem respaced_append_spaced (front : List Char) (gap : Bool) (cs : List Char) :
    Respaced (front ++ (dueSpace gap ++ cs)) (front ++ spaced front.getLast? gap cs) := by
  -- the state of the writer is what it wrote, with a space at its end if there were blanks
  induction cs generalizing front gap with
  | nil =>
    have hlast : Respaces front (front ++ dueSpace gap) := .last fun b => isBlank_of_mem_dueSpace
    simpa [spaced] using hlast.respaced.symm
  | cons c cs ih =>
    cases hc : isBlank c with
    | true =>
      rw [spaced_cons_blank hc]
      exact (respaced_dueSpace_cons hc front gap cs).trans (ih front true)
    | false =>
      rw [spaced_cons hc]
      split
      · rename_i hspace
        obtain ⟨⟨rfl, -⟩, -⟩ := by simpa only [Bool.and_eq_true] using hspace
        simpa [dueSpace] using ih (front ++ [' ', c]) false
      · rename_i hspace
        refine (respaced_of_not_written (Bool.not_eq_true _ ▸ hspace) cs).trans ?_
        simpa [dueSpace] using ih (front ++ [c]) false

theorem respaced_spaced (cs : List Char) : Respaced cs (spaced none false cs) :=
  respaced_append_spaced [] false cs

/-- **Which texts are written alike:** those that differ only in blanks that do not matter. -/
theorem spaced_eq_iff : spaced none false cs = spaced none false ds ↔ Respaced cs ds := by
  refine ⟨fun h => (respaced_spaced cs).trans ?_, Respaced.spaced_eq⟩
  rw [h]
  exact (respaced_spaced ds).symm

/-! ### What is written -/

theorem head?_spaced_none (gap : Bool) (cs : List Char) :
    ∀ c ∈ (spaced none gap cs).head?, isBlank c = false := by
  induction cs generalizing gap with
  | nil => rintro _ ⟨⟩
  | cons c cs ih =>
    cases hc : isBlank c with
    | true =>
      rw [spaced_cons_blank hc]
      exact ih true
    | false =>
      rw [spaced_cons hc]
      simp [hc]

/-- No two blanks are written in a row. -/
theorem isChain_spaced (last : Option Char) (gap : Bool) (cs : List Char) :
    (spaced last gap cs).IsChain fun a b => isBlank a = false ∨ isBlank b = false := by
  induction cs generalizing last gap with
  | nil => exact .nil
  | cons c cs ih =>
    cases hc : isBlank c with
    | true =>
      rw [spaced_cons_blank hc]
      exact ih last true
    | false =>
      have hcons : (c :: spaced (some c) false cs).IsChain fun a b =>
          isBlank a = false ∨ isBlank b = false :=
        List.isChain_cons.mpr ⟨fun _ _ => Or.inl hc, ih (some c) false⟩
      rw [spaced_cons hc]
      split
      · exact .cons_cons (Or.inr hc) hcons
      · exact hcons

theorem isWellSpaced_spaced (cs : List Char) : IsWellSpaced (spaced none false cs) :=
  ⟨head?_spaced_none false cs, getLast?_spaced, isChain_spaced none false cs⟩

/-! ### Upper case -/

theorem uppercase_cons_of_mark (hc : c = '(' ∨ c = ')' ∨ c = ',' ∨ c = '[') (cs : List Char) :
    uppercase (c :: cs) = c :: uppercase cs :=
  uppercase_cons_of_not_isWordChar (by simp [isWordChar, closesUp_eq_true_iff.mpr hc]) cs

/-- Blanks that do not matter do not matter in the upper case. -/
theorem Respaces.uppercase (h : Respaces cs ds) :
    Respaces (Text.uppercase cs) (Text.uppercase ds) := by
  cases h with
  | swap hne hne' hrun hrun' =>
    simp only [uppercase_append, uppercase_of_blanks hrun, uppercase_of_blanks hrun']
    exact .swap hne hne' hrun hrun'
  | first hblanks =>
    rw [uppercase_append, uppercase_of_blanks hblanks]
    exact .first hblanks
  | last hblanks =>
    rw [uppercase_append, uppercase_of_blanks hblanks]
    exact .last hblanks
  | before hc hblanks =>
    simp only [uppercase_append, uppercase_of_blanks hblanks, uppercase_cons_of_mark hc]
    exact .before hc hblanks
  | after hc hblanks =>
    have hclose := closesUp_of_opensUp (opensUp_eq_true_iff.mpr hc)
    simp only [uppercase_append, uppercase_of_blanks hblanks,
      uppercase_cons_of_mark (closesUp_eq_true_iff.mp hclose)]
    exact .after hc hblanks

theorem Respaced.uppercase (h : Respaced cs ds) :
    Respaced (Text.uppercase cs) (Text.uppercase ds) := by
  induction h with
  | rel _ _ h => exact h.uppercase.respaced
  | refl cs => exact .refl _
  | symm _ _ _ ih => exact ih.symm
  | trans _ _ _ _ _ ih ih' => exact ih.trans ih'

/-- What is written for an upper case is its own upper case. -/
theorem uppercase_spaced_uppercase (cs : List Char) :
    uppercase (spaced none false (uppercase cs)) = spaced none false (uppercase cs) := by
  have hstays : ∀ u ∈ spaced none false (uppercase cs), uppercaseChar u = [u] := by
    intro u hu
    rcases eq_space_or_mem_of_mem_spaced hu with rfl | hu
    · rfl
    · obtain ⟨c, -, huc⟩ := List.mem_flatMap.mp hu
      exact uppercaseChar_of_mem_uppercaseChar huc
  rw [uppercase, List.flatMap_congr hstays, List.flatMap_singleton']

/-! ### Canonical types -/

theorem canonical_eq_iff {s t : String} :
    canonical s = canonical t ↔ Respaced (uppercase s.toList) (uppercase t.toList) := by
  rw [← String.toList_inj, toList_canonical, toList_canonical, spaced_eq_iff]

/-- **Canonical types are normal forms for spacing.** The canonical form of a canonical type is the
type itself. A type has the same canonical form if some of its blanks are exchanged for others, if
blanks are added at its ends, in front of a parenthesis, a comma or an opening bracket, or behind an
opening parenthesis or a comma, and that any number of times. Two types have the same canonical form
if and only if their upper cases differ in nothing else. And in a canonical type there are no blanks
at the ends and no two in a row. -/
theorem canonical_isNormalForm (s : String) :
    canonical (canonical s) = canonical s ∧
    (∀ t, Relation.EqvGen Respaces s.toList t.toList → canonical t = canonical s) ∧
    (∀ t, canonical t = canonical s ↔
      Relation.EqvGen Respaces (uppercase s.toList) (uppercase t.toList)) ∧
    IsWellSpaced (canonical s).toList := by
  refine ⟨?_, fun t h => ?_, fun t => ?_, ?_⟩
  · rw [canonical_eq_iff, toList_canonical, uppercase_spaced_uppercase]
    exact (respaced_spaced _).symm
  · exact canonical_eq_iff.mpr (Respaced.uppercase h).symm
  · rw [eq_comm]
    exact canonical_eq_iff
  · rw [toList_canonical]
    exact isWellSpaced_spaced _

/-- Blanks at the front, in front of a parenthesis and behind a comma do not matter. -/
theorem canonical_isNormalForm_decimal :
    Relation.EqvGen Respaces "decimal(4,2)".toList "\tdecimal (4,  2)".toList ∧
      canonical "\tdecimal (4,  2)" = canonical "decimal(4,2)" := by
  have hcomma : Respaces "decimal(4,2)".toList "decimal(4,  2)".toList := by
    rw [show "decimal(4,2)".toList = "decimal(4".toList ++ ',' :: "2)".toList by decide,
      show "decimal(4,  2)".toList = "decimal(4".toList ++ ',' :: ("  ".toList ++ "2)".toList) by
        decide]
    exact .after (by decide) (List.all_eq_true.mp (by decide))
  have hparen : Respaces "decimal(4,  2)".toList "decimal (4,  2)".toList := by
    rw [show "decimal(4,  2)".toList = "decimal".toList ++ '(' :: "4,  2)".toList by decide,
      show "decimal (4,  2)".toList = "decimal".toList ++ (" ".toList ++ '(' :: "4,  2)".toList) by
        decide]
    exact .before (by decide) (List.all_eq_true.mp (by decide))
  have hfirst : Respaces "decimal (4,  2)".toList "\tdecimal (4,  2)".toList := by
    rw [show "\tdecimal (4,  2)".toList = "\t".toList ++ "decimal (4,  2)".toList by decide]
    exact .first (List.all_eq_true.mp (by decide))
  have h : Respaced "decimal(4,2)".toList "\tdecimal (4,  2)".toList :=
    (hcomma.respaced.trans hparen.respaced).trans hfirst.respaced
  exact ⟨h, (canonical_isNormalForm "decimal(4,2)").2.1 _ h⟩

/-- Behind a closing parenthesis a blank does matter. -/
example : canonical "time(3)with time zone" ≠ canonical "time(3) with  time zone" := by
  decide +kernel

end AdditiveSchema.TypeName
