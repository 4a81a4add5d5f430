import AdditiveSchema.Directive.Modifier
import AdditiveSchema.Proofs.Except
import AdditiveSchema.Proofs.List
import Mathlib.Data.List.Basic

/-!
# The grammar of values

The first value of a text is cut off by one scan that keeps the open braces on a stack. All that
matters of the stack is how many there are, so the scan agrees with a grammar that only counts
braces. A text is balanced if it has as many opening braces as closing ones, and none of its
beginnings has more closing ones. A value between braces is the balanced text up to the brace that
closes the first one; any other value is a balanced text whose blanks stand inside of braces, and a
blank or the end of the text comes behind it.

## Main definitions

* `IsBalanced` : the braces of a text match.
* `depthBehind` : how many braces are open behind a text.
* `ReadsBare` : what is read of a text without braces around it.
* `IsFirstValue` : the grammar of the first value of a text without blanks in front.

## Main results

* `depthBehind_eq_some_iff` : how many braces are open, by counting.
* `scan_bare_eq_ok_iff`, `scan_braced_eq_ok_iff` : what the scan reads.
* `cutAt_eq_ok_iff` : the first value is cut off if and only if the grammar has one.
-/

namespace AdditiveSchema.Directive

open AdditiveSchema.Text

/-! ### Balanced texts -/

/-- The text has as many opening braces as closing ones, and none of its beginnings has more closing
ones. -/
structure IsBalanced (cs : List Char) : Prop where
  count_eq : cs.count '{' = cs.count '}'
  count_le : ∀ front, front <+: cs → front.count '}' ≤ front.count '{'

/-- The number of open braces behind one more character. There is none behind a closing brace that
closes nothing. -/
def stepDepth (depth : Nat) (c : Char) : Option Nat :=
  if c = '{' then some (depth + 1)
  else if c = '}' then if depth = 0 then none else some (depth - 1)
  else some depth

/-- The number of open braces behind the text. -/
def depthBehind (depth : Nat) (cs : List Char) : Option Nat :=
  cs.foldlM stepDepth depth

@[simp] theorem depthBehind_nil (depth : Nat) : depthBehind depth [] = some depth := rfl

theorem depthBehind_cons (depth : Nat) (c : Char) (cs : List Char) :
    depthBehind depth (c :: cs) = (stepDepth depth c).bind (depthBehind · cs) := rfl

theorem depthBehind_append (depth : Nat) (cs ds : List Char) :
    depthBehind depth (cs ++ ds) = (depthBehind depth cs).bind (depthBehind · ds) :=
  List.foldlM_append

/-- A character is a brace of one of the two kinds, or none. -/
theorem brace_cases (c : Char) : c = '{' ∨ c = '}' ∨ c ≠ '{' ∧ c ≠ '}' := by
  by_cases hopen : c = '{'
  · exact .inl hopen
  · by_cases hclose : c = '}'
    · exact .inr (.inl hclose)
    · exact .inr (.inr ⟨hopen, hclose⟩)

@[simp] theorem stepDepth_open (depth : Nat) : stepDepth depth '{' = some (depth + 1) := rfl

@[simp] theorem stepDepth_zero_close : stepDepth 0 '}' = none := rfl

@[simp] theorem stepDepth_succ_close (depth : Nat) : stepDepth (depth + 1) '}' = some depth := rfl

theorem stepDepth_of_ne {c : Char} (hopen : c ≠ '{') (hclose : c ≠ '}') (depth : Nat) :
    stepDepth depth c = some depth := by
  rw [stepDepth, if_neg hopen, if_neg hclose]

/-- A brace adds one or takes one away. -/
theorem stepDepth_eq_some_iff {depth depth' : Nat} {c : Char} :
    stepDepth depth c = some depth' ↔
      depth + (if c == '{' then 1 else 0) = depth' + (if c == '}' then 1 else 0) := by
  rcases brace_cases c with rfl | rfl | ⟨hopen, hclose⟩
  · simp
  · cases depth <;> simp
  · simp [stepDepth_of_ne hopen hclose, hopen, hclose]

/-- Only a closing brace cannot come behind closed braces. -/
theorem stepDepth_eq_none_iff {depth : Nat} {c : Char} :
    stepDepth depth c = none ↔ depth = 0 ∧ c = '}' := by
  rcases brace_cases c with rfl | rfl | ⟨hopen, hclose⟩
  · simp
  · cases depth <;> simp
  · simp [stepDepth_of_ne hopen hclose, hclose]

/-- **How many braces are open, by counting.** -/
theorem depthBehind_eq_some_iff {depth depth' : Nat} {cs : List Char} :
    depthBehind depth cs = some depth' ↔
      depth + cs.count '{' = depth' + cs.count '}' ∧
        ∀ front, front <+: cs → front.count '}' ≤ depth + front.count '{' := by
  induction cs generalizing depth with
  | nil => simp
  | cons c cs ih =>
    simp only [depthBehind_cons, Option.bind_eq_some_iff, stepDepth_eq_some_iff, ih,
      forall_prefix_cons_iff, List.count_cons, List.count_nil]
    generalize (if c == '{' then 1 else 0) = opening
    generalize (if c == '}' then 1 else 0) = closing
    constructor
    · rintro ⟨next, hnext, hcs, hfront⟩
      refine ⟨by omega, by omega, fun front hprefix => ?_⟩
      have := hfront front hprefix
      omega
    · rintro ⟨hcs, -, hfront⟩
      have hfirst := hfront [] List.nil_prefix
      simp only [List.count_nil] at hfirst
      refine ⟨depth + opening - closing, by omega, by omega, fun front hprefix => ?_⟩
      have := hfront front hprefix
      omega

theorem isBalanced_iff {cs : List Char} : IsBalanced cs ↔ depthBehind 0 cs = some 0 := by
  rw [depthBehind_eq_some_iff]
  simp only [Nat.zero_add]
  exact ⟨fun h => ⟨h.count_eq, h.count_le⟩, fun h => ⟨h.1, h.2⟩⟩

instance (cs : List Char) : Decidable (IsBalanced cs) :=
  decidable_of_iff _ isBalanced_iff.symm

theorem isBalanced_nil : IsBalanced [] :=
  isBalanced_iff.mpr rfl

theorem IsBalanced.append {cs ds : List Char} (hcs : IsBalanced cs) (hds : IsBalanced ds) :
    IsBalanced (cs ++ ds) := by
  rw [isBalanced_iff, depthBehind_append, isBalanced_iff.mp hcs, Option.bind_some]
  exact isBalanced_iff.mp hds

/-- A balanced text leaves the open braces in front of it as they are. -/
theorem IsBalanced.depthBehind_eq {cs : List Char} (h : IsBalanced cs) (depth : Nat) :
    depthBehind depth cs = some depth := by
  refine depthBehind_eq_some_iff.mpr ⟨by rw [h.count_eq], fun front hfront => ?_⟩
  have := h.count_le front hfront
  omega

theorem IsBalanced.braces {cs : List Char} (h : IsBalanced cs) :
    IsBalanced ('{' :: (cs ++ ['}'])) := by
  rw [isBalanced_iff, depthBehind_cons, stepDepth_open, Option.bind_some,
    depthBehind_append, h.depthBehind_eq]
  rfl

theorem isBalanced_of_isBlank {cs : List Char} (h : ∀ c ∈ cs, isBlank c = true) :
    IsBalanced cs := by
  have hopen : '{' ∉ cs := fun hmem => absurd (h _ hmem) (by decide)
  have hclose : '}' ∉ cs := fun hmem => absurd (h _ hmem) (by decide)
  refine ⟨?_, fun front hfront => ?_⟩
  · rw [List.count_eq_zero.mpr hopen, List.count_eq_zero.mpr hclose]
  · rw [List.count_eq_zero.mpr fun hmem => hclose (hfront.subset hmem)]
    exact Nat.zero_le _

/-! ### One step of the scan -/

section Scan

variable {braced : Bool} {opened : List Nat} {pos : Nat} {c : Char} {cs value rest : List Char}

/-- At the end of the text no brace may be open. -/
theorem scan_nil_eq_ok_iff :
    scan braced opened pos [] = .ok (value, rest) ↔ opened = [] ∧ value = [] ∧ rest = [] := by
  unfold scan
  split
  · rename_i hnone
    rw [List.getLast?_eq_none_iff.mp hnone]
    simp [eq_comm]
  · rename_i outermost hsome
    have hne : opened ≠ [] := by
      rintro rfl
      cases hsome
    simp [hne]

/-- A blank outside of braces ends the value. -/
theorem scan_cons_of_isBlank (hblank : isBlank c = true) :
    scan braced [] pos (c :: cs) = .ok ([], c :: cs) := by
  have hopen : c ≠ '{' := by
    rintro rfl
    exact absurd hblank (by decide)
  have hclose : c ≠ '}' := by
    rintro rfl
    exact absurd hblank (by decide)
  simp [scan, hopen, hclose, hblank]

/-- The brace that closes the first one ends a value between braces. -/
theorem scan_cons_of_closes (outermost : Nat) :
    scan true [outermost] pos ('}' :: cs) = .ok (['}'], cs) := by
  simp [scan]

/-- A closing brace without an opening one is wrong. -/
theorem scan_cons_of_unmatched (braced : Bool) (pos : Nat) (cs : List Char)
    (h : stepDepth opened.length c = none) :
    scan braced opened pos (c :: cs) = .error (.unmatchedClosing, pos) := by
  obtain ⟨hnil, rfl⟩ := stepDepth_eq_none_iff.mp h
  rw [List.length_eq_zero_iff] at hnil
  simp [scan, hnil]

/-- The offsets of the open braces behind one more character, which stands at `pos`. -/
def stepOpened (opened : List Nat) (pos : Nat) (c : Char) : List Nat :=
  if c = '{' then pos :: opened else if c = '}' then opened.tail else opened

@[simp] theorem stepOpened_open (opened : List Nat) (pos : Nat) :
    stepOpened opened pos '{' = pos :: opened := rfl

@[simp] theorem stepOpened_close (opened : List Nat) (pos : Nat) :
    stepOpened opened pos '}' = opened.tail := rfl

theorem stepOpened_of_ne (hopen : c ≠ '{') (hclose : c ≠ '}') (opened : List Nat) (pos : Nat) :
    stepOpened opened pos c = opened := by
  rw [stepOpened, if_neg hopen, if_neg hclose]

theorem length_stepOpened (pos : Nat) {depth : Nat} (h : stepDepth opened.length c = some depth) :
    (stepOpened opened pos c).length = depth := by
  rcases brace_cases c with rfl | rfl | ⟨hopen, hclose⟩
  · exact Option.some.inj h
  · cases opened with
    | nil => cases h
    | cons innermost outer => exact Option.some.inj h
  · rw [stepDepth_of_ne hopen hclose] at h
    rw [stepOpened_of_ne hopen hclose]
    exact Option.some.inj h

/-- Any other character is a part of the value, and the scan goes on with the braces that are open
behind it. -/
theorem scan_cons (braced : Bool) (pos : Nat) (cs : List Char)
    (h : stepDepth opened.length c ≠ none)
    (hblank : opened = [] → isBlank c = false)
    (hcloses : braced = true → c = '}' → opened.length ≠ 1) :
    scan braced opened pos (c :: cs) =
      (scan braced (stepOpened opened pos c) (pos + c.utf8Size) cs).map fun (value, rest) =>
        (c :: value, rest) := by
  rcases brace_cases c with rfl | rfl | ⟨hopen, hclose⟩
  · simp [scan]
  · cases opened with
    | nil => exact absurd rfl h
    | cons innermost outer =>
      have hstop : (outer.isEmpty && braced) = false := by
        cases outer <;> cases braced <;> simp_all
      simp [scan, hstop]
  · have hstop : (opened.isEmpty && isBlank c) = false := by
      cases opened <;> simp_all
    simp only [scan, stepOpened_of_ne hopen hclose, if_neg hopen, if_neg hclose, hstop,
      Bool.false_eq_true, if_false]

/-- So it goes on with as many open braces as there are behind the character. -/
theorem exists_scan_cons (braced : Bool) (pos : Nat) (cs : List Char) {depth : Nat}
    (h : stepDepth opened.length c = some depth)
    (hblank : opened = [] → isBlank c = false)
    (hcloses : braced = true → c = '}' → opened.length ≠ 1) :
    ∃ (opened' : List Nat) (pos' : Nat), opened'.length = depth ∧
      scan braced opened pos (c :: cs) =
        (scan braced opened' pos' cs).map fun (value, rest) => (c :: value, rest) :=
  ⟨_, _, length_stepOpened pos h, scan_cons braced pos cs (by simp [h]) hblank hcloses⟩

/-! ### Values without braces around them -/

/-- All braces get closed in the text, with those that are open in front of it, and its blanks stand
inside of braces. -/
structure ClosesBare (depth : Nat) (value : List Char) : Prop where
  depthBehind_eq : depthBehind depth value = some 0
  blanks : ∀ front c behind, value = front ++ c :: behind → isBlank c = true →
    depthBehind depth front ≠ some 0

theorem closesBare_nil_iff {depth : Nat} : ClosesBare depth [] ↔ depth = 0 := by
  constructor
  · intro h
    exact Option.some.inj h.depthBehind_eq
  · rintro rfl
    exact ⟨rfl, fun front c behind h => by simp at h⟩

theorem closesBare_cons_iff {depth : Nat} :
    ClosesBare depth (c :: value) ↔
      (isBlank c = true → depth ≠ 0) ∧ ∃ next, stepDepth depth c = some next ∧
        ClosesBare next value := by
  constructor
  · rintro ⟨hdepth, hblanks⟩
    rw [depthBehind_cons, Option.bind_eq_some_iff] at hdepth
    obtain ⟨next, hnext, hdepth⟩ := hdepth
    refine ⟨fun hblank hzero => ?_, next, hnext, hdepth, fun front b behind heq hblank hzero => ?_⟩
    · exact hblanks [] c value rfl hblank (congrArg some hzero)
    · refine hblanks (c :: front) b behind (congrArg (c :: ·) heq) hblank ?_
      rw [depthBehind_cons, hnext, Option.bind_some, hzero]
  · rintro ⟨hfirst, next, hnext, hdepth, hblanks⟩
    refine ⟨?_, fun front b behind heq hblank hzero => ?_⟩
    · rw [depthBehind_cons, hnext, Option.bind_some, hdepth]
    · cases front with
      | nil =>
        cases heq
        exact hfirst hblank (Option.some.inj hzero)
      | cons a front =>
        cases heq
        rw [depthBehind_cons, hnext, Option.bind_some] at hzero
        exact hblanks front b behind rfl hblank hzero

/-- The value stands in front of the rest, it closes all braces, and a blank or the end comes behind
it. -/
structure ReadsBare (depth : Nat) (cs value rest : List Char) : Prop where
  eq_append : cs = value ++ rest
  closes : ClosesBare depth value
  blank : ∀ c ∈ rest.head?, isBlank c = true

theorem readsBare_nil_iff {depth : Nat} :
    ReadsBare depth [] value rest ↔ depth = 0 ∧ value = [] ∧ rest = [] := by
  constructor
  · rintro ⟨heq, hcloses, -⟩
    obtain ⟨rfl, rfl⟩ := List.nil_eq_append_iff.mp heq
    exact ⟨closesBare_nil_iff.mp hcloses, rfl, rfl⟩
  · rintro ⟨rfl, rfl, rfl⟩
    exact ⟨rfl, closesBare_nil_iff.mpr rfl, nofun⟩

theorem readsBare_cons_iff_of_isBlank (hblank : isBlank c = true) :
    ReadsBare 0 (c :: cs) value rest ↔ value = [] ∧ rest = c :: cs := by
  constructor
  · rintro ⟨heq, hcloses, -⟩
    cases value with
    | nil => exact ⟨rfl, heq.symm⟩
    | cons b value =>
      cases heq
      exact absurd rfl ((closesBare_cons_iff.mp hcloses).1 hblank)
  · rintro ⟨rfl, rfl⟩
    exact ⟨rfl, closesBare_nil_iff.mpr rfl, by simpa using hblank⟩

/-- A character that is no blank outside of braces is a part of the value. -/
theorem readsBare_cons_iff {depth : Nat} (hstop : isBlank c = true → depth ≠ 0) :
    ReadsBare depth (c :: cs) value rest ↔ ∃ next, stepDepth depth c = some next ∧
      ∃ behind, value = c :: behind ∧ ReadsBare next cs behind rest := by
  constructor
  · rintro ⟨heq, hcloses, hrest⟩
    cases value with
    | nil =>
      cases heq
      exact absurd (closesBare_nil_iff.mp hcloses) (hstop (hrest c rfl))
    | cons b behind =>
      cases heq
      obtain ⟨-, next, hnext, hcloses⟩ := closesBare_cons_iff.mp hcloses
      exact ⟨next, hnext, behind, rfl, rfl, hcloses, hrest⟩
  · rintro ⟨next, hnext, behind, rfl, rfl, hcloses, hrest⟩
    exact ⟨rfl, closesBare_cons_iff.mpr ⟨hstop, next, hnext, hcloses⟩, hrest⟩

/-- **What the scan reads without braces around it:** as far as all braces are closed and a blank or
the end comes next. -/
theorem scan_bare_eq_ok_iff :
    scan false opened pos cs = .ok (value, rest) ↔ ReadsBare opened.length cs value rest := by
  induction cs generalizing opened pos value with
  | nil => rw [scan_nil_eq_ok_iff, readsBare_nil_iff, List.length_eq_zero_iff]
  | cons c cs ih =>
    by_cases hblank : opened = [] ∧ isBlank c = true
    · obtain ⟨rfl, hblank⟩ := hblank
      rw [scan_cons_of_isBlank hblank, List.length_nil, readsBare_cons_iff_of_isBlank hblank]
      simp [eq_comm]
    · have hstop : isBlank c = true → opened.length ≠ 0 := fun h hzero =>
        hblank ⟨List.length_eq_zero_iff.mp hzero, h⟩
      rw [readsBare_cons_iff hstop]
      cases hstep : stepDepth opened.length c with
      | none => simp [scan_cons_of_unmatched false pos cs hstep]
      | some depth =>
        obtain ⟨opened', pos', hlength, hscan⟩ := exists_scan_cons false pos cs hstep
          (fun hnil => by simpa [hnil] using hblank) nofun
        rw [hscan, Except.map_eq_ok_iff]
        constructor
        · rintro ⟨⟨behind, rest⟩, hread, heq⟩
          cases heq
          exact ⟨depth, rfl, behind, rfl, hlength ▸ ih.mp hread⟩
        · rintro ⟨_, ⟨⟩, behind, rfl, hread⟩
          exact ⟨(behind, rest), ih.mpr (hlength.symm ▸ hread), rfl⟩

/-! ### Values between braces -/

theorem stepDepth_succ_iff {depth next : Nat} :
    stepDepth (depth + 1) c = some (next + 1) ↔ stepDepth depth c = some next := by
  rw [stepDepth_eq_some_iff, stepDepth_eq_some_iff]
  omega

/-- **What the scan reads between braces,** the first of which is read already: as far as the brace
that closes it. -/
theorem scan_braced_eq_ok_iff {depth : Nat} (hopened : opened.length = depth + 1) :
    scan true opened pos cs = .ok (value, rest) ↔
      ∃ inside, value = inside ++ ['}'] ∧ cs = inside ++ '}' :: rest ∧
        depthBehind depth inside = some 0 := by
  induction cs generalizing opened pos depth value with
  | nil =>
    rw [scan_nil_eq_ok_iff]
    constructor
    · rintro ⟨rfl, -⟩
      cases hopened
    · rintro ⟨inside, -, heq, -⟩
      simp at heq
  | cons c cs ih =>
    by_cases hstop : depth = 0 ∧ c = '}'
    · obtain ⟨rfl, rfl⟩ := hstop
      obtain ⟨outermost, rfl⟩ := List.length_eq_one_iff.mp hopened
      rw [scan_cons_of_closes]
      simp only [Except.ok.injEq, Prod.mk.injEq]
      constructor
      · rintro ⟨rfl, rfl⟩
        exact ⟨[], rfl, rfl, rfl⟩
      · rintro ⟨inside, rfl, heq, hdepth⟩
        cases inside with
        | nil => exact ⟨rfl, (List.cons.inj heq).2⟩
        | cons b inside =>
          cases heq
          cases hdepth
    · obtain ⟨next, hnext⟩ := Option.ne_none_iff_exists'.mp (mt stepDepth_eq_none_iff.mp hstop)
      obtain ⟨opened', pos', hlength, hscan⟩ := exists_scan_cons true pos cs
        (hopened ▸ stepDepth_succ_iff.mpr hnext) (fun hnil => by simp [hnil] at hopened)
        (fun _ hclose hone => hstop ⟨by omega, hclose⟩)
      rw [hscan, Except.map_eq_ok_iff]
      constructor
      · rintro ⟨⟨behind, rest⟩, hread, heq⟩
        cases heq
        obtain ⟨inside, rfl, rfl, hdepth⟩ := (ih hlength).mp hread
        refine ⟨c :: inside, rfl, rfl, ?_⟩
        rw [depthBehind_cons, hnext, Option.bind_some, hdepth]
      · rintro ⟨inside, rfl, heq, hdepth⟩
        cases inside with
        | nil =>
          cases heq
          cases hdepth
          exact absurd ⟨rfl, rfl⟩ hstop
        | cons b inside =>
          cases heq
          rw [depthBehind_cons, hnext, Option.bind_some] at hdepth
          exact ⟨(inside ++ ['}'], rest), (ih hlength).mpr ⟨inside, rfl, rfl, hdepth⟩, rfl⟩

end Scan

/-! ### The first value of a text -/

/-- The grammar of the first value of a text that has no blanks in front: the value and the text
behind it. Nothing is cut off the empty text. -/
inductive IsFirstValue : (text value rest : List Char) → Prop
  | nothing : IsFirstValue [] [] []
  | braced {value rest : List Char} (hvalue : IsBalanced value) :
    IsFirstValue ('{' :: (value ++ '}' :: rest)) value rest
  | bare {value rest : List Char} (hne : value ≠ []) (hopen : value.head? ≠ some '{')
    (hvalue : IsBalanced value)
    (hblanks : ∀ front c behind, value = front ++ c :: behind → isBlank c = true →
      front.count '}' < front.count '{')
    (hrest : ∀ c ∈ rest.head?, isBlank c = true) : IsFirstValue (value ++ rest) value rest

/-- Braces are open behind a text without too many closing ones if fewer of them close. -/
theorem depthBehind_zero_ne_iff {cs : List Char}
    (hle : ∀ front, front <+: cs → front.count '}' ≤ front.count '{') :
    depthBehind 0 cs ≠ some 0 ↔ cs.count '}' < cs.count '{' := by
  have hlast := hle cs List.prefix_rfl
  rw [ne_eq, ← isBalanced_iff]
  constructor
  · intro h
    by_contra hcount
    exact h ⟨by omega, hle⟩
  · intro h hbalanced
    have := hbalanced.count_eq
    omega

theorem closesBare_zero_iff {value : List Char} :
    ClosesBare 0 value ↔ IsBalanced value ∧
      ∀ front c behind, value = front ++ c :: behind → isBlank c = true →
        front.count '}' < front.count '{' := by
  have hopen {front : List Char} (hvalue : IsBalanced value) (hfront : front <+: value) :
      depthBehind 0 front ≠ some 0 ↔ front.count '}' < front.count '{' :=
    depthBehind_zero_ne_iff fun more hmore => hvalue.count_le more (hmore.trans hfront)
  constructor
  · intro h
    have hvalue := isBalanced_iff.mpr h.depthBehind_eq
    refine ⟨hvalue, fun front c behind heq hblank => ?_⟩
    exact (hopen hvalue (heq ▸ List.prefix_append _ _)).mp (h.blanks front c behind heq hblank)
  · rintro ⟨hvalue, hblanks⟩
    refine ⟨isBalanced_iff.mp hvalue, fun front c behind heq hblank => ?_⟩
    exact (hopen hvalue (heq ▸ List.prefix_append _ _)).mpr (hblanks front c behind heq hblank)

variable {pos : Nat} {cs value rest : List Char}

theorem isFirstValue_nil_iff : IsFirstValue [] value rest ↔ value = [] ∧ rest = [] := by
  constructor
  · intro h
    generalize htext : ([] : List Char) = text at h
    cases h with
    | nothing => exact ⟨rfl, rfl⟩
    | braced _ => cases htext
    | bare hne => exact absurd (List.nil_eq_append_iff.mp htext).1 hne
  · rintro ⟨rfl, rfl⟩
    exact .nothing

theorem isFirstValue_cons_open_iff :
    IsFirstValue ('{' :: cs) value rest ↔ IsBalanced value ∧ cs = value ++ '}' :: rest := by
  constructor
  · intro h
    generalize htext : '{' :: cs = text at h
    cases h with
    | nothing => cases htext
    | braced hvalue => exact ⟨hvalue, (List.cons.inj htext).2⟩
    | bare hne hopen =>
      obtain ⟨c, behind, rfl⟩ := List.exists_cons_of_ne_nil hne
      cases htext
      exact absurd rfl hopen
  · rintro ⟨hvalue, rfl⟩
    exact .braced hvalue

theorem isFirstValue_cons_iff {c : Char} (hopen : c ≠ '{') (hblank : isBlank c = false) :
    IsFirstValue (c :: cs) value rest ↔ ReadsBare 0 (c :: cs) value rest := by
  constructor
  · intro h
    generalize htext : c :: cs = text at h
    cases h with
    | nothing => cases htext
    | braced _ => exact absurd (List.cons.inj htext).1 hopen
    | bare _ _ hvalue hblanks hrest =>
      exact ⟨rfl, closesBare_zero_iff.mpr ⟨hvalue, hblanks⟩, hrest⟩
  · rintro ⟨heq, hcloses, hrest⟩
    obtain ⟨hvalue, hblanks⟩ := closesBare_zero_iff.mp hcloses
    rw [heq]
    cases value with
    | nil =>
      cases heq
      cases hblank.symm.trans (hrest c rfl)
    | cons b value =>
      cases heq
      exact .bare (List.cons_ne_nil _ _) (fun h => hopen (Option.some.inj h)) hvalue hblanks hrest

theorem cutAt_eq_ok_iff_scan :
    cutAt pos cs = .ok (value, rest) ↔ ∃ written,
      scan ((trimStart cs).head? == some '{') []
        (pos + (byteLength cs - byteLength (trimStart cs))) (trimStart cs) = .ok (written, rest) ∧
      value = if (trimStart cs).head? == some '{' then inner written else written := by
  unfold cutAt
  simp only
  split
  · rename_i reason position hscan
    simp [hscan]
  · rename_i written behind hscan
    simp only [hscan, Except.ok.injEq, Prod.mk.injEq]
    constructor
    · rintro ⟨rfl, rfl⟩
      exact ⟨written, ⟨rfl, rfl⟩, rfl⟩
    · rintro ⟨_, ⟨rfl, rfl⟩, rfl⟩
      exact ⟨rfl, rfl⟩

theorem inner_cons_append (first last : Char) (cs : List Char) :
    inner (first :: (cs ++ [last])) = cs := by
  rw [inner, List.tail_cons, List.dropLast_concat]

/-- **The first value is cut off if and only if the grammar has one.** It does not matter where the
text stands. -/
theorem cutAt_eq_ok_iff :
    cutAt pos cs = .ok (value, rest) ↔ IsFirstValue (trimStart cs) value rest := by
  rw [cutAt_eq_ok_iff_scan]
  generalize pos + (byteLength cs - byteLength (trimStart cs)) = start
  cases htext : trimStart cs with
  | nil => simp [scan_nil_eq_ok_iff, isFirstValue_nil_iff, and_comm]
  | cons c text =>
    by_cases hopen : c = '{'
    · subst hopen
      have hfirst : stepDepth ([] : List Nat).length '{' = some 1 := rfl
      obtain ⟨opened, behind, hlength, hscan⟩ :=
        exists_scan_cons true start text hfirst (fun _ => by decide) nofun
      rw [isFirstValue_cons_open_iff, isBalanced_iff, List.head?_cons, beq_self_eq_true, hscan]
      simp only [if_true, Except.map_eq_ok_iff]
      constructor
      · rintro ⟨_, ⟨⟨written, rest⟩, hread, heq⟩, rfl⟩
        cases heq
        obtain ⟨inside, rfl, rfl, hdepth⟩ := (scan_braced_eq_ok_iff hlength).mp hread
        rw [inner_cons_append]
        exact ⟨hdepth, rfl⟩
      · rintro ⟨hdepth, rfl⟩
        have hread : scan true opened behind (value ++ '}' :: rest) = .ok (value ++ ['}'], rest) :=
          (scan_braced_eq_ok_iff hlength).mpr ⟨value, rfl, rfl, hdepth⟩
        exact ⟨_, ⟨_, hread, rfl⟩, (inner_cons_append _ _ _).symm⟩
    · have hblank : isBlank c = false := @head?_trimStart cs c (by rw [htext]; rfl)
      have hhead : ((c :: text).head? == some '{') = false := by simpa using hopen
      rw [isFirstValue_cons_iff hopen hblank, hhead]
      simp only [Bool.false_eq_true, if_false, exists_eq_right']
      exact scan_bare_eq_ok_iff

/-- **The grammar is exact.** The first value that is cut off a text is the one that the grammar has
behind the blanks in front; there is at most one, and it is an error if there is none. A text that
is not empty gets shorter, so that no text can be cut again and again without an end. -/
theorem cut_exact :
    (∀ cs : List Char,
      (∀ value rest, cut cs = .ok (value, rest) ↔ IsFirstValue (trimStart cs) value rest) ∧
      (∀ value rest value' rest', IsFirstValue (trimStart cs) value rest →
        IsFirstValue (trimStart cs) value' rest' → value = value' ∧ rest = rest') ∧
      ((∀ value rest, ¬ IsFirstValue (trimStart cs) value rest) → ∃ e, cut cs = .error e) ∧
      (cs ≠ [] → ∀ value rest, cut cs = .ok (value, rest) → rest.length < cs.length)) ∧
    WellFounded fun rest cs : List Char =>
      cs ≠ [] ∧ ∃ pos value, cutAt pos cs = .ok (value, rest) := by
  refine ⟨fun cs => ⟨fun value rest => cutAt_eq_ok_iff, ?_, ?_, fun hne value rest => ?_⟩, ?_⟩
  · intro value rest value' rest' h h'
    have hcut : cut cs = .ok (value, rest) := cutAt_eq_ok_iff.mpr h
    have hcut' : cut cs = .ok (value', rest') := cutAt_eq_ok_iff.mpr h'
    exact Prod.mk.inj (Except.ok.inj (hcut.symm.trans hcut'))
  · intro hnone
    cases hcut : cut cs with
    | error e => exact ⟨e, rfl⟩
    | ok read => exact absurd (cutAt_eq_ok_iff.mp hcut) (hnone read.1 read.2)
  · exact cutAt_length hne
  · refine Subrelation.wf ?_ (measure List.length).wf
    rintro rest cs ⟨hne, pos, value, hcut⟩
    exact cutAt_length hne hcut

/-- A value with a blank between its braces is cut off as a whole, and nothing is cut off an opening
brace alone. -/
theorem cut_exact_index :
    (cut " index={a b} unique".toList = .ok ("index={a b}".toList, " unique".toList) ∧
      (∀ value rest, IsFirstValue (trimStart " index={a b} unique".toList) value rest →
        value = "index={a b}".toList ∧ rest = " unique".toList) ∧
      " unique".toList.length < " index={a b} unique".toList.length) ∧
    (∀ value rest, ¬ IsFirstValue (trimStart ['{']) value rest) ∧ ∃ e, cut ['{'] = .error e := by
  have hcut : cut " index={a b} unique".toList = .ok ("index={a b}".toList, " unique".toList) := rfl
  obtain ⟨hiff, hunique, -, hshorter⟩ := cut_exact.1 " index={a b} unique".toList
  have hvalue := (hiff _ _).mp hcut
  obtain ⟨hbrace, -, herror, -⟩ := cut_exact.1 ['{']
  have hnone (value rest : List Char) : ¬ IsFirstValue (trimStart ['{']) value rest := fun h =>
    nomatch (hbrace value rest).mpr h
  exact ⟨⟨hcut, fun value rest h => hunique _ _ _ _ h hvalue,
    hshorter (by decide) _ _ hcut⟩, hnone, herror hnone⟩

end AdditiveSchema.Directive
