import AdditiveSchema.Proofs.Ddl.Search
import AdditiveSchema.Proofs.List

/-!
# The closing parenthesis

A text in parentheses ends at the first parenthesis outside of quotes that closes more than the text
in front of it has opened. The text in front of it has its quotes closed and its parentheses
matched, which is said here by counting; there is no other such text. `Scan` is the search with its
counter as an integer: where the search goes on, at least one parenthesis is open, so the counter
never goes below zero.

## Main definitions

* `OutsideQuotes` : what stands outside of the quotes of a text.
* `IsBalanced` : the quotes of a text are closed and its parentheses match.
* `Encloses` : a text is balanced up to a closing parenthesis.
* `Scan` : the open quote and the number of open parentheses.

## Main results

* `Scan.search_cons` : what one character does to the search.
* `Scan.search_eq_some_iff` : where the search ends.
* `isBalanced_iff` : balanced text brings the scan back to where it was.
* `isBalanced_iff_closed` : matched by counting is matched by nesting.
* `balanced_findsClosing` : the search finds the closing parenthesis.
-/

namespace AdditiveSchema.Reported.Ddl

open AdditiveSchema.Text

/-! ### Balanced text -/

/-- A single quote, a double quote or a backtick. -/
def IsMark (c : Char) : Prop :=
  c = '\'' ∨ c = '"' ∨ c = '\x60'

instance (c : Char) : Decidable (IsMark c) :=
  inferInstanceAs (Decidable (_ ∨ _))

theorem isPlain_iff {c : Char} : isPlain c = true ↔ ¬IsMark c ∧ c ≠ '(' ∧ c ≠ ')' := by
  simp [isPlain, IsMark, and_assoc]

/-- All quotes of the text are closed by the character that opened them, and `outside` is what
stands outside of them. -/
inductive OutsideQuotes : (text outside : List Char) → Prop
  | nil : OutsideQuotes [] []
  | cons {c : Char} {cs out : List Char} (hc : ¬IsMark c) (hcs : OutsideQuotes cs out) :
    OutsideQuotes (c :: cs) (c :: out)
  | quoted {mark : Char} {inner cs out : List Char} (hmark : IsMark mark) (hinner : mark ∉ inner)
    (hcs : OutsideQuotes cs out) : OutsideQuotes (mark :: (inner ++ mark :: cs)) out

/-- The quotes of the text are closed. Outside of them, as many parentheses are opened as closed,
and none is closed before it is opened. -/
def IsBalanced (text : List Char) : Prop :=
  ∃ out, OutsideQuotes text out ∧ (∀ front, front <+: out → front.count ')' ≤ front.count '(') ∧
    out.count '(' = out.count ')'

/-- The text begins with balanced text and a closing parenthesis behind it. -/
def Encloses (text enclosed : List Char) : Prop :=
  IsBalanced enclosed ∧ ∃ rest, text = enclosed ++ ')' :: rest

/-! ### Scanning -/

/-- How far the search is: the quote that is open and the number of parentheses that are. -/
@[ext]
structure Scan where
  quote : Option Char
  depth : Int
  deriving DecidableEq, Repr

namespace Scan

/-- The search begins behind one parenthesis. -/
def start : Scan := ⟨none, 1⟩

theorem depth_start_pos : 0 < start.depth := Int.one_pos

/-- One character is read. -/
def next (s : Scan) (c : Char) : Scan :=
  match s.quote with
  | some q => { s with quote := if c = q then none else some q }
  | none =>
    if IsMark c then { s with quote := some c }
    else if c = '(' then { s with depth := s.depth + 1 }
    else if c = ')' then { s with depth := s.depth - 1 }
    else s

/-- A text is read. -/
def run (s : Scan) (cs : List Char) : Scan :=
  cs.foldl next s

/-- The search for the closing parenthesis goes on from here. -/
def search (s : Scan) (cs : List Char) : Option (List Char) :=
  balancedFrom s.quote (s.depth - 1).toNat cs

/-- A parenthesis is open from here on until the text is read. -/
def StaysOpen (s : Scan) (cs : List Char) : Prop :=
  ∀ front, front <+: cs → 0 < (s.run front).depth

variable {s : Scan} {c mark : Char} {cs p rest : List Char}

@[simp] theorem run_nil (s : Scan) : s.run [] = s := rfl

@[simp] theorem run_cons (s : Scan) (c : Char) (cs : List Char) :
    s.run (c :: cs) = (s.next c).run cs := rfl

theorem run_append (s : Scan) (cs ds : List Char) : s.run (cs ++ ds) = (s.run cs).run ds :=
  List.foldl_append

theorem staysOpen_nil : s.StaysOpen [] ↔ 0 < s.depth := by
  simp [StaysOpen]

theorem staysOpen_cons : s.StaysOpen (c :: cs) ↔ 0 < s.depth ∧ (s.next c).StaysOpen cs :=
  forall_prefix_cons_iff

/-! ### The search -/

theorem next_of_isMark (hc : IsMark c) (depth : Int) : next ⟨none, depth⟩ c = ⟨some c, depth⟩ := by
  simp [next, hc]

theorem next_of_ne (hc : ¬IsMark c) (hopen : c ≠ '(') (hclose : c ≠ ')') (depth : Int) :
    next ⟨none, depth⟩ c = ⟨none, depth⟩ := by
  simp [next, hc, hopen, hclose]

/-- What a character can be to the search. -/
theorem next_cases (s : Scan) (c : Char) :
    (∃ q, s.quote = some q ∧ s.next c = ⟨if c = q then none else some q, s.depth⟩) ∨
    (s.quote = none ∧ IsMark c ∧ s.next c = ⟨some c, s.depth⟩) ∨
    (s.quote = none ∧ c = '(' ∧ s.next c = ⟨none, s.depth + 1⟩) ∨
    (s.quote = none ∧ c = ')' ∧ s.next c = ⟨none, s.depth - 1⟩) ∨
    (s.quote = none ∧ ¬IsMark c ∧ c ≠ '(' ∧ c ≠ ')' ∧ s.next c = ⟨none, s.depth⟩) := by
  obtain ⟨quote, depth⟩ := s
  cases quote with
  | some q => exact .inl ⟨q, rfl, rfl⟩
  | none =>
    refine .inr ?_
    by_cases hmark : IsMark c
    · exact .inl ⟨rfl, hmark, next_of_isMark hmark depth⟩
    by_cases hopen : c = '('
    · exact .inr (.inl ⟨rfl, hopen, hopen ▸ rfl⟩)
    by_cases hclose : c = ')'
    · exact .inr (.inr (.inl ⟨rfl, hclose, hclose ▸ rfl⟩))
    exact .inr (.inr (.inr ⟨rfl, hmark, hopen, hclose, next_of_ne hmark hopen hclose depth⟩))

/-- The counter does not go below zero. -/
theorem depth_next_nonneg (h : 0 < s.depth) (c : Char) : 0 ≤ (s.next c).depth := by
  rcases next_cases s c with
    ⟨q, -, hn⟩ | ⟨-, -, hn⟩ | ⟨-, -, hn⟩ | ⟨-, -, hn⟩ | ⟨-, -, -, -, hn⟩ <;>
  · rw [hn]
    simp only
    omega

theorem depth_next_pos (h : 0 < s.depth) (hzero : (s.next c).depth ≠ 0) :
    0 < (s.next c).depth := by
  have hnonneg := depth_next_nonneg h c
  omega

/-- Only the parenthesis that closes the last open one brings the counter to zero. -/
theorem depth_next_eq_zero_iff (h : 0 < s.depth) :
    (s.next c).depth = 0 ↔ s = start ∧ c = ')' := by
  constructor
  · intro hzero
    rcases next_cases s c with
      ⟨q, -, hn⟩ | ⟨-, -, hn⟩ | ⟨-, -, hn⟩ | ⟨hquote, hc, hn⟩ | ⟨-, -, -, -, hn⟩ <;>
    rw [hn] at hzero <;> simp only at hzero
    · omega
    · omega
    · omega
    · exact ⟨Scan.ext hquote (by simp only [start]; omega), hc⟩
    · omega
  · rintro ⟨rfl, rfl⟩
    rfl

theorem search_mk (quote : Option Char) (d : Nat) (cs : List Char) :
    search ⟨quote, d + 1⟩ cs = balancedFrom quote d cs := by
  rw [search, Int.add_sub_cancel, Int.toNat_natCast]

/-- **What one character does to the search:** it ends at the parenthesis that closes the last open
one and goes on behind any other character. -/
theorem search_cons (h : 0 < s.depth) (c : Char) (cs : List Char) :
    s.search (c :: cs) =
      if (s.next c).depth = 0 then some [] else ((s.next c).search cs).map (c :: ·) := by
  obtain ⟨quote, depth⟩ := s
  obtain ⟨d, rfl⟩ : ∃ d : Nat, depth = d + 1 := ⟨(depth - 1).toNat, by simp only at h; omega⟩
  have hd : (d + 1 : Int) ≠ 0 := by omega
  rcases next_cases ⟨quote, d + 1⟩ c with
    ⟨q, hquote, hn⟩ | ⟨hquote, hmark, hn⟩ | ⟨hquote, rfl, hn⟩ | ⟨hquote, rfl, hn⟩ |
      ⟨hquote, hmark, hopen, hclose, hn⟩ <;>
  obtain rfl : quote = _ := hquote <;>
  rw [hn, search_mk]
  · rw [if_neg hd, search_mk]
    rfl
  · rw [if_neg hd, search_mk]
    exact balancedFrom_cons_of_mark hmark d cs
  · have hmore : (d + 1 + 1 : Int) ≠ 0 := by omega
    rw [if_neg hmore, ← Int.natCast_add_one, search_mk]
    rfl
  · cases d with
    | zero => rfl
    | succ d =>
      have hless : ((d + 1 : Nat) + 1 - 1 : Int) = d + 1 := by omega
      rw [hless, if_neg (by simp only; omega), search_mk]
      rfl
  · rw [if_neg hd, search_mk]
    exact balancedFrom_cons_of_isPlain (isPlain_iff.mpr ⟨hmark, hopen, hclose⟩) d cs

/-- While a parenthesis stays open, the search goes on. -/
theorem search_append (h : s.StaysOpen cs) (rest : List Char) :
    s.search (cs ++ rest) = ((s.run cs).search rest).map (cs ++ ·) := by
  induction cs generalizing s with
  | nil => simp
  | cons c cs ih =>
    obtain ⟨hdepth, hcs⟩ := staysOpen_cons.mp h
    have hnext : (s.next c).depth ≠ 0 := Int.ne_of_gt (hcs [] List.nil_prefix)
    rw [List.cons_append, search_cons hdepth, if_neg hnext, ih hcs, Option.map_map]
    rfl

/-- As long as the search goes on, a parenthesis stays open. -/
theorem staysOpen_of_search (h : 0 < s.depth)
    (hcs : ∀ p, s.search (cs ++ rest) = some p → cs.length ≤ p.length) : s.StaysOpen cs := by
  induction cs generalizing s with
  | nil => exact staysOpen_nil.mpr h
  | cons c cs ih =>
    rw [List.cons_append, search_cons h] at hcs
    by_cases hzero : (s.next c).depth = 0
    · rw [if_pos hzero] at hcs
      exact absurd (hcs [] rfl) (Nat.not_succ_le_zero _)
    · rw [if_neg hzero] at hcs
      refine staysOpen_cons.mpr ⟨h, ih (depth_next_pos h hzero) fun p hp => ?_⟩
      exact Nat.le_of_succ_le_succ (hcs (c :: p) (by rw [hp]; rfl))

/-- **Where the search ends:** at the first parenthesis that closes the last open one. -/
theorem search_eq_some_iff (h : 0 < s.depth) :
    s.search cs = some p ↔ (s.run p = start ∧ s.StaysOpen p) ∧ ∃ rest, cs = p ++ ')' :: rest := by
  constructor
  · intro hsearch
    induction cs generalizing s p with
    | nil => simp [search, balancedFrom] at hsearch
    | cons c cs ih =>
      rw [search_cons h] at hsearch
      by_cases hzero : (s.next c).depth = 0
      · rw [if_pos hzero] at hsearch
        obtain ⟨rfl, rfl⟩ := (depth_next_eq_zero_iff h).mp hzero
        cases hsearch
        exact ⟨⟨rfl, staysOpen_nil.mpr h⟩, cs, rfl⟩
      · rw [if_neg hzero] at hsearch
        obtain ⟨p, hp, rfl⟩ := Option.map_eq_some_iff.mp hsearch
        obtain ⟨⟨hrun, hopen⟩, rest, rfl⟩ := ih (depth_next_pos h hzero) hp
        exact ⟨⟨hrun, staysOpen_cons.mpr ⟨h, hopen⟩⟩, rest, rfl⟩
  · rintro ⟨⟨hrun, hopen⟩, rest, rfl⟩
    have hzero : (start.next ')').depth = 0 := rfl
    rw [search_append hopen, hrun, search_cons depth_start_pos, if_pos hzero, Option.map_some,
      List.append_nil]

end Scan

/-! ### Counting -/

/-- By how many more parentheses are opened than closed. -/
def height (out : List Char) : Int :=
  out.count '(' - out.count ')'

theorem height_eq_zero_iff {out : List Char} :
    height out = 0 ↔ out.count '(' = out.count ')' := by
  rw [height]
  omega

theorem height_cons (c : Char) (out : List Char) : height (c :: out) = height [c] + height out := by
  simp only [height, List.count_cons, List.count_nil]
  omega

namespace OutsideQuotes

open Scan

variable {c mark : Char} {cs inner out : List Char}

theorem next_eq (hc : ¬IsMark c) (depth : Int) :
    next ⟨none, depth⟩ c = ⟨none, depth + height [c]⟩ := by
  rcases next_cases ⟨none, depth⟩ c with
    ⟨q, hquote, -⟩ | ⟨-, hmark, -⟩ | ⟨-, rfl, hn⟩ | ⟨-, rfl, hn⟩ | ⟨-, -, hopen, hclose, hn⟩
  · cases hquote
  · exact absurd hmark hc
  · exact hn
  · exact hn
  · simpa [height, hopen, hclose] using hn

theorem run_quoted (hinner : mark ∉ inner) (depth : Int) (cs : List Char) :
    run ⟨some mark, depth⟩ (inner ++ mark :: cs) = run ⟨none, depth⟩ cs := by
  induction inner with
  | nil => simp [next]
  | cons c inner ih =>
    rw [List.mem_cons, not_or] at hinner
    simpa [next, Ne.symm hinner.1] using ih hinner.2

theorem staysOpen_quoted (hinner : mark ∉ inner) (depth : Int) (cs : List Char) :
    StaysOpen ⟨some mark, depth⟩ (inner ++ mark :: cs) ↔ StaysOpen ⟨none, depth⟩ cs := by
  have hdepth (h : StaysOpen ⟨none, depth⟩ cs) : 0 < depth := h [] List.nil_prefix
  induction inner with
  | nil =>
    rw [List.nil_append, staysOpen_cons]
    simpa [next] using hdepth
  | cons c inner ih =>
    rw [List.mem_cons, not_or] at hinner
    rw [List.cons_append, staysOpen_cons]
    simpa [next, Ne.symm hinner.1, ih hinner.2] using hdepth

/-- A text whose quotes are closed moves the counter by its height. -/
theorem run_eq (h : OutsideQuotes cs out) (depth : Int) :
    run ⟨none, depth⟩ cs = ⟨none, depth + height out⟩ := by
  induction h generalizing depth with
  | nil => simp [height]
  | @cons c cs out hc _ ih =>
    rw [run_cons, next_eq hc, ih, height_cons c out, Int.add_assoc]
  | quoted hmark hinner _ ih => rw [run_cons, next_of_isMark hmark, run_quoted hinner, ih]

theorem staysOpen_iff (h : OutsideQuotes cs out) (depth : Int) :
    StaysOpen ⟨none, depth⟩ cs ↔ ∀ front, front <+: out → 0 < depth + height front := by
  induction h generalizing depth with
  | nil => simp [StaysOpen, height]
  | @cons c cs out hc _ ih =>
    have hnil : depth + height [] = depth := Int.add_zero depth
    rw [staysOpen_cons, next_eq hc, ih, forall_prefix_cons_iff, hnil]
    refine and_congr_right fun _ => forall₂_congr fun front _ => ?_
    rw [height_cons c front, Int.add_assoc]
  | @quoted mark inner cs out hmark hinner _ ih =>
    rw [staysOpen_cons, next_of_isMark hmark, staysOpen_quoted hinner, ih]
    -- the quoted text begins where the text behind it does
    have hnil (h : ∀ front, front <+: out → 0 < depth + height front) : 0 < depth := by
      simpa [height] using h [] List.nil_prefix
    exact and_iff_right_of_imp hnil

/-- What a scan that ends outside of quotes has read has its quotes closed, from its beginning or
from behind the quote that was open there. -/
theorem exists_of_run (cs : List Char) :
    (∀ depth, (run ⟨none, depth⟩ cs).quote = none → ∃ out, OutsideQuotes cs out) ∧
    ∀ mark depth, (run ⟨some mark, depth⟩ cs).quote = none →
      ∃ inner rest out, mark ∉ inner ∧ cs = inner ++ mark :: rest ∧ OutsideQuotes rest out := by
  induction cs with
  | nil => exact ⟨fun _ _ => ⟨[], .nil⟩, fun mark _ h => nomatch h⟩
  | cons c cs ih =>
    constructor
    · intro depth h
      rw [run_cons] at h
      by_cases hc : IsMark c
      · rw [next_of_isMark hc] at h
        obtain ⟨inner, rest, out, hinner, rfl, hrest⟩ := ih.2 c depth h
        exact ⟨out, .quoted hc hinner hrest⟩
      · rw [next_eq hc] at h
        obtain ⟨out, hout⟩ := ih.1 _ h
        exact ⟨c :: out, .cons hc hout⟩
    · intro mark depth h
      rw [run_cons, next] at h
      dsimp only at h
      split at h
      · rename_i hc
        obtain ⟨out, hout⟩ := ih.1 depth h
        exact ⟨[], cs, out, List.not_mem_nil, hc ▸ rfl, hout⟩
      · rename_i hc
        obtain ⟨inner, rest, out, hinner, rfl, hrest⟩ := ih.2 mark depth h
        exact ⟨c :: inner, rest, out, List.not_mem_cons_of_ne_of_not_mem (Ne.symm hc) hinner, rfl,
          hrest⟩

end OutsideQuotes

theorem IsBalanced.run_eq {p : List Char} (h : IsBalanced p) (depth : Int) :
    Scan.run ⟨none, depth⟩ p = ⟨none, depth⟩ := by
  obtain ⟨out, hout, -, hcount⟩ := h
  rw [hout.run_eq, height_eq_zero_iff.mpr hcount, Int.add_zero]

/-- **Balanced text** leaves the scan as it was, with a parenthesis open all the time. -/
theorem isBalanced_iff {p : List Char} :
    IsBalanced p ↔ Scan.start.run p = Scan.start ∧ Scan.start.StaysOpen p := by
  constructor
  · intro h
    refine ⟨h.run_eq 1, ?_⟩
    obtain ⟨out, hout, hprefix, -⟩ := h
    refine (hout.staysOpen_iff 1).mpr fun front hfront => ?_
    have hle := hprefix front hfront
    rw [height]
    omega
  · rintro ⟨hrun, hopen⟩
    obtain ⟨out, hout⟩ := (OutsideQuotes.exists_of_run p).1 1 (congrArg Scan.quote hrun)
    have hdepth := congrArg Scan.depth ((hout.run_eq 1).symm.trans hrun)
    refine ⟨out, hout, fun front hfront => ?_, ?_⟩
    · have hpos := (hout.staysOpen_iff 1).mp hopen front hfront
      rw [height] at hpos
      omega
    · rw [← height_eq_zero_iff]
      simp only [Scan.start] at hdepth
      omega

/-! ### The closing parenthesis -/

variable {cs p q : List Char}

theorem balanced_eq_some_iff : balanced cs = some p ↔ Encloses cs p := by
  rw [Encloses, isBalanced_iff]
  exact Scan.search_eq_some_iff Scan.depth_start_pos

theorem Encloses.eq (hp : Encloses cs p) (hq : Encloses cs q) : p = q :=
  Option.some.inj ((balanced_eq_some_iff.mpr hp).symm.trans (balanced_eq_some_iff.mpr hq))

theorem balanced_eq_none_iff : balanced cs = none ↔ ∀ p, ¬Encloses cs p := by
  rw [Option.eq_none_iff_forall_not_mem]
  exact forall_congr' fun p => not_congr balanced_eq_some_iff

/-- Where nothing is found, a parenthesis stays open. -/
theorem staysOpen_of_balanced_eq_none (h : balanced cs = none) : Scan.start.StaysOpen cs := by
  have hsearch : Scan.start.search (cs ++ []) = none := (List.append_nil cs).symm ▸ h
  exact Scan.staysOpen_of_search Scan.depth_start_pos fun p hp => nomatch hsearch.symm.trans hp

theorem Closed.isBalanced (h : Closed cs) : IsBalanced cs :=
  (balanced_eq_some_iff.mp (h.passes.balanced_append [])).1

/-- Behind the parenthesis that it opens, a balanced text closes one more than it opens. -/
theorem IsBalanced.not_staysOpen (h : IsBalanced ('(' :: cs)) : ¬Scan.start.StaysOpen cs := by
  intro hopen
  obtain ⟨out, hout, -, hcount⟩ := h
  cases hout with
  | quoted hmark => exact absurd hmark (by decide)
  | @cons _ _ out _ hout =>
    have hpos := hopen cs (List.prefix_refl cs)
    have hheight := (height_cons '(' out).symm.trans (height_eq_zero_iff.mpr hcount)
    rw [Scan.start, hout.run_eq] at hpos
    simp only [show height ['('] = 1 from rfl] at hheight hpos
    omega

/-- A balanced text that opens a parenthesis closes it between two balanced ones. -/
theorem IsBalanced.exists_parens (h : IsBalanced ('(' :: cs)) :
    ∃ inner rest, cs = inner ++ ')' :: rest ∧ IsBalanced inner ∧ IsBalanced rest := by
  obtain ⟨inner, hinner⟩ :=
    Option.ne_none_iff_exists'.mp (mt staysOpen_of_balanced_eq_none h.not_staysOpen)
  obtain ⟨hbalanced, rest, rfl⟩ := balanced_eq_some_iff.mp hinner
  have hskip (text : List Char) :
      Scan.start.run ('(' :: (inner ++ ')' :: text)) = Scan.start.run text := by
    rw [Scan.run_cons, Scan.run_append, show Scan.start.next '(' = ⟨none, 2⟩ from rfl,
      hbalanced.run_eq]
    rfl
  obtain ⟨hrun, hopen⟩ := isBalanced_iff.mp h
  refine ⟨inner, rest, rfl, hbalanced, isBalanced_iff.mpr
    ⟨(hskip rest).symm.trans hrun, fun front hfront => ?_⟩⟩
  rw [← hskip front]
  obtain ⟨behind, rfl⟩ := hfront
  exact hopen _ ⟨behind, by simp⟩

theorem IsBalanced.of_cons {c : Char} (hc : isPlain c = true) (h : IsBalanced (c :: cs)) :
    IsBalanced cs := by
  obtain ⟨hmark, hopen, hclose⟩ := isPlain_iff.mp hc
  have hstart : Scan.start.next c = Scan.start := Scan.next_of_ne hmark hopen hclose 1
  rw [isBalanced_iff, Scan.run_cons, Scan.staysOpen_cons, hstart] at h
  exact isBalanced_iff.mpr ⟨h.1, h.2.2⟩

theorem not_isBalanced_close (cs : List Char) : ¬IsBalanced (')' :: cs) := by
  rw [isBalanced_iff]
  rintro ⟨-, hopen⟩
  exact absurd (hopen [')'] ⟨cs, rfl⟩) (by decide)

/-- **Text is balanced** just if it is closed: what counting says is what the grammar says. -/
theorem isBalanced_iff_closed : IsBalanced cs ↔ Closed cs := by
  refine ⟨fun h => ?_, Closed.isBalanced⟩
  induction hn : cs.length using Nat.strongRecOn generalizing cs with
  | _ n ih =>
    subst hn
    obtain ⟨out, hout, hprefix, hcount⟩ := id h
    cases hout with
    | nil => exact .nil
    | @quoted mark inner rest _ hmark hinner hrest =>
      refine .quoted hmark hinner (ih _ ?_ ⟨out, hrest, hprefix, hcount⟩ rfl)
      simp
      omega
    | @cons c rest out hc hrest =>
      by_cases hopen : c = '('
      · subst hopen
        obtain ⟨inner, rest, rfl, hinner, hrest⟩ := h.exists_parens
        have hlength : inner.length + rest.length < ('(' :: (inner ++ ')' :: rest)).length := by
          rw [List.length_cons, List.length_append, List.length_cons]
          omega
        exact .parens (ih _ (by omega) hinner rfl) (ih _ (by omega) hrest rfl)
      by_cases hclose : c = ')'
      · exact absurd (hclose ▸ h) (not_isBalanced_close rest)
      have hplain := isPlain_iff.mpr ⟨hc, hopen, hclose⟩
      exact .plain hplain (ih _ (Nat.lt_succ_self _) (h.of_cons hplain) rfl)

/-- **The search finds the closing parenthesis:** the text in front of it is balanced, there is no
other such text, and nothing is found just if there is none. Where the search has read the text up
to a point and goes on, a parenthesis is open, and the last one is closed where it ends. -/
theorem balanced_findsClosing (cs : List Char) :
    (∀ p, balanced cs = some p ↔ Encloses cs p) ∧
    (∀ p q, Encloses cs p → Encloses cs q → p = q) ∧
    (balanced cs = none ↔ ∀ p, ¬Encloses cs p) ∧
    (∀ front rest, cs = front ++ rest →
      (∀ p, balanced cs = some p → front.length ≤ p.length) →
        0 < (Scan.start.run front).depth ∧
        balanced cs = ((Scan.start.run front).search rest).map (front ++ ·)) ∧
    ∀ p, balanced cs = some p → (Scan.start.run (p ++ [')'])).depth = 0 := by
  refine ⟨fun p => balanced_eq_some_iff, fun p q => Encloses.eq, balanced_eq_none_iff, ?_, ?_⟩
  · rintro front rest rfl hread
    have hopen : Scan.start.StaysOpen front := Scan.staysOpen_of_search Scan.depth_start_pos hread
    exact ⟨hopen front (List.prefix_refl front), Scan.search_append hopen rest⟩
  · intro p hp
    obtain ⟨hrun, -⟩ := isBalanced_iff.mp (balanced_eq_some_iff.mp hp).1
    rw [Scan.run_append, hrun]
    rfl

/-- A parenthesis between quotes is passed over: it does not close the list that it stands in. -/
theorem balanced_findsClosing_rating :
    let list := "rating IN ('G)', 'PG')"
    IsBalanced list.toList ∧ (∀ q, Encloses (list ++ ") rest").toList q → q = list.toList) ∧
      0 < (Scan.start.run "rating IN ('G)".toList).depth := by
  intro list
  have hfound : balanced (list ++ ") rest").toList = some list.toList := by decide +kernel
  obtain ⟨hiff, hunique, -, hread, -⟩ := balanced_findsClosing (list ++ ") rest").toList
  have hencloses := (hiff _).mp hfound
  refine ⟨hencloses.1, fun q hq => hunique q _ hq hencloses, ?_⟩
  refine (hread _ "', 'PG')) rest".toList (by decide +kernel) fun p hp => ?_).1
  rw [hfound] at hp
  exact Option.some.inj hp ▸ (by decide +kernel)

end AdditiveSchema.Reported.Ddl
