import AdditiveSchema.Dialect.TypeName

/-!
# The upper case of type names

Blanks and the marks around which no blank is kept cut a type into its words. The upper case of a
text is cut in the same way: blanks and marks stay what they are, and all other characters become
one or more characters that are neither blanks nor marks. The upper case of an upper case is nothing
new.

## Main definitions

* `TypeName.isWordChar` : neither a blank nor a mark.
* `TypeName.IsUpper` : the code of a character that is its own upper case.

## Main results

* `TypeName.uppercaseChar_of_not_isWordChar` : blanks and marks stay.
* `TypeName.isWordChar_of_mem_uppercaseChar`, `TypeName.uppercaseChar_ne_nil` : words stay words.
* `TypeName.uppercaseChar_of_mem_uppercaseChar` : upper cases stay.
-/

namespace AdditiveSchema.TypeName

open AdditiveSchema.Text

/-- A character of a word: neither a blank nor one of the marks in front of which no blank is
kept. -/
def isWordChar (c : Char) : Bool :=
  !isBlank c && !closesUp c

/-- The codes of all blanks and marks. -/
def stopCodes : List Nat :=
  [0x09, 0x0A, 0x0B, 0x0C, 0x0D, 0x20, 0x28, 0x29, 0x2C, 0x5B, 0x85, 0xA0, 0x1680, 0x2000, 0x2001,
    0x2002, 0x2003, 0x2004, 0x2005, 0x2006, 0x2007, 0x2008, 0x2009, 0x200A, 0x2028, 0x2029, 0x202F,
    0x205F, 0x3000]

variable {c u : Char}

theorem isWordChar_eq_true_iff : isWordChar c = true ↔ isBlank c = false ∧ closesUp c = false := by
  simp [isWordChar]

theorem isWordChar_iff_notMem : isWordChar c = true ↔ c.toNat ∉ stopCodes := by
  have hmark (d : Char) : c = d ↔ c.toNat = d.toNat := Char.toNat_inj.symm
  simp only [isWordChar, isBlank, closesUp, stopCodes, Bool.and_eq_true, Bool.not_eq_true',
    Bool.or_eq_false_iff, Bool.and_eq_false_iff, decide_eq_false_iff_not, beq_eq_false_iff_ne,
    ne_eq, hmark, List.mem_cons, List.not_mem_nil, or_false, not_or, Char.reduceToNat]
  omega

theorem toNat_mem_stopCodes_iff : c.toNat ∈ stopCodes ↔ isWordChar c = false := by
  rw [← Bool.not_eq_true, isWordChar_iff_notMem, Decidable.not_not]

/-! ### The table -/

/-- A letter that is in no run stays; any other one keeps its distance to the first of its run. -/
theorem uppercaseInRuns_eq (n : Nat) (runs : List (Nat × Nat × Nat × Nat)) :
    uppercaseInRuns n runs = n ∨ ∃ run ∈ runs, n ≤ run.2.1 ∧ (n - run.1) % run.2.2.1 = 0 ∧
      uppercaseInRuns n runs = run.2.2.2 + (n - run.1) := by
  induction runs with
  | nil => exact Or.inl rfl
  | cons run runs ih =>
    obtain ⟨first, last, step, upper⟩ := run
    rw [uppercaseInRuns]
    split
    · rename_i hrun
      exact Or.inr ⟨_, List.mem_cons_self, hrun.2.1, hrun.2.2, rfl⟩
    · exact ih.imp_right fun ⟨run, hmem, h⟩ => ⟨run, List.mem_cons_of_mem _ hmem, h⟩

/-- No run maps to a blank or to a mark. -/
theorem stopCodes_outside_runs :
    ∀ run ∈ uppercaseRuns, ∀ n ∈ stopCodes,
      n < run.2.2.2 ∨ run.2.2.2 + (run.2.1 - run.1) < n := by
  decide +kernel

/-- No sequence is empty or holds a blank or a mark. -/
theorem uppercaseSequences_words :
    ∀ entry ∈ uppercaseSequences, entry.2 ≠ [] ∧ ∀ n ∈ entry.2, n ∉ stopCodes := by
  decide +kernel

/-- No blank or mark is mapped to anything else. -/
theorem stopCodes_stay : ∀ n ∈ stopCodes, uppercaseChar (Char.ofNat n) = [Char.ofNat n] := by
  decide +kernel

/-- Of the characters of ASCII, the small letters are mapped, and all others stay. -/
theorem toUpper_ascii : ∀ n < 0x80, (Char.ofNat n).toUpper =
    if 97 ≤ n ∧ n ≤ 122 then Char.ofNat (n - 32) else Char.ofNat n := by
  decide +kernel

/-! ### Characters -/

/-- A number is the code of its character, unless it is the code of none. -/
theorem toNat_ofNat_or_eq_zero (n : Nat) : (Char.ofNat n).toNat = n ∨ Char.ofNat n = '\x00' := by
  by_cases h : n.isValidChar
  · exact Or.inl (congrArg Char.toNat (dif_pos h))
  · exact Or.inr (dif_neg h)

theorem isWordChar_ofNat {n : Nat} (h : n ∉ stopCodes) : isWordChar (Char.ofNat n) = true := by
  rcases toNat_ofNat_or_eq_zero n with hn | hn
  · rwa [isWordChar_iff_notMem, hn]
  · rw [hn]
    decide

/-- The upper case of a character of ASCII. -/
theorem uppercaseChar_of_lt (h : c.toNat < 0x80) :
    uppercaseChar c = [if 97 ≤ c.toNat ∧ c.toNat ≤ 122 then Char.ofNat (c.toNat - 32) else c] := by
  have hupper := toUpper_ascii c.toNat h
  rw [Char.ofNat_toNat] at hupper
  rw [uppercaseChar, if_pos h, hupper]

/-- A character stays, or it is a small letter of ASCII, or a letter with a sequence, or one of a
run. -/
theorem uppercaseChar_cases (c : Char) :
    uppercaseChar c = [c] ∨
      ((97 ≤ c.toNat ∧ c.toNat ≤ 122) ∧ uppercaseChar c = [Char.ofNat (c.toNat - 32)]) ∨
      (∃ sequence, (c.toNat, sequence) ∈ uppercaseSequences ∧
        uppercaseChar c = sequence.map Char.ofNat) ∨
      ∃ run ∈ uppercaseRuns, c.toNat ≤ run.2.1 ∧ (c.toNat - run.1) % run.2.2.1 = 0 ∧
        uppercaseChar c = [Char.ofNat (run.2.2.2 + (c.toNat - run.1))] := by
  by_cases hascii : c.toNat < 0x80
  · rw [uppercaseChar_of_lt hascii]
    by_cases hlower : 97 ≤ c.toNat ∧ c.toNat ≤ 122
    · exact Or.inr (Or.inl ⟨hlower, by rw [if_pos hlower]⟩)
    · exact Or.inl (by rw [if_neg hlower])
  · rw [uppercaseChar, if_neg hascii]
    split
    · rename_i sequence hlookup
      obtain ⟨front, behind, htable, -⟩ := List.lookup_eq_some_iff.mp hlookup
      exact Or.inr (Or.inr (Or.inl ⟨sequence, by simp [htable], rfl⟩))
    · rcases uppercaseInRuns_eq c.toNat uppercaseRuns with hrun | ⟨run, hmem, hlast, hstep, hrun⟩
      · exact Or.inl (by rw [hrun, Char.ofNat_toNat])
      · exact Or.inr (Or.inr (Or.inr ⟨run, hmem, hlast, hstep, by rw [hrun]⟩))

/-- **Blanks and marks** are their own upper case. -/
theorem uppercaseChar_of_not_isWordChar (h : isWordChar c = false) : uppercaseChar c = [c] := by
  have hstays := stopCodes_stay c.toNat (toNat_mem_stopCodes_iff.mpr h)
  rwa [Char.ofNat_toNat] at hstays

/-- **The upper case of a word** is a word. -/
theorem isWordChar_of_mem_uppercaseChar (h : isWordChar c = true) (hu : u ∈ uppercaseChar c) :
    isWordChar u = true := by
  rcases uppercaseChar_cases c with
    hc | ⟨⟨hfirst, hlast⟩, hc⟩ | ⟨sequence, hmem, hc⟩ | ⟨run, hmem, hlast, -, hc⟩
  · obtain rfl := List.mem_singleton.mp (hc ▸ hu)
    exact h
  · have hletters : ∀ n ∈ stopCodes, n < 65 ∨ 90 < n := by decide
    obtain rfl := List.mem_singleton.mp (hc ▸ hu)
    refine isWordChar_ofNat fun hstop => ?_
    have := hletters _ hstop
    omega
  · obtain ⟨n, hn, rfl⟩ := List.mem_map.mp (hc ▸ hu)
    exact isWordChar_ofNat ((uppercaseSequences_words _ hmem).2 n hn)
  · obtain rfl := List.mem_singleton.mp (hc ▸ hu)
    refine isWordChar_ofNat fun hstop => ?_
    have := stopCodes_outside_runs run hmem _ hstop
    omega

theorem uppercaseChar_ne_nil (c : Char) : uppercaseChar c ≠ [] := by
  rcases uppercaseChar_cases c with hc | ⟨-, hc⟩ | ⟨sequence, hmem, hc⟩ | ⟨run, -, -, -, hc⟩
  · simp [hc]
  · simp [hc]
  · simpa [hc] using (uppercaseSequences_words _ hmem).1
  · simp [hc]

/-! ### Upper cases -/

/-- The code is that of a character that is its own upper case. -/
def IsUpper (n : Nat) : Prop :=
  (n < 97 ∨ 122 < n) ∧ uppercaseSequences.lookup n = none ∧ uppercaseInRuns n uppercaseRuns = n

instance (n : Nat) : Decidable (IsUpper n) :=
  inferInstanceAs (Decidable (_ ∧ _))

theorem uppercaseInRuns_eq_self {n : Nat} {runs : List (Nat × Nat × Nat × Nat)}
    (h : ∀ run ∈ runs, ¬(run.1 ≤ n ∧ n ≤ run.2.1 ∧ (n - run.1) % run.2.2.1 = 0)) :
    uppercaseInRuns n runs = n := by
  induction runs with
  | nil => rfl
  | cons run runs ih =>
    obtain ⟨hrun, hruns⟩ := List.forall_mem_cons.mp h
    rw [uppercaseInRuns, if_neg hrun, ih hruns]

/-- The upper cases of a run stand apart from the letters of another run, in front of them, behind
them, or between them. -/
def isApart (run other : Nat × Nat × Nat × Nat) : Bool :=
  Nat.blt other.2.1 run.2.2.2 || Nat.blt (run.2.2.2 + (run.2.1 - run.1)) other.1 ||
    (other.2.2.1 == 2 && (run.2.2.1 == 2 || run.1 == run.2.1) && (run.2.2.2 + other.1) % 2 == 1)

theorem uppercaseRuns_apart :
    (uppercaseRuns.all fun run => uppercaseRuns.all (isApart run)) = true := by
  decide +kernel

/-- No upper case of a run is the letter. -/
def misses (run : Nat × Nat × Nat × Nat) (letter : Nat) : Bool :=
  Nat.blt letter run.2.2.2 || Nat.blt (run.2.2.2 + (run.2.1 - run.1)) letter ||
    (run.2.2.1 == 2 && (run.2.2.2 + letter) % 2 == 1)

theorem uppercaseRuns_miss :
    (uppercaseRuns.all fun run =>
      uppercaseSequences.all fun entry => misses run entry.1) = true := by
  decide +kernel

theorem uppercaseRuns_notAscii :
    ∀ run ∈ uppercaseRuns, run.2.2.2 + (run.2.1 - run.1) < 97 ∨ 122 < run.2.2.2 := by
  decide +kernel

theorem isUpper_of_mem_uppercaseSequences :
    ∀ entry ∈ uppercaseSequences, ∀ n ∈ entry.2, IsUpper n := by
  decide +kernel

theorem isUpper_of_mem_uppercaseRuns {run : Nat × Nat × Nat × Nat} (hrun : run ∈ uppercaseRuns)
    {d : Nat} (hd : d ≤ run.2.1 - run.1) (hstep : d % run.2.2.1 = 0) :
    IsUpper (run.2.2.2 + d) := by
  refine ⟨?_, List.lookup_eq_none_iff.mpr fun entry hentry => ?_,
    uppercaseInRuns_eq_self fun other hother => ?_⟩
  · have := uppercaseRuns_notAscii run hrun
    omega
  · have hmiss := List.all_eq_true.mp (List.all_eq_true.mp uppercaseRuns_miss run hrun) entry hentry
    simp only [misses, Bool.or_eq_true, Nat.blt_eq, Bool.and_eq_true, beq_iff_eq] at hmiss
    rw [bne_iff_ne]
    rcases hmiss with (hmiss | hmiss) | ⟨htwo, hmiss⟩
    · omega
    · omega
    · rw [htwo] at hstep
      omega
  · have hapart :=
      List.all_eq_true.mp (List.all_eq_true.mp uppercaseRuns_apart run hrun) other hother
    simp only [isApart, Bool.or_eq_true, Nat.blt_eq, Bool.and_eq_true, beq_iff_eq] at hapart
    rintro ⟨hfirst, hlast, hother⟩
    rcases hapart with (hapart | hapart) | ⟨⟨htwo, hrun⟩, hapart⟩
    · omega
    · omega
    · -- the letters of the other run are all odd or all even, and the upper cases are not
      rw [htwo] at hother
      rcases hrun with hrun | hrun
      · rw [hrun] at hstep
        omega
      · omega

theorem uppercaseChar_ofNat {n : Nat} (h : IsUpper n) :
    uppercaseChar (Char.ofNat n) = [Char.ofNat n] := by
  obtain ⟨hascii, hsequence, hrun⟩ := h
  rcases toNat_ofNat_or_eq_zero n with hn | hn
  · by_cases hsmall : n < 0x80
    · have hupper := uppercaseChar_of_lt (c := Char.ofNat n) (by rwa [hn])
      rwa [hn, if_neg (by omega)] at hupper
    · rw [uppercaseChar, hn, if_neg hsmall, hsequence, hrun]
  · rw [hn]
    rfl

/-- **The upper case of an upper case** is the same. -/
theorem uppercaseChar_of_mem_uppercaseChar (hu : u ∈ uppercaseChar c) : uppercaseChar u = [u] := by
  rcases uppercaseChar_cases c with
    hc | ⟨⟨hfirst, hlast⟩, hc⟩ | ⟨sequence, hmem, hc⟩ | ⟨run, hmem, hlast, hstep, hc⟩
  · obtain rfl := List.mem_singleton.mp (hc ▸ hu)
    exact hc
  · have hletters : ∀ n < 26, IsUpper (65 + n) := by decide +kernel
    obtain rfl := List.mem_singleton.mp (hc ▸ hu)
    have hupper := hletters (c.toNat - 97) (by omega)
    rw [show 65 + (c.toNat - 97) = c.toNat - 32 by omega] at hupper
    exact uppercaseChar_ofNat hupper
  · obtain ⟨n, hn, rfl⟩ := List.mem_map.mp (hc ▸ hu)
    exact uppercaseChar_ofNat (isUpper_of_mem_uppercaseSequences _ hmem n hn)
  · obtain rfl := List.mem_singleton.mp (hc ▸ hu)
    exact uppercaseChar_ofNat (isUpper_of_mem_uppercaseRuns hmem (by omega) hstep)

end AdditiveSchema.TypeName
