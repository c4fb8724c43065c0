import Mathlib.Data.Bool.AllAny
import RelayChat.Text.LowerCase

/-!
# What lower case leaves as it is

Lower case maps a character to itself or to characters from `a` on, and of the
ASCII characters only the capital letters change (`lowerAt_cases`).  Two things follow
without looking at the tables again.  A delimiter is neither made nor lost
(`forall_mem_lowerAfter_iff`), and the part of a lowered text before its first character
from `a` on is the beginning of the text itself (`lowerAfter_eq_append`).

The one thing that a character takes from its surroundings is the shape of a sigma.
A character without case that does not let a word go on across it hides what comes
before it, so that the text after it is lowered as if it stood alone
(`lowerCase_append_of_uncased`).

Lower case is reached at once.  What it changes and what it makes are two sets of code points
that have none in common (`capitalBits_land_smallBits`; a set is the bits of one number, so that
the two are compared at once), and no capital sigma is left that could ask for its surroundings
again.  So what is in lower case stays as it is, whatever is put before it
(`lowerAfter_of_isLower`).  The two cases of an ASCII letter are one to the mapping and to the
surroundings (`lowerCase_map_toLower`).
-/

namespace RelayChat.Text

variable {before before' front cs more : List Char} {c d : Char}

/-! ### One character -/

/-- The lower case of a character between the texts `before`, nearest first, and `rest`. -/
def lowerAt (before : List Char) (c : Char) (rest : List Char) : List Char :=
  if c = capitalSigma then [lowerSigma before rest] else lowerChar c

theorem lowerAfter_cons_eq (before : List Char) (c : Char) (rest : List Char) :
    lowerAfter before (c :: rest) = lowerAt before c rest ++ lowerAfter (c :: before) rest := rfl

/-- **What the table of runs is good for**: it begins with the capital letters, and the partners
are characters from `a` on. -/
theorem bounds_of_mem_lowerRuns {run : CaseRun} (h : run ∈ lowerRuns) :
    65 ≤ run.first ∧ 97 ≤ run.first + run.shift ∧
      (run.last + run.shift < 0xD800 ∨ 0xDFFF < run.first + run.shift ∧
        run.last + run.shift < 0x110000) := by
  have hall : ∀ run ∈ lowerRuns, 65 ≤ run.first ∧ 97 ≤ run.first + run.shift ∧
      (run.last + run.shift < 0xD800 ∨ 0xDFFF < run.first + run.shift ∧
        run.last + run.shift < 0x110000) := by decide +kernel
  exact hall run h

theorem toNat_ofNat_of_isValidChar {n : Nat} (h : n.isValidChar) : (Char.ofNat n).toNat = n := by
  rw [Char.ofNat, dif_pos h]
  rfl

/-- The partner of a character is one. -/
theorem toNat_partner {run : CaseRun} (hrun : run ∈ lowerRuns) (hc : run.covers c.toNat = true) :
    (Char.ofNat (run.partner c.toNat)).toNat = run.partner c.toNat := by
  simp only [CaseRun.covers, Bool.and_eq_true, decide_eq_true_eq] at hc
  obtain ⟨-, hlow, hvalid⟩ := bounds_of_mem_lowerRuns hrun
  refine toNat_ofNat_of_isValidChar ?_
  unfold CaseRun.partner Nat.isValidChar
  omega

/-- A character that a run covers has a partner from `a` on. -/
theorem le_toNat_partner {run : CaseRun} (hrun : run ∈ lowerRuns) (hc : run.covers c.toNat = true) :
    97 ≤ (Char.ofNat (run.partner c.toNat)).toNat := by
  rw [toNat_partner hrun hc, CaseRun.partner]
  simp only [CaseRun.covers, Bool.and_eq_true, decide_eq_true_eq] at hc
  have hlow := (bounds_of_mem_lowerRuns hrun).2.1
  omega

/-- The capital letters of ASCII by their code points. -/
theorem isUpper_iff : c.isUpper = true ↔ 65 ≤ c.toNat ∧ c.toNat ≤ 90 := by
  have hvalue : c.isUpper = decide (65 ≤ c.val ∧ c.val ≤ 90) := rfl
  rw [hvalue, decide_eq_true_eq, UInt32.le_iff_toNat_le, UInt32.le_iff_toNat_le]
  rfl

/-- **Lower case keeps a character**, or it lies from `A` on, and what it becomes from `a` on. -/
theorem lowerAt_cases (before : List Char) (c : Char) (rest : List Char) :
    lowerAt before c rest = [c] ∧ c.isUpper = false ∨
      (65 ≤ c.toNat ∧ lowerAt before c rest ≠ [] ∧ ∀ d ∈ lowerAt before c rest, 97 ≤ d.toNat) := by
  unfold lowerAt
  split
  · next hsigma =>
    rw [hsigma]
    refine .inr ⟨by decide, by simp, fun d hd => ?_⟩
    rw [List.mem_singleton.mp hd, lowerSigma]
    split <;> decide
  · unfold lowerChar
    split
    · next hdotted =>
      refine .inr ⟨by omega, by simp, fun d hd => ?_⟩
      have hall : ∀ d ∈ ['i', Char.ofNat 0x307], 97 ≤ d.toNat :=
        List.all_iff_forall_prop.mp (by decide)
      exact hall d hd
    · split
      · next run hfind =>
        have hrun := List.mem_of_find?_eq_some hfind
        have hcovers := List.find?_some hfind
        refine .inr ⟨?_, by simp, fun d hd => ?_⟩
        · simp only [CaseRun.covers, Bool.and_eq_true, decide_eq_true_eq] at hcovers
          exact Nat.le_trans (bounds_of_mem_lowerRuns hrun).1 hcovers.1.1
        · rw [List.mem_singleton.mp hd]
          exact le_toNat_partner hrun hcovers
      · next hfind =>
        refine .inl ⟨rfl, Bool.eq_false_iff.mpr fun hupper => ?_⟩
        -- The capitals have a run.
        have hcapitals := List.find?_eq_none.mp hfind ⟨65, 90, 1, 32⟩ (by decide)
        obtain ⟨hlow, hhigh⟩ := isUpper_iff.mp hupper
        exact hcapitals (by simp [CaseRun.covers, hlow, hhigh, Nat.mod_one])

/-! ### A whole text -/

/-- No character is lost altogether. -/
theorem lowerAfter_eq_nil_iff : lowerAfter before cs = [] ↔ cs = [] := by
  cases cs with
  | nil => simp
  | cons c rest =>
      have hne : lowerAt before c rest ≠ [] := by
        rcases lowerAt_cases before c rest with ⟨hkeep, -⟩ | ⟨-, hne, -⟩
        · simp [hkeep]
        · exact hne
      simp [lowerAfter_cons_eq, hne]

/-- A class that holds all characters from `A` on loses none to lower case and gains none. -/
theorem forall_mem_lowerAfter_iff {p : Char → Prop} (hp : ∀ c : Char, 65 ≤ c.toNat → p c) :
    (∀ d ∈ lowerAfter before cs, p d) ↔ ∀ c ∈ cs, p c := by
  induction cs generalizing before with
  | nil => simp
  | cons c rest ih =>
      rw [lowerAfter_cons_eq, List.forall_mem_append, List.forall_mem_cons, ih]
      refine and_congr_left fun _ => ?_
      rcases lowerAt_cases before c rest with ⟨hkeep, -⟩ | ⟨hc, -, hlow⟩
      · rw [hkeep, List.forall_mem_singleton]
      · exact iff_of_true (fun d hd => hp d (by have := hlow d hd; omega)) (hp c hc)

/-- There are no capital letters in lower case. -/
theorem isUpper_of_mem_lowerAfter (hd : d ∈ lowerAfter before cs) : d.isUpper = false := by
  induction cs generalizing before with
  | nil => simp at hd
  | cons c rest ih =>
      rw [lowerAfter_cons_eq] at hd
      rcases List.mem_append.mp hd with hd | hd
      · rcases lowerAt_cases before c rest with ⟨hkeep, hc⟩ | ⟨-, -, hlow⟩
        · rw [hkeep, List.mem_singleton] at hd
          rwa [hd]
        · refine Bool.eq_false_iff.mpr fun hupper => ?_
          have := (isUpper_iff.mp hupper).2
          have := hlow d hd
          omega
      · exact ih hd

/-- **What comes before the first character from `a` on** was there already. -/
theorem lowerAfter_eq_append (hfront : ∀ d ∈ front, d.toNat < 97)
    (h : lowerAfter before cs = front ++ more) :
    ∃ rest, cs = front ++ rest ∧ more = lowerAfter (front.reverse ++ before) rest := by
  induction front generalizing before cs with
  | nil => exact ⟨cs, rfl, h.symm⟩
  | cons d front ih =>
      obtain ⟨hd, hrest⟩ := List.forall_mem_cons.mp hfront
      cases cs with
      | nil => simp at h
      | cons c rest =>
          rw [lowerAfter_cons_eq] at h
          rcases lowerAt_cases before c rest with ⟨hkeep, -⟩ | ⟨-, hne, hlow⟩
          · rw [hkeep, List.cons_append, List.cons_append, List.cons.injEq] at h
            obtain ⟨rfl, h⟩ := h
            obtain ⟨after, rfl, rfl⟩ := ih hrest h
            exact ⟨after, rfl, by simp⟩
          · obtain ⟨e, low, hlower⟩ := List.exists_cons_of_ne_nil hne
            rw [hlower, List.cons_append, List.cons_append, List.cons.injEq] at h
            have := hlow e (by simp [hlower])
            rw [h.1] at this
            omega

/-! ### Characters without case -/

/-- **A character that lower case passes over**: it stays as it is, and no word goes on across
it. -/
def IsUncased (c : Char) : Prop :=
  c ≠ capitalSigma ∧ lowerChar c = [c] ∧ caseIgnorable.has c = false ∧ cased.has c = false

theorem le_of_mem_cased {run : Nat × Nat} (h : run ∈ cased) : 65 ≤ run.1 := by
  have hall : ∀ run ∈ cased, 65 ≤ run.1 := List.all_iff_forall_prop.mp rfl
  exact hall run h

/-- The characters before `A` that a word goes on across: apostrophe, full stop and colon. -/
def wordMarks : List Nat := [0x27, 0x2E, 0x3A]

/-- Among the ASCII characters a word goes on across the marks, and across two that stand between
the capital letters and the small ones. -/
theorem bounds_of_mem_caseIgnorable {run : Nat × Nat} (h : run ∈ caseIgnorable) :
    122 < run.1 ∨ run.1 = run.2 ∧ (run.1 ∈ wordMarks ∨ 90 < run.1 ∧ run.1 < 97) := by
  have hall : ∀ run ∈ caseIgnorable,
      122 < run.1 ∨ run.1 = run.2 ∧ (run.1 ∈ wordMarks ∨ 90 < run.1 ∧ run.1 < 97) := by
    decide +kernel
  exact hall run h

/-- Before `A` there is no case, and only the marks let a word go on. -/
theorem isUncased_of_lt (hc : c.toNat < 65) (hmark : c.toNat ∉ wordMarks) : IsUncased c := by
  have hsigma : c ≠ capitalSigma := by
    rintro rfl
    exact absurd hc (by decide)
  refine ⟨hsigma, ?_, ?_, ?_⟩
  · rcases lowerAt_cases [] c [] with ⟨hkeep, -⟩ | ⟨hle, -⟩
    · rwa [lowerAt, if_neg hsigma] at hkeep
    · omega
  · rw [CodeSet.has, CodeSet.hasCode, List.any_eq_false]
    intro run hrun hcovers
    simp only [Bool.and_eq_true, decide_eq_true_eq] at hcovers
    rcases bounds_of_mem_caseIgnorable hrun with hlow | ⟨hpoint, hmem | hbetween⟩
    · omega
    · have hcode : c.toNat = run.1 := by omega
      exact hmark (hcode ▸ hmem)
    · omega
  · rw [CodeSet.has, CodeSet.hasCode, List.any_eq_false]
    intro run hrun hcovers
    simp only [Bool.and_eq_true, decide_eq_true_eq] at hcovers
    have := le_of_mem_cased hrun
    omega

theorem isUncased_of_isDigit (h : c.isDigit = true) : IsUncased c := by
  have hc : 48 ≤ c.toNat ∧ c.toNat ≤ 57 := Char.isDigit_iff_toNat.mp h
  refine isUncased_of_lt (by omega) ?_
  simp only [wordMarks, List.mem_cons, List.not_mem_nil, or_false]
  omega

theorem meetsCased_cons (c : Char) (before : List Char) :
    meetsCased (c :: before) =
      if caseIgnorable.has c then meetsCased before else cased.has c := by
  unfold meetsCased
  rw [List.dropWhile_cons]
  by_cases h : caseIgnorable.has c = true
  · rw [if_pos h, if_pos h]
  · rw [if_neg h, if_neg h]

/-- What comes before a text matters only by whether a word may have begun there. -/
theorem lowerAfter_congr (h : meetsCased before = meetsCased before') :
    lowerAfter before cs = lowerAfter before' cs := by
  induction cs generalizing before before' with
  | nil => rfl
  | cons c rest ih =>
      have hnext : meetsCased (c :: before) = meetsCased (c :: before') := by
        rw [meetsCased_cons, meetsCased_cons, h]
      rw [lowerAfter_cons, lowerAfter_cons, lowerSigma, lowerSigma, h, ih hnext]

/-- What has no case may be split off at the front: nothing behind it looks back into it. -/
theorem lowerCase_append_of_uncased (hfront : ∀ c ∈ front, IsUncased c) (cs : List Char) :
    lowerCase (front ++ cs) = front ++ lowerCase cs := by
  induction front with
  | nil => rfl
  | cons c front ih =>
      obtain ⟨⟨hsigma, hlower, hignorable, hcased⟩, hfront⟩ := List.forall_mem_cons.mp hfront
      have hhidden : meetsCased [c] = meetsCased [] := by
        rw [meetsCased_cons, if_neg (by simp [hignorable]), hcased]
        rfl
      calc lowerCase (c :: front ++ cs) = c :: lowerAfter [c] (front ++ cs) := by
            rw [lowerCase, List.cons_append, lowerAfter_cons, if_neg hsigma, hlower]
            rfl
        _ = c :: lowerCase (front ++ cs) := by rw [lowerAfter_congr hhidden, lowerCase]
        _ = c :: (front ++ lowerCase cs) := by rw [ih hfront]

/-! ### Lower case of lower case -/

/-- The numbers `0`, `step`, `2 * step` and so on, `count` of them, as the bits of one number. -/
def multiples (step : Nat) : Nat → Nat
  | 0 => 0
  | count + 1 => 1 ||| multiples step count <<< step

/-- Each of the multiples is in the set. -/
theorem testBit_multiples {step count j : Nat} (h : j < count) :
    (multiples step count).testBit (step * j) = true := by
  induction count generalizing j with
  | zero => exact absurd h (Nat.not_lt_zero j)
  | succ count ih =>
      rw [multiples, Nat.testBit_or]
      cases j with
      | zero => simp
      | succ j =>
          rw [Nat.mul_succ, Nat.testBit_shiftLeft, Nat.add_sub_cancel,
            ih (Nat.lt_of_succ_lt_succ h)]
          simp

/-- As many code points as the run has and at the same distances, from `start` on. -/
def CaseRun.bitsFrom (run : CaseRun) (start : Nat) : Nat :=
  multiples run.step ((run.last - run.first) / run.step + 1) <<< start

/-- A code point of the run is in the set as far from `start` as it is from the first one. -/
theorem testBit_bitsFrom {run : CaseRun} {n : Nat} (h : run.covers n = true) (start : Nat) :
    (run.bitsFrom start).testBit (start + (n - run.first)) = true := by
  simp only [CaseRun.covers, Bool.and_eq_true, decide_eq_true_eq, beq_iff_eq] at h
  obtain ⟨⟨hlow, hhigh⟩, hstep⟩ := h
  have hcount : (n - run.first) / run.step < (run.last - run.first) / run.step + 1 :=
    Nat.lt_succ_of_le (Nat.div_le_div_right (by omega))
  have hbit : (multiples run.step _).testBit (run.step * _) = true := testBit_multiples hcount
  rw [Nat.mul_div_cancel' (Nat.dvd_of_mod_eq_zero hstep)] at hbit
  rw [CaseRun.bitsFrom, Nat.testBit_shiftLeft, Nat.add_sub_cancel_left, hbit]
  simp

/-- What is in the set of one item is in the set of all. -/
theorem testBit_foldr_lor {α : Type} {items : List α} {item : α} {f : α → Nat} {n : Nat}
    (hitem : item ∈ items) (hn : (f item).testBit n = true) :
    (items.foldr (fun item bits => f item ||| bits) 0).testBit n = true := by
  induction items with
  | nil => exact absurd hitem List.not_mem_nil
  | cons head rest ih =>
      rw [List.foldr_cons, Nat.testBit_or, Bool.or_eq_true]
      rcases List.mem_cons.mp hitem with rfl | hitem
      · exact .inl hn
      · exact .inr (ih hitem)

/-- U+0130 as a run of its own. -/
def dottedRun : CaseRun := ⟨0x130, 0x130, 1, 0⟩

/-- What U+0130 becomes, and the two shapes of a small sigma. -/
def madeApart : List Char := ['i', Char.ofNat 0x307, Char.ofNat 0x3C2, Char.ofNat 0x3C3]

/-- The code points that lower case changes, as one set. -/
def capitalBits : Nat :=
  (dottedRun :: lowerRuns).foldr (fun run bits => run.bitsFrom run.first ||| bits) 0

/-- The code points that it changes them to, as one set. -/
def smallBits : Nat :=
  lowerRuns.foldr (fun run bits => run.bitsFrom (run.partner run.first) ||| bits) 0 |||
    madeApart.foldr (fun c bits => 1 <<< c.toNat ||| bits) 0

/-- **What lower case makes it does not change.** -/
theorem capitalBits_land_smallBits : capitalBits &&& smallBits = 0 := by
  decide +kernel

/-- **A character of lower case**: it is its own lower case, wherever it stands. -/
def IsLower (c : Char) : Prop :=
  c ≠ capitalSigma ∧ lowerChar c = [c]

theorem IsUncased.isLower (h : IsUncased c) : IsLower c :=
  ⟨h.1, h.2.1⟩

/-- No run changes a code point of the second set, since the sets have none in common. -/
theorem not_covers_of_testBit {run : CaseRun} {n : Nat} (hrun : run ∈ dottedRun :: lowerRuns)
    (hsmall : smallBits.testBit n = true) : run.covers n = false := by
  rw [← Bool.not_eq_true]
  intro hcovers
  have hcapital : capitalBits.testBit n = true := by
    have hlow : run.first ≤ n := by
      simp only [CaseRun.covers, Bool.and_eq_true, decide_eq_true_eq] at hcovers
      exact hcovers.1.1
    have hbit := testBit_bitsFrom hcovers run.first
    rw [Nat.add_sub_cancel' hlow] at hbit
    exact testBit_foldr_lor hrun hbit
  have hboth := Nat.testBit_and capitalBits smallBits n
  rw [capitalBits_land_smallBits, hcapital, hsmall, Nat.zero_testBit] at hboth
  cases hboth

/-- So a code point of the second set is of lower case. -/
theorem isLower_of_testBit (h : smallBits.testBit c.toNat = true) : IsLower c := by
  constructor
  · -- A run covers the capital sigma.
    rintro rfl
    have hrun : ⟨931, 939, 1, 32⟩ ∈ dottedRun :: lowerRuns := by decide
    exact absurd (not_covers_of_testBit hrun h) (by decide)
  · have hne : c.toNat ≠ 0x130 := by
      intro hcode
      rw [hcode] at h
      exact absurd (not_covers_of_testBit List.mem_cons_self h) (by decide)
    have hnone : lowerRuns.find? (·.covers c.toNat) = none :=
      List.find?_eq_none.mpr fun run hrun => by
        simp [not_covers_of_testBit (List.mem_cons_of_mem _ hrun) h]
    rw [lowerChar, if_neg hne, hnone]

theorem isLower_of_mem_madeApart (h : c ∈ madeApart) : IsLower c := by
  have hbit : (1 <<< c.toNat).testBit c.toNat = true := by simp [Nat.testBit_shiftLeft]
  refine isLower_of_testBit ?_
  rw [smallBits, Nat.testBit_or, testBit_foldr_lor h hbit, Bool.or_true]

/-- What a run makes is in the second set. -/
theorem isLower_partner {run : CaseRun} (hrun : run ∈ lowerRuns)
    (hc : run.covers c.toNat = true) : IsLower (Char.ofNat (run.partner c.toNat)) := by
  have hshift : run.partner c.toNat = run.partner run.first + (c.toNat - run.first) := by
    have hlow := (bounds_of_mem_lowerRuns hrun).2.1
    simp only [CaseRun.covers, Bool.and_eq_true, decide_eq_true_eq] at hc
    unfold CaseRun.partner
    omega
  have hbit := testBit_bitsFrom hc (run.partner run.first)
  rw [← hshift] at hbit
  refine isLower_of_testBit ?_
  rw [toNat_partner hrun hc, smallBits, Nat.testBit_or, testBit_foldr_lor hrun hbit, Bool.true_or]

/-- **What a character becomes is of lower case.** -/
theorem isLower_of_mem_lowerAt {rest : List Char} (hd : d ∈ lowerAt before c rest) :
    IsLower d := by
  unfold lowerAt at hd
  split at hd
  · refine isLower_of_mem_madeApart ?_
    rw [List.mem_singleton.mp hd, lowerSigma]
    split <;> simp [madeApart]
  · next hsigma =>
    unfold lowerChar at hd
    split at hd
    · exact isLower_of_mem_madeApart (List.mem_append_left _ hd)
    · next hdotted =>
      split at hd
      · next run hfind =>
        have hcovers := List.find?_some hfind
        rw [List.mem_singleton.mp hd]
        exact isLower_partner (List.mem_of_find?_eq_some hfind) hcovers
      · next hfind =>
        obtain rfl := List.mem_singleton.mp hd
        exact ⟨hsigma, by rw [lowerChar, if_neg hdotted, hfind]⟩

/-- **What a text becomes is of lower case**, character by character. -/
theorem isLower_of_mem_lowerAfter (hd : d ∈ lowerAfter before cs) : IsLower d := by
  induction cs generalizing before with
  | nil => simp at hd
  | cons c rest ih =>
      rw [lowerAfter_cons_eq] at hd
      rcases List.mem_append.mp hd with hd | hd
      · exact isLower_of_mem_lowerAt hd
      · exact ih hd

/-- **A text in lower case stays as it is**, whatever comes before it. -/
theorem lowerAfter_of_isLower (h : ∀ c ∈ cs, IsLower c) : lowerAfter before cs = cs := by
  induction cs generalizing before with
  | nil => rfl
  | cons c rest ih =>
      obtain ⟨⟨hsigma, hlower⟩, hrest⟩ := List.forall_mem_cons.mp h
      rw [lowerAfter_cons, if_neg hsigma, hlower, ih hrest]
      rfl

/-! ### The two cases of an ASCII letter -/

theorem toLower_of_isUpper (h : c.isUpper = true) : c.toLower = Char.ofNat (c.toNat + 32) := by
  have hall : ∀ n < 26, (Char.ofNat (65 + n)).toLower = Char.ofNat (65 + n + 32) := by decide
  obtain ⟨hlow, hhigh⟩ := isUpper_iff.mp h
  have hletter := hall (c.toNat - 65) (by omega)
  rwa [Nat.add_sub_cancel' hlow, Char.ofNat_toNat] at hletter

theorem lowerChar_of_isUpper (h : c.isUpper = true) : lowerChar c = [c.toLower] := by
  obtain ⟨hlow, hhigh⟩ := isUpper_iff.mp h
  have hfind : lowerRuns.find? (·.covers c.toNat) = some ⟨65, 90, 1, 32⟩ := by
    have hcapitals : lowerRuns = ⟨65, 90, 1, 32⟩ :: lowerRuns.tail := rfl
    rw [hcapitals, List.find?_cons_of_pos]
    simp [CaseRun.covers, hlow, hhigh, Nat.mod_one]
  rw [lowerChar, if_neg (by omega), hfind, toLower_of_isUpper h]
  rfl

/-- Every letter of ASCII has case, and ends no word. -/
theorem case_of_letter (h : 65 ≤ c.toNat ∧ c.toNat ≤ 90 ∨ 97 ≤ c.toNat ∧ c.toNat ≤ 122) :
    caseIgnorable.has c = false ∧ cased.has c = true := by
  constructor
  · rw [CodeSet.has, CodeSet.hasCode, List.any_eq_false]
    intro run hrun hcovers
    simp only [Bool.and_eq_true, decide_eq_true_eq] at hcovers
    rcases bounds_of_mem_caseIgnorable hrun with hlow | ⟨hpoint, hmark | hbetween⟩
    · omega
    · have hsmall : ∀ n ∈ wordMarks, n < 65 := by decide
      have := hsmall run.1 hmark
      omega
    · omega
  · rw [CodeSet.has, CodeSet.hasCode, List.any_eq_true]
    rcases h with hcapital | hsmall
    · exact ⟨(65, 90), by decide, by simpa using hcapital⟩
    · exact ⟨(97, 122), by decide, by simpa using hsmall⟩

/-- **The two cases of an ASCII letter are one to lower case**, as what is mapped and as what
stands around a sigma. -/
theorem toLower_alike (c : Char) :
    (c.toLower = capitalSigma ↔ c = capitalSigma) ∧ lowerChar c.toLower = lowerChar c ∧
      caseIgnorable.has c.toLower = caseIgnorable.has c ∧ cased.has c.toLower = cased.has c := by
  by_cases hupper : c.isUpper = true
  · obtain ⟨hlow, hhigh⟩ := isUpper_iff.mp hupper
    have hcode : c.toLower.toNat = c.toNat + 32 := by
      rw [toLower_of_isUpper hupper]
      exact toNat_ofNat_of_isValidChar (by unfold Nat.isValidChar; omega)
    have hmapped := lowerChar_of_isUpper hupper
    have hsigma : c ≠ capitalSigma := by
      rintro rfl
      exact absurd hhigh (by decide)
    have hmem : c.toLower ∈ lowerAt [] c [] := by
      rw [lowerAt, if_neg hsigma, hmapped]
      exact List.mem_singleton_self _
    have hsmall : IsLower c.toLower := isLower_of_mem_lowerAt hmem
    obtain ⟨hignorable, hcased⟩ := case_of_letter (.inl ⟨hlow, hhigh⟩)
    obtain ⟨hignorable', hcased'⟩ := case_of_letter (c := c.toLower) (.inr (by omega))
    refine ⟨iff_of_false hsmall.1 hsigma, ?_, ?_, ?_⟩
    · rw [hmapped, hsmall.2]
    · rw [hignorable, hignorable']
    · rw [hcased, hcased']
  · have hsame : c.toLower = c := dif_neg fun h => hupper (decide_eq_true h)
    simp [hsame]

/-- To look for a letter beside a sigma, the case of ASCII letters does not matter. -/
theorem meetsCased_map_toLower (cs : List Char) :
    meetsCased (cs.map Char.toLower) = meetsCased cs := by
  induction cs with
  | nil => rfl
  | cons c rest ih =>
      obtain ⟨-, -, hignorable, hcased⟩ := toLower_alike c
      rw [List.map_cons, meetsCased_cons, meetsCased_cons, ih, hignorable, hcased]

theorem lowerAfter_map_toLower (before cs : List Char) :
    lowerAfter (before.map Char.toLower) (cs.map Char.toLower) = lowerAfter before cs := by
  induction cs generalizing before with
  | nil => rfl
  | cons c rest ih =>
      obtain ⟨hsigma, hlower, -, -⟩ := toLower_alike c
      have hword : lowerSigma (before.map Char.toLower) (rest.map Char.toLower) =
          lowerSigma before rest := by
        rw [lowerSigma, lowerSigma, meetsCased_map_toLower, meetsCased_map_toLower]
      have hnext := ih (c :: before)
      rw [List.map_cons] at hnext
      rw [List.map_cons, lowerAfter_cons, lowerAfter_cons, hnext, hword, hlower]
      simp only [hsigma]

/-- **Lower case does not see the case of ASCII letters.** -/
theorem lowerCase_map_toLower (cs : List Char) : lowerCase (cs.map Char.toLower) = lowerCase cs :=
  lowerAfter_map_toLower [] cs

end RelayChat.Text
