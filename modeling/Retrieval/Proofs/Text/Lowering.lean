import Mathlib
import Retrieval.Proofs.Text.Runs
import Retrieval.Text.Casing

/-!
# Texts in lower case

Lowering leaves no capital letter of ASCII in a text, wherever the letters come from (`isUpper_of_mem_lower`). What a
character becomes depends on its neighbours, but a blank hides those on its other side, so a text is lowered part by
part between its blanks (`lowerAfter_append_cons`).
-/

set_option autoImplicit false

namespace Retrieval.Text

/-! ### No capital letters -/

theorem isUpper_iff {c : Char} : c.isUpper = true ↔ 65 ≤ c.toNat ∧ c.toNat ≤ 90 := by
  simp [Char.isUpper, UInt32.le_iff_toNat_le, ← Char.toNat_val]

/-- Capital letters come early. -/
theorem isUpper_of_lt {c : Char} (h : 90 < c.toNat) : c.isUpper = false := by
  rw [← Bool.not_eq_true, isUpper_iff]
  omega

/-- A number that is no code point gives the NUL character, which is no letter either. -/
theorem isUpper_ofNat {n : Nat} (h : 90 < n) : (Char.ofNat n).isUpper = false := by
  rw [← Bool.not_eq_true, isUpper_iff, Char.toNat_ofNat]
  split <;> omega

theorem lt_first_add_shift : ∀ run ∈ Casing.lowerRuns, 90 < run.first + run.shift := by
  decide +kernel

/-- No run of the table gives a capital letter. -/
theorem isUpper_shifted {c : Char} (h : 0x80 ≤ c.toNat) : (shifted Casing.lowerRuns c).isUpper = false := by
  rw [shifted]
  split
  · rename_i run found
    have low := lt_first_add_shift run (List.mem_of_find?_eq_some found)
    have covers := List.find?_some found
    simp only [Casing.Run.covers, Bool.and_eq_true, decide_eq_true_eq] at covers
    exact isUpper_ofNat (by omega)
  · exact isUpper_of_lt (by omega)

theorem isUpper_of_mem_lowered {before after : List Char} {c d : Char} (h : d ∈ lowered before c after) :
    d.isUpper = false := by
  rw [lowered] at h
  split at h
  · rw [List.mem_singleton.1 h]
    exact Char.isUpper_toLower_eq_false c
  · rename_i high
    split at h
    · rw [List.mem_singleton] at h
      split at h <;> subst h <;> rfl
    · split at h
      · have small : ∀ d ∈ ['i', Char.ofNat 0x307], d.isUpper = false :=
          List.forall_mem_cons.2 ⟨rfl, List.forall_mem_singleton.2 rfl⟩
        exact small d h
      · rw [List.mem_singleton.1 h]
        exact isUpper_shifted (Nat.le_of_not_lt high)

theorem isUpper_of_mem_lowerAfter {before cs : List Char} {c : Char} (h : c ∈ lowerAfter before cs) :
    c.isUpper = false := by
  induction cs generalizing before with
  | nil => cases h
  | cons d cs ih =>
    rcases List.mem_append.1 h with own | later
    · exact isUpper_of_mem_lowered own
    · exact ih later

/-- No capital letter of ASCII is in a text in lower case. -/
theorem isUpper_of_mem_lower {s : String} {c : Char} (h : c ∈ (lower s).toList) : c.isUpper = false := by
  rw [lower, String.toList_ofList] at h
  exact isUpper_of_mem_lowerAfter h

/-! ### Blanks -/

/-- The code points of the blank characters. -/
def blankPoints : List Nat :=
  List.range' 9 5 ++ List.range' 0x1C 5 ++ [0x85, 0xA0, 0x1680] ++ List.range' 0x2000 11 ++
    [0x2028, 0x2029, 0x202F, 0x205F, 0x3000]

theorem toNat_mem_blankPoints {c : Char} (h : isBlank c = true) : c.toNat ∈ blankPoints := by
  simp only [isBlank, Bool.or_eq_true, Bool.and_eq_true, decide_eq_true_eq, beq_iff_eq] at h
  simp only [blankPoints, List.mem_append, List.mem_range'_1, List.mem_cons, List.not_mem_nil]
  omega

/-- What is decided for each blank holds of the blanks. -/
theorem blank_cases {P : Char → Prop} (all : ∀ n ∈ blankPoints, P (Char.ofNat n)) {c : Char} (h : isBlank c = true) :
    P c := by
  rw [← Char.ofNat_toNat c]
  exact all _ (toNat_mem_blankPoints h)

/-- A blank is of no case, and casing does not look through it. -/
theorem isCased_blank {c : Char} (h : isBlank c = true) : isCased c = false ∧ isTransparent c = false := by
  have table : ∀ n ∈ blankPoints,
      toggled Casing.casedChanges n = false ∧ toggled Casing.transparentChanges n = false := by decide +kernel
  exact table _ (toNat_mem_blankPoints h)

theorem lowered_blank {c : Char} (h : isBlank c = true) (before after : List Char) :
    lowered before c after = [c] := by
  have table : c.toLower = c ∧ c ≠ capitalSigma ∧ c ≠ 'İ' ∧ shifted Casing.lowerRuns c = c :=
    blank_cases (P := fun c => c.toLower = c ∧ c ≠ capitalSigma ∧ c ≠ 'İ' ∧ shifted Casing.lowerRuns c = c)
      (by decide +kernel) h
  obtain ⟨small, noSigma, noDot, fixed⟩ := table
  rw [lowered, small, if_neg noSigma, if_neg noDot, fixed, ite_self]

/-! ### Parts between blanks -/

/-- Casing sees no further than the next blank. -/
theorem casedNext_append_cons {c : Char} (h : isBlank c = true) (xs ys : List Char) :
    casedNext (xs ++ c :: ys) = casedNext xs := by
  obtain ⟨noCase, solid⟩ := isCased_blank h
  rw [casedNext, casedNext, (span_append_cons solid xs ys).2]
  cases xs.dropWhile isTransparent with
  | nil => exact noCase
  | cons d ds => rfl

/-- The neighbours of a character decide its form only by what casing sees of them. -/
theorem lowered_congr {before before' after after' : List Char} (left : casedNext before = casedNext before')
    (right : casedNext after = casedNext after') (c : Char) : lowered before c after = lowered before' c after' := by
  rw [lowered, lowered, left, right]

theorem lowerAfter_hidden {c : Char} (h : isBlank c = true) (before hidden cs : List Char) :
    lowerAfter (before ++ c :: hidden) cs = lowerAfter before cs := by
  induction cs generalizing before with
  | nil => rfl
  | cons d cs ih =>
    have later := ih (d :: before)
    rw [List.cons_append] at later
    rw [lowerAfter, lowerAfter, later, lowered_congr (casedNext_append_cons h before hidden) rfl]

/-- **Lowering goes part by part.** A blank stays as it is, and what is on its one side does not change the other. -/
theorem lowerAfter_append_cons {c : Char} (h : isBlank c = true) (before xs ys : List Char) :
    lowerAfter before (xs ++ c :: ys) = lowerAfter before xs ++ c :: lowerAfter [] ys := by
  induction xs generalizing before with
  | nil =>
    show lowered before c ys ++ lowerAfter ([] ++ c :: before) ys = c :: lowerAfter [] ys
    rw [lowered_blank h, lowerAfter_hidden h, List.singleton_append]
  | cons x xs ih =>
    rw [List.cons_append, lowerAfter, lowerAfter, ih, List.append_assoc,
      lowered_congr rfl (casedNext_append_cons h xs ys)]

end Retrieval.Text
