import Retrieval.Proofs.Numeral.Digits
import Retrieval.Proofs.Text.Runs

/-!
# The texts of integers

A text without blanks is an integer exactly if it is an optional sign and groups of decimal digits with single
underscores between them, no more digits than can be read (`readInteger_ok_iff`).
-/

set_option autoImplicit false

namespace Retrieval.Numeral
open Retrieval.Text

/-- The signs that an integer may begin with, or none. -/
def signs : List (List Char) := [[], ['+'], ['-']]

/-- Groups of decimal digits of any script, together no more than can be read. -/
structure DigitGroups (groups : List (List Char)) : Prop where
  some : groups ≠ []
  full : ∀ g ∈ groups, g ≠ []
  decimal : ∀ g ∈ groups, ∀ c ∈ g, isDecimal c = true
  short : groups.flatten.length ≤ digitLimit

/-- A text is an optional sign and groups of digits with an underscore between each two, which stand for the integer. -/
def Denotes (s : String) (n : Int) : Prop :=
  ∃ sign ∈ signs, ∃ groups, DigitGroups groups ∧ s.toList = sign ++ ['_'].intercalate groups ∧
    n = signed (sign = ['-']) (ofDigits groups.flatten)

/-! ### Signs -/

theorem exists_sign (cs : List Char) :
    ∃ sign ∈ signs, cs = sign ++ (splitSign cs).2 ∧ (splitSign cs).1 = decide (sign = ['-']) := by
  unfold splitSign
  split
  · exact ⟨['-'], by simp [signs], rfl, rfl⟩
  · exact ⟨['+'], by simp [signs], rfl, rfl⟩
  · exact ⟨[], by simp [signs], rfl, rfl⟩

theorem splitSign_append {sign cs : List Char} (known : sign ∈ signs) (unsigned : ∀ c ∈ cs, c ≠ '-' ∧ c ≠ '+') :
    splitSign (sign ++ cs) = (decide (sign = ['-']), cs) := by
  have bare : splitSign cs = (false, cs) := by
    unfold splitSign
    split
    · exact absurd rfl (unsigned _ (List.mem_cons_self ..)).1
    · exact absurd rfl (unsigned _ (List.mem_cons_self ..)).2
    · rfl
  simp only [signs, List.mem_cons, List.not_mem_nil, or_false] at known
  rcases known with rfl | rfl | rfl
  · exact bare
  · rfl
  · rfl

/-! ### Groups of digits -/

section Groups

variable {groups : List (List Char)} (h : DigitGroups groups)
include h

/-- What stands in groups of digits, and between them, can stand in a number. -/
theorem DigitGroups.forall_mem_intercalate :
    ∀ c ∈ ['_'].intercalate groups, (isDecimal c || c == '_') = true :=
  Text.forall_mem_intercalate (by simp) fun g mem c hc => by rw [h.decimal g mem c hc, Bool.true_or]

theorem DigitGroups.splitOn_intercalate : (['_'].intercalate groups).splitOn '_' = groups := by
  refine List.splitOn_intercalate '_' (fun g mem underscore => ?_) h.some
  have decimal := h.decimal g mem '_' underscore
  exact absurd decimal (by decide)

end Groups

/-- **The texts of integers.** A text without blanks is read as an integer exactly if it is an optional sign and groups
of digits with an underscore between each two, which denote the integer. -/
theorem readInteger_ok_iff {s : String} (solid : ∀ c ∈ s.toList, isBlank c = false) {n : Int} :
    readInteger s = .ok n ↔ Denotes s n := by
  have bare : withoutMargin s.toList = s.toList :=
    withoutMargin_eq fun c hc => by rw [isMargin, solid c hc, Bool.false_and]
  simp only [readInteger, bare]
  constructor
  · intro read
    obtain ⟨sign, known, parts, negative⟩ := exists_sign s.toList
    split at read
    · cases read
    · rename_i full
      split at read
      · cases read
      · rename_i short
        split at read
        · cases read
        · rename_i whole
          cases read
          have all : ∀ c ∈ (splitSign s.toList).2, (isDecimal c || c == '_') = true :=
            List.dropWhile_eq_nil_iff.1 (not_not.1 whole)
          rw [List.takeWhile_eq_self_iff.2 all] at full short ⊢
          refine ⟨sign, known, (splitSign s.toList).2.splitOn '_', ⟨List.splitOn_ne_nil _ _, ?_, ?_, ?_⟩, ?_, ?_⟩
          · have none_empty : [] ∉ (splitSign s.toList).2.splitOn '_' := by simpa using full
            exact fun g mem empty => none_empty (empty ▸ mem)
          · intro g mem c hc
            obtain ⟨digit, inBody⟩ := forall_mem_splitOn g mem c hc
            simpa [digit] using all c inBody
          · omega
          · rw [List.intercalate_splitOn]
            exact parts
          · rw [negative]
  · rintro ⟨sign, known, groups, h, parts, rfl⟩
    have unsigned : ∀ c ∈ ['_'].intercalate groups, c ≠ '-' ∧ c ≠ '+' := by
      intro c hc
      have inNumber := h.forall_mem_intercalate c hc
      constructor
      · rintro rfl
        exact absurd inNumber (by decide)
      · rintro rfl
        exact absurd inNumber (by decide)
    have full : groups.any List.isEmpty = false := by simpa using h.full
    have short : ¬ digitLimit < groups.flatten.length := Nat.not_lt.2 h.short
    rw [parts, splitSign_append known unsigned]
    dsimp only
    rw [List.takeWhile_eq_self_iff.2 h.forall_mem_intercalate, List.dropWhile_eq_nil_iff.2 h.forall_mem_intercalate,
      h.splitOn_intercalate, full, if_neg Bool.false_ne_true, if_neg short]
    rfl

end Retrieval.Numeral
