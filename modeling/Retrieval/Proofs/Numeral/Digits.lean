import Mathlib.Algebra.Ring.Nat
import Mathlib.Data.List.TakeWhile
import Retrieval.Numeral.Decimal
import Retrieval.Numeral.Integer

/-!
# Decimal digits

The digits of a number denote it, and an integer in its decimal form is read back as long as it has no more than
`digitLimit` digits.
-/

set_option autoImplicit false

namespace Retrieval.Numeral
open Retrieval.Text

/-- Whether a text consists of ASCII digits. -/
def AllDigits (cs : List Char) : Prop := ∀ c ∈ cs, c.isDigit = true

theorem range_of_isDigit {c : Char} (h : c.isDigit = true) : 48 ≤ c.toNat ∧ c.toNat ≤ 57 := by
  simp only [Char.isDigit, Bool.and_eq_true, decide_eq_true_eq, ge_iff_le, UInt32.le_iff_toNat_le] at h
  exact h

theorem decimalValue?_of_isDigit {c : Char} (h : c.isDigit = true) : decimalValue? c = some (c.toNat - 48) := by
  have range := range_of_isDigit h
  rw [decimalValue?, if_pos (by omega), if_pos (by simpa using range)]

theorem isDecimal_of_isDigit {c : Char} (h : c.isDigit = true) : isDecimal c = true := by
  rw [isDecimal, decimalValue?_of_isDigit h]
  rfl

theorem ofDigits_eq {ds : List Char} (h : AllDigits ds) : ofDigits ds = Nat.ofDigitChars 10 ds 0 := by
  suffices agree : ∀ n, ds.foldl (fun n d => 10 * n + (decimalValue? d).getD 0) n = Nat.ofDigitChars 10 ds n from
    agree 0
  induction ds with
  | nil => simp
  | cons d ds ih =>
    intro n
    rw [List.foldl_cons, Nat.ofDigitChars_cons, decimalValue?_of_isDigit (h d (List.mem_cons_self ..))]
    exact ih (fun c hc => h c (List.mem_cons_of_mem d hc)) _

theorem allDigits_digitsOf (n : Nat) : AllDigits (digitsOf n) :=
  fun _ hc => Nat.isDigit_of_mem_toDigits (by decide) (by decide) hc

theorem allDigits_append {cs ds : List Char} (hc : AllDigits cs) (hd : AllDigits ds) : AllDigits (cs ++ ds) := by
  intro c h
  rcases List.mem_append.1 h with h | h
  · exact hc c h
  · exact hd c h

theorem AllDigits.take {ds : List Char} (h : AllDigits ds) (n : Nat) : AllDigits (ds.take n) :=
  fun c hc => h c (List.mem_of_mem_take hc)

theorem AllDigits.drop {ds : List Char} (h : AllDigits ds) (n : Nat) : AllDigits (ds.drop n) :=
  fun c hc => h c (List.mem_of_mem_drop hc)

theorem allDigits_zeros (n : Nat) : AllDigits (List.replicate n '0') := by
  intro c h
  rw [(List.mem_replicate.1 h).2]
  decide

theorem ofDigits_append_zeros {ds : List Char} (h : AllDigits ds) (n : Nat) :
    ofDigits (ds ++ List.replicate n '0') = 10 ^ n * ofDigits ds := by
  rw [ofDigits_eq (allDigits_append h (allDigits_zeros n)), Nat.ofDigitChars_append, Nat.ofDigitChars_replicate_zero,
    ofDigits_eq h]

theorem ofDigits_zeros_append {ds : List Char} (h : AllDigits ds) (n : Nat) :
    ofDigits (List.replicate n '0' ++ ds) = ofDigits ds := by
  rw [ofDigits_eq (allDigits_append (allDigits_zeros n) h), Nat.ofDigitChars_append, Nat.ofDigitChars_replicate_zero,
    ofDigits_eq h, Nat.mul_zero]

theorem digitsOf_ne_nil (n : Nat) : digitsOf n ≠ [] := Nat.toDigits_ne_nil

theorem ofDigits_digitsOf (n : Nat) : ofDigits (digitsOf n) = n := by
  rw [ofDigits_eq (allDigits_digitsOf n), digitsOf, Nat.ofDigitChars_ten_toDigits]

theorem length_digitsOf_le_iff {n k : Nat} (h : 0 < k) : (digitsOf n).length ≤ k ↔ n < 10 ^ k :=
  Nat.length_toDigits_le_iff (by decide) h

/-- The digits of a positive number start with another one than zero. -/
theorem head_digitsOf {n : Nat} (h : 0 < n) : ∃ d ds, digitsOf n = d :: ds ∧ d ≠ '0' := by
  induction n using Nat.strongRecOn with
  | ind n ih =>
    rw [digitsOf, Nat.toDigits_eq_if (by decide)]
    split
    · exact ⟨n.digitChar, [], rfl, by simpa using Nat.ne_of_gt h⟩
    · obtain ⟨d, ds, hd, ne⟩ := ih (n / 10) (by omega) (by omega)
      rw [digitsOf] at hd
      exact ⟨d, ds ++ [(n % 10).digitChar], by rw [hd, List.cons_append], ne⟩

/-! ### Integers -/

/-- The decimal form of an integer. -/
theorem toList_toString (n : Int) : (toString n).toList = (if n < 0 then ['-'] else []) ++ digitsOf n.natAbs := by
  cases n with
  | ofNat m => simp [toString, Int.repr, digitsOf]
  | negSucc m => simp [toString, Int.repr, digitsOf, Int.negSucc_lt_zero]

theorem withoutMargin_eq {cs : List Char} (h : ∀ c ∈ cs, isMargin c = false) : withoutMargin cs = cs := by
  have front : ∀ ds : List Char, (∀ c ∈ ds, isMargin c = false) → ds.dropWhile isMargin = ds := by
    intro ds hds
    cases ds with
    | nil => rfl
    | cons d ds => rw [List.dropWhile_cons_of_neg (by simp [hds d])]
  rw [withoutMargin, front cs h, front cs.reverse (by simpa using h), List.reverse_reverse]

theorem isBlank_of_isDigit {c : Char} (h : c.isDigit = true) : isBlank c = false := by
  have range := range_of_isDigit h
  simp only [isBlank, Bool.or_eq_false_iff, Bool.and_eq_false_iff, decide_eq_false_iff_not, beq_eq_false_iff_ne]
  omega

theorem isMargin_of_isDigit {c : Char} (h : c.isDigit = true) : isMargin c = false := by
  rw [isMargin, isBlank_of_isDigit h, Bool.false_and]

theorem splitSign_digits {ds : List Char} (digits : AllDigits ds) : splitSign ds = (false, ds) := by
  cases ds with
  | nil => rfl
  | cons d ds =>
    have digit := digits d (List.mem_cons_self ..)
    unfold splitSign
    split
    · rename_i e
      cases e
      exact absurd digit (by decide)
    · rename_i e
      cases e
      exact absurd digit (by decide)
    · rfl

theorem splitSign_signed (negative : Bool) {ds : List Char} (digits : AllDigits ds) :
    splitSign ((if negative then ['-'] else []) ++ ds) = (negative, ds) := by
  cases negative with
  | false => exact splitSign_digits digits
  | true => rfl

/-- Digits without a separator are read as what they denote, unless there are too many. -/
theorem readInteger_signed (negative : Bool) {ds : List Char} (digits : AllDigits ds) (some_digit : ds ≠ []) :
    readInteger (String.ofList ((if negative then ['-'] else []) ++ ds)) =
      if digitLimit < ds.length then .error (.tooLong ds.length) else .ok (signed negative (ofDigits ds)) := by
  have bare : withoutMargin ((if negative then ['-'] else []) ++ ds) = (if negative then ['-'] else []) ++ ds := by
    apply withoutMargin_eq
    intro c hc
    rcases List.mem_append.1 hc with sign | digit
    · cases negative with
      | false => cases sign
      | true =>
        rw [List.mem_singleton.1 sign]
        decide
    · exact isMargin_of_isDigit (digits c digit)
  have whole : ds.takeWhile (fun c => isDecimal c || c == '_') = ds := by
    rw [List.takeWhile_eq_self_iff]
    intro c hc
    rw [isDecimal_of_isDigit (digits c hc), Bool.true_or]
  have rest : ds.dropWhile (fun c => isDecimal c || c == '_') = [] := by
    rw [List.dropWhile_eq_nil_iff]
    intro c hc
    rw [isDecimal_of_isDigit (digits c hc), Bool.true_or]
  have single : ds.splitOn '_' = [ds] := by
    apply List.splitOn_eq_singleton
    intro separator
    exact absurd (digits _ separator) (by decide)
  have full : [ds].any List.isEmpty = false := by
    cases ds with
    | nil => exact absurd rfl some_digit
    | cons d ds => rfl
  simp only [readInteger, String.toList_ofList, bare, splitSign_signed negative digits, whole, rest, single, full,
    List.flatten_singleton]
  simp

theorem signed_natAbs (n : Int) : signed (decide (n < 0)) n.natAbs = n := by
  unfold signed
  by_cases negative : n < 0
  · rw [if_pos (by simpa using negative)]
    omega
  · rw [if_neg (by simpa using negative)]
    omega

/-- Whether an integer has few enough digits to be read. -/
def Short (n : Int) : Prop := n.natAbs < 10 ^ digitLimit

instance (n : Int) : Decidable (Short n) := inferInstanceAs (Decidable (n.natAbs < 10 ^ digitLimit))

/-- An integer is read back from its decimal form if it is short. -/
theorem readInteger_toString_eq (n : Int) :
    readInteger (toString n) =
      if digitLimit < (digitsOf n.natAbs).length then .error (.tooLong (digitsOf n.natAbs).length) else .ok n := by
  have read := readInteger_signed (decide (n < 0)) (allDigits_digitsOf n.natAbs) (digitsOf_ne_nil _)
  rw [ofDigits_digitsOf, signed_natAbs] at read
  rw [← String.ofList_toList (s := toString n), toList_toString]
  simpa using read

theorem readInteger_toString {n : Int} (h : Short n) : readInteger (toString n) = .ok n := by
  have short : (digitsOf n.natAbs).length ≤ digitLimit := (length_digitsOf_le_iff (by decide)).2 h
  rw [readInteger_toString_eq, if_neg (by omega)]

/-- Only a short integer is read from its decimal form. -/
theorem short_of_readInteger {n m : Int} (h : readInteger (toString n) = .ok m) : Short n := by
  rw [readInteger_toString_eq] at h
  split at h
  · cases h
  · rename_i short
    exact (length_digitsOf_le_iff (by decide)).1 (by omega)

/-! ### Digits of any script -/

/-- A word of digit characters is no integer exactly if one of them cannot stand in a number, or there are too many. -/
theorem readInteger_digits_error_iff {s : String} (some_digit : s.toList ≠ [])
    (solid : ∀ c ∈ s.toList, isBlank c = false) (digits : ∀ c ∈ s.toList, isDigit c = true) :
    (∃ e, readInteger s = .error e) ↔ (∃ c ∈ s.toList, isDecimal c = false) ∨ digitLimit < s.toList.length := by
  have bare : withoutMargin s.toList = s.toList :=
    withoutMargin_eq fun c hc => by rw [isMargin, solid c hc, Bool.false_and]
  have split : splitSign s.toList = (false, s.toList) := by
    unfold splitSign
    split
    · rename_i e
      exact absurd (digits '-' (e ▸ List.mem_cons_self ..)) (by decide)
    · rename_i e
      exact absurd (digits '+' (e ▸ List.mem_cons_self ..)) (by decide)
    · rfl
  have underscore : ∀ c ∈ s.toList, (isDecimal c || c == '_') = isDecimal c := by
    intro c hc
    have : c ≠ '_' := by
      rintro rfl
      exact absurd (digits _ hc) (by decide)
    simp [this]
  have separated : ∀ ds : List Char, ds.Sublist s.toList → ds.splitOn '_' = [ds] := by
    intro ds sub
    apply List.splitOn_eq_singleton
    intro separator
    exact absurd (digits _ (sub.mem separator)) (by decide)
  simp only [readInteger, bare, split]
  rw [separated _ (List.takeWhile_sublist _), List.flatten_singleton]
  by_cases figure : ∃ c ∈ s.toList, isDecimal c = false
  · have rest : s.toList.dropWhile (fun c => isDecimal c || c == '_') ≠ [] := by
      obtain ⟨c, hc, none⟩ := figure
      intro none_left
      have := List.dropWhile_eq_nil_iff.1 none_left c hc
      rw [underscore c hc, none] at this
      cases this
    refine iff_of_true ?_ (.inl figure)
    rw [if_pos rest]
    split
    · exact ⟨_, rfl⟩
    · split
      · exact ⟨_, rfl⟩
      · exact ⟨_, rfl⟩
  · have decimal : ∀ c ∈ s.toList, (isDecimal c || c == '_') = true := by
      intro c hc
      rw [underscore c hc]
      by_contra none
      exact figure ⟨c, hc, by simpa using none⟩
    have whole := List.takeWhile_eq_self_iff.2 decimal
    have rest := List.dropWhile_eq_nil_iff.2 decimal
    have full : [s.toList].any List.isEmpty = false := by simpa using some_digit
    rw [whole, rest, full, if_neg Bool.false_ne_true]
    by_cases long : digitLimit < s.toList.length
    · rw [if_pos long]
      exact iff_of_true ⟨_, rfl⟩ (.inr long)
    · rw [if_neg long, if_neg (by simp)]
      refine iff_of_false ?_ (not_or.2 ⟨figure, long⟩)
      rintro ⟨e, h⟩
      cases h

end Retrieval.Numeral
