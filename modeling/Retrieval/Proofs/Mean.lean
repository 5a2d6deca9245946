import Mathlib
import Retrieval.Mean
import Retrieval.Proofs.ExactArithmetic

/-!
# Means and order statistics in exact arithmetic

The lanes, pairs and halves of a long sum are of no consequence here (`balancedSum_eq`), and a mean is the sum shared
among its terms (`mean_eq`). The values between the members of a sorted list lie on a polygon, which rises where the
members rise (`polygon_mono`). So percentiles rise with their hundredths (`percentile_mono`), from the least member to
the greatest one (`mem_Icc_percentile`); the median is one of them (`median_eq`).
-/

set_option autoImplicit false

namespace Retrieval.Exact

/-! ### Sums -/

theorem sum_eq (xs : List ℝ) : sum xs = xs.sum := List.sum_eq_foldl.symm

theorem length_addLanes (lanes block : List ℝ) : (addLanes lanes block).length = min lanes.length block.length :=
  List.length_zipWith

theorem sum_addLanes {lanes block : List ℝ} (same : lanes.length = block.length) :
    (addLanes lanes block).sum = lanes.sum + block.sum := by
  induction lanes generalizing block with
  | nil =>
    obtain rfl := List.length_eq_zero_iff.1 same.symm
    exact (add_zero 0).symm
  | cons x lanes ih =>
    obtain _ | ⟨y, block⟩ := block
    · cases same
    · rw [addLanes, List.zipWith_cons_cons, List.sum_cons, ← addLanes, ih (Nat.succ.inj same), List.sum_cons,
        List.sum_cons, add_add_add_comm]

/-- The lanes and what is left over hold what there was to add. -/
theorem sum_sumLanes (lanes xs : List ℝ) (eight : lanes.length = 8) :
    (sumLanes lanes xs).1.sum + (sumLanes lanes xs).2.sum = lanes.sum + xs.sum := by
  fun_induction sumLanes lanes xs with
  | case1 lanes a b c d e f g h rest ih =>
    have still_eight : (addLanes lanes [a, b, c, d, e, f, g, h]).length = 8 := by
      rw [length_addLanes, eight]
      rfl
    rw [ih still_eight, sum_addLanes eight]
    simp only [List.sum_cons, List.sum_nil]
    ring
  | case2 lanes rest => rfl

theorem sum_addPairs (xs : List ℝ) : (addPairs xs).sum = xs.sum := by
  fun_induction addPairs xs with
  | case1 a b rest ih => rw [List.sum_cons, ih, List.sum_cons, List.sum_cons, add_assoc]
  | case2 rest => rfl

theorem laneSum_eq {xs : List ℝ} (many : 8 ≤ xs.length) : laneSum xs = xs.sum := by
  have held := sum_sumLanes (xs.take 8) (xs.drop 8) (List.length_take_of_le many)
  unfold laneSum
  dsimp only
  rw [List.foldl_eq_apply_foldr, ← List.sum_eq_foldr, sum_eq, sum_addPairs, sum_addPairs, held,
    List.sum_take_add_sum_drop]

theorem balancedSum_eq (xs : List ℝ) : balancedSum xs = xs.sum := by
  fun_induction balancedSum xs with
  | case1 xs few => exact sum_eq xs
  | case2 xs many _ => exact laneSum_eq (Nat.le_of_not_lt many)
  | case3 xs _ _ half ih ih' => rw [ih, ih', List.sum_take_add_sum_drop]

/-! ### Means -/

theorem mean_eq (xs : List ℝ) : mean xs = xs.sum / xs.length := by
  rw [mean]
  split
  · rename_i none
    rw [List.isEmpty_iff.1 none]
    exact (zero_div _).symm
  · show balancedSum xs / xs.length = _
    rw [balancedSum_eq]

/-- A mean lies between the bounds of the numbers. -/
theorem mean_mem_Icc {a b : ℝ} {xs : List ℝ} (some : xs ≠ []) (h : ∀ x ∈ xs, x ∈ Set.Icc a b) :
    mean xs ∈ Set.Icc a b := by
  have pos : (0 : ℝ) < xs.length := by exact_mod_cast List.length_pos_of_ne_nil some
  have above := List.card_nsmul_le_sum xs a fun x mem => (h x mem).1
  have below := List.sum_le_card_nsmul xs b fun x mem => (h x mem).2
  rw [nsmul_eq_mul, mul_comm] at above below
  rw [mean_eq]
  exact ⟨(le_div_iff₀ pos).2 above, (div_le_iff₀ pos).2 below⟩

theorem mean_map_le {β : Type} {l : List β} {f g : β → ℝ} (h : ∀ x ∈ l, f x ≤ g x) :
    mean (l.map f) ≤ mean (l.map g) := by
  rw [mean_eq, mean_eq, List.length_map, List.length_map]
  exact div_le_div_of_nonneg_right (List.sum_le_sum h) (Nat.cast_nonneg _)

/-! ### Polygons -/

/-- The value at a position between the members of a sequence, on the line from one to the next. -/
noncomputable def polygon (m : ℕ → ℝ) (p : ℝ) : ℝ := m ⌊p⌋₊ + (m (⌊p⌋₊ + 1) - m ⌊p⌋₊) * (p - ⌊p⌋₊)

section

variable {m : ℕ → ℝ} {p q : ℝ}

theorem polygon_natCast (m : ℕ → ℝ) (n : ℕ) : polygon m n = m n := by
  rw [polygon, Nat.floor_natCast, sub_self, mul_zero, add_zero]

theorem polygon_add_half (m : ℕ → ℝ) (n : ℕ) : polygon m (n + 1 / 2) = (m n + m (n + 1)) / 2 := by
  have floor : ⌊(n + 1 / 2 : ℝ)⌋₊ = n := (Nat.floor_eq_iff (by positivity)).2 ⟨by linarith, by linarith⟩
  rw [polygon, floor]
  ring

variable (rises : Monotone m)
include rises

theorem le_polygon (nonneg : 0 ≤ p) : m ⌊p⌋₊ ≤ polygon m p := by
  have step := rises (Nat.le_succ ⌊p⌋₊)
  have part := Nat.floor_le nonneg
  rw [polygon]
  nlinarith

theorem polygon_le (p : ℝ) : polygon m p ≤ m (⌊p⌋₊ + 1) := by
  have step := rises (Nat.le_succ ⌊p⌋₊)
  have part := Nat.lt_floor_add_one p
  rw [polygon]
  nlinarith

/-- Between members that rise, a polygon rises. -/
theorem polygon_mono (nonneg : 0 ≤ p) (le : p ≤ q) : polygon m p ≤ polygon m q := by
  rcases (Nat.floor_le_floor le).eq_or_lt with same | before
  · have step := rises (Nat.le_succ ⌊q⌋₊)
    rw [polygon, polygon, same]
    nlinarith
  · calc polygon m p ≤ m (⌊p⌋₊ + 1) := polygon_le rises p
      _ ≤ m ⌊q⌋₊ := rises before
      _ ≤ polygon m q := le_polygon rises (nonneg.trans le)

end

/-! ### Places -/

/-- The member at a place of a list, the last one at all places beyond the end. -/
noncomputable def memberAt (s : List ℝ) (i : ℕ) : ℝ := s[i]?.getD (s.getLastD 0)

section

variable {s : List ℝ} {i : ℕ}

theorem memberAt_of_lt (h : i < s.length) : memberAt s i = s[i] := by
  rw [memberAt, List.getElem?_eq_getElem h, Option.getD_some]

theorem memberAt_last (h : s.length ≤ i + 1) : memberAt s i = s.getLastD 0 := by
  rcases Nat.lt_or_ge i s.length with inside | beyond
  · have last : i = s.length - 1 := by omega
    rw [memberAt_of_lt inside, List.getLastD_eq_getLast?, List.getLast?_eq_getElem?, ← last,
      List.getElem?_eq_getElem inside, Option.getD_some]
  · rw [memberAt, List.getElem?_eq_none beyond, Option.getD_none]

theorem memberAt_mono (sorted : s.Pairwise (· ≤ ·)) : Monotone (memberAt s) := by
  apply monotone_nat_of_le_succ
  intro i
  rcases Nat.lt_or_ge (i + 1) s.length with inside | last
  · rw [memberAt_of_lt (Nat.lt_of_succ_lt inside), memberAt_of_lt inside]
    exact List.pairwise_iff_getElem.1 sorted i (i + 1) _ _ (Nat.lt_succ_self i)
  · rw [memberAt_last last, memberAt_last (Nat.le_succ_of_le last)]

/-- Interpolation is linear, from whichever end it is reckoned. -/
theorem interpolate_eq (a b t : ℝ) : interpolate a b t = a + (b - a) * t := by
  rw [interpolate]
  split
  · rfl
  · show b - (b - a) * (((1 : ℕ) : ℝ) - t) = _
    rw [Nat.cast_one]
    ring

theorem atPosition_eq (s : List ℝ) (p : ℝ) : atPosition s p = polygon (memberAt s) p := by
  have floor : Scalar.floor p = ⌊p⌋₊ := rfl
  unfold atPosition
  dsimp only
  rw [floor, polygon]
  rcases Nat.lt_or_ge (⌊p⌋₊ + 1) s.length with inside | last
  · have before := Nat.lt_of_succ_lt inside
    rw [List.drop_eq_getElem_cons before, List.drop_eq_getElem_cons inside, memberAt_of_lt before,
      memberAt_of_lt inside]
    exact interpolate_eq _ _ _
  · -- from the last member on there is nothing to interpolate
    rw [memberAt_last last, memberAt_last (Nat.le_succ_of_le last)]
    have few : (s.drop ⌊p⌋₊).length ≤ 1 := by
      rw [List.length_drop]
      omega
    split
    · rename_i rest
      rw [rest] at few
      simp at few
    · rw [interpolate_eq, sub_self, zero_mul, zero_mul]

end

/-! ### Order statistics -/

theorem ascending_eq (xs : List ℝ) : ascending xs = xs.mergeSort fun a b => decide (a ≤ b) := by
  rw [ascending]
  congr
  funext a b
  show (!decide (b < a)) = decide (a ≤ b)
  rw [Bool.eq_iff_iff, Bool.not_eq_true', decide_eq_false_iff_not, not_lt, decide_eq_true_iff]

theorem pairwise_ascending (xs : List ℝ) : (ascending xs).Pairwise (· ≤ ·) := by
  rw [ascending_eq]
  exact List.pairwise_mergeSort' (· ≤ ·) xs

theorem perm_ascending (xs : List ℝ) : (ascending xs).Perm xs := List.mergeSort_perm xs _

theorem orderStatistic_eq (statistic : List ℝ → ℝ) (xs : List ℝ) :
    orderStatistic statistic xs = statistic (ascending xs) := by
  have none : xs.find? (fun x => !placed x) = none := by
    rw [List.find?_eq_none]
    intro x _
    simp [placed]
  rw [orderStatistic, none, Option.getD_none]

/-- The number below which the given hundredths of a list lie, on lines between neighbours in ascending order. -/
noncomputable def percentile (hundredths : ℕ) (xs : List ℝ) : ℝ :=
  polygon (memberAt (xs.mergeSort fun a b => decide (a ≤ b))) ((xs.length - 1 : ℕ) * (hundredths / 100))

theorem percentile_of_ascending (hundredths : ℕ) (xs : List ℝ) :
    percentile hundredths xs = polygon (memberAt (ascending xs)) ((xs.length - 1 : ℕ) * (hundredths / 100)) := by
  rw [percentile, ascending_eq]

section

variable {xs : List ℝ} {x : ℝ}

theorem percentile_eq (hundredths : ℕ) (xs : List ℝ) :
    orderStatistic (percentileOfSorted hundredths) xs = percentile hundredths xs := by
  rw [orderStatistic_eq, percentileOfSorted, atPosition_eq, percentile_of_ascending, (perm_ascending xs).length_eq]
  show polygon _ ((xs.length - 1 : ℕ) * ((hundredths : ℝ) / (100 : ℕ))) = _
  rw [Nat.cast_ofNat]

theorem medianOfSorted_odd {s : List ℝ} {k : ℕ} (odd : s.length = 2 * k + 1) : medianOfSorted s = memberAt s k := by
  have inside : k < s.length := by omega
  have half : s.length / 2 = k := by omega
  have middle : (s.drop k).take 1 = [s[k]] := by
    rw [List.drop_eq_getElem_cons inside, List.take_succ_cons, List.take_zero]
  rw [medianOfSorted, half, if_pos (by omega), middle, mean_eq, memberAt_of_lt inside]
  simp

theorem medianOfSorted_even {s : List ℝ} {k : ℕ} (even : s.length = 2 * (k + 1)) :
    medianOfSorted s = (memberAt s k + memberAt s (k + 1)) / 2 := by
  have inside : k + 1 < s.length := by omega
  have before : k < s.length := by omega
  have half : s.length / 2 - 1 = k := by omega
  have middle : (s.drop k).take 2 = [s[k], s[k + 1]] := by
    rw [List.drop_eq_getElem_cons before, List.drop_eq_getElem_cons inside, List.take_succ_cons, List.take_succ_cons,
      List.take_zero]
  rw [medianOfSorted, half, if_neg (by omega), middle, mean_eq, memberAt_of_lt before, memberAt_of_lt inside]
  simp

/-- The median is the fiftieth percentile. -/
theorem median_eq (xs : List ℝ) : orderStatistic medianOfSorted xs = percentile 50 xs := by
  rw [orderStatistic_eq, percentile_of_ascending, ← (perm_ascending xs).length_eq, Nat.cast_ofNat]
  generalize ascending xs = s
  rcases Nat.even_or_odd' s.length with ⟨k, even | odd⟩
  · obtain _ | k := k
    · rw [List.length_eq_zero_iff.1 even]
      simp [medianOfSorted, mean_eq, polygon, memberAt]
    · have position : ((s.length - 1 : ℕ) : ℝ) * (50 / 100) = k + 1 / 2 := by
        rw [show s.length - 1 = 2 * k + 1 by omega]
        push_cast
        ring
      rw [medianOfSorted_even even, position, polygon_add_half]
  · have position : ((s.length - 1 : ℕ) : ℝ) * (50 / 100) = k := by
      rw [show s.length - 1 = 2 * k by omega]
      push_cast
      ring
    rw [medianOfSorted_odd odd, position, polygon_natCast]

theorem percentile_mono (xs : List ℝ) : Monotone fun hundredths => percentile hundredths xs := by
  intro h h' le
  have le : (h : ℝ) ≤ h' := by exact_mod_cast le
  show percentile h xs ≤ percentile h' xs
  rw [percentile_of_ascending, percentile_of_ascending]
  apply polygon_mono (memberAt_mono (pairwise_ascending xs))
  · positivity
  · gcongr

theorem percentile_nil (hundredths : ℕ) : percentile hundredths [] = 0 := by
  rw [percentile, List.mergeSort_nil]
  simp [polygon, memberAt]

theorem percentile_zero (xs : List ℝ) : percentile 0 xs = memberAt (ascending xs) 0 := by
  rw [percentile_of_ascending, Nat.cast_zero, zero_div, mul_zero, ← Nat.cast_zero, polygon_natCast]

theorem percentile_hundred (xs : List ℝ) : percentile 100 xs = memberAt (ascending xs) (xs.length - 1) := by
  rw [percentile_of_ascending, Nat.cast_ofNat, div_self (by norm_num), mul_one, polygon_natCast]

theorem memberAt_mem (some : xs ≠ []) {i : ℕ} (inside : i ≤ xs.length - 1) : memberAt (ascending xs) i ∈ xs := by
  have pos := List.length_pos_of_ne_nil some
  have length := (perm_ascending xs).length_eq
  rw [memberAt_of_lt (by omega), ← (perm_ascending xs).mem_iff]
  exact List.getElem_mem _

theorem exists_memberAt (mem : x ∈ xs) : ∃ i ≤ xs.length - 1, memberAt (ascending xs) i = x := by
  obtain ⟨i, inside, rfl⟩ := List.getElem_of_mem ((perm_ascending xs).mem_iff.2 mem)
  have length := (perm_ascending xs).length_eq
  exact ⟨i, by omega, memberAt_of_lt inside⟩

/-- All members lie between the first and the last percentile. -/
theorem mem_Icc_percentile (mem : x ∈ xs) : x ∈ Set.Icc (percentile 0 xs) (percentile 100 xs) := by
  obtain ⟨i, le, rfl⟩ := exists_memberAt mem
  have rises := memberAt_mono (pairwise_ascending xs)
  rw [percentile_zero, percentile_hundred]
  exact ⟨rises (Nat.zero_le i), rises le⟩

/-- So does the mean. -/
theorem mean_mem_Icc_percentile (xs : List ℝ) : mean xs ∈ Set.Icc (percentile 0 xs) (percentile 100 xs) := by
  rcases eq_or_ne xs [] with rfl | nonempty
  · rw [percentile_nil, percentile_nil, Set.Icc_self]
    rfl
  · exact mean_mem_Icc nonempty fun x mem => mem_Icc_percentile mem

end

end Retrieval.Exact
