import Mathlib.Data.List.Sort
import Mathlib.Data.List.TakeWhile
import Retrieval.Merge

/-!
# What the merges of id lists hold

On any two lists an intersection is a part of each of them and a union has each of them as a part, and the two
together hold what the lists hold, so that on lists in disorder nothing is lost or invented (`merges_of_any`). On
ascending lists the intersection has each id as often as both lists have it and the union as often as either has it
(`merges_of_sorted`), so on lists without repeats the merges are the operations of sets, and their results ascend again.
-/

set_option autoImplicit false

namespace Retrieval.Merge

/-! ### Lists in any order -/

theorem intersect_sublist_left (xs ys : List Int) : (intersect xs ys).Sublist xs := by
  fun_induction intersect xs ys with
  | case1 x xs y ys h ih => exact ih.cons x
  | case2 x xs y ys h h' ih => exact ih
  | case3 x xs y ys h h' ih => exact ih.cons_cons x
  | case4 => exact List.nil_sublist _

theorem intersect_sublist_right (xs ys : List Int) : (intersect xs ys).Sublist ys := by
  fun_induction intersect xs ys with
  | case1 x xs y ys h ih => exact ih
  | case2 x xs y ys h h' ih => exact ih.cons y
  | case3 x xs y ys h h' ih =>
    have e : x = y := by omega
    exact e ▸ ih.cons_cons x
  | case4 => exact List.nil_sublist _

theorem sublist_union_left (xs ys : List Int) : xs.Sublist (union xs ys) := by
  fun_induction union xs ys with
  | case1 x xs y ys h ih => exact ih.cons_cons x
  | case2 x xs y ys h h' ih => exact ih.cons y
  | case3 x xs y ys h h' ih => exact ih.cons_cons x
  | case4 ys => exact List.nil_sublist ys
  | case5 xs h => exact List.Sublist.refl xs

theorem sublist_union_right (xs ys : List Int) : ys.Sublist (union xs ys) := by
  fun_induction union xs ys with
  | case1 x xs y ys h ih => exact ih.cons x
  | case2 x xs y ys h h' ih => exact ih.cons_cons y
  | case3 x xs y ys h h' ih =>
    have e : x = y := by omega
    exact e ▸ ih.cons_cons x
  | case4 ys => exact List.Sublist.refl ys
  | case5 xs h => exact List.nil_sublist xs

/-- Union and intersection together hold what the two lists hold, whatever their order. -/
theorem count_union_add_count_intersect (xs ys : List Int) (d : Int) :
    (union xs ys).count d + (intersect xs ys).count d = xs.count d + ys.count d := by
  fun_induction union xs ys with
  | case1 x xs y ys h ih =>
    rw [intersect, if_pos h, List.count_cons, List.count_cons]
    omega
  | case2 x xs y ys h h' ih =>
    rw [intersect, if_neg h, if_pos h', List.count_cons, List.count_cons (l := ys)]
    omega
  | case3 x xs y ys h h' ih =>
    have e : x = y := by omega
    rw [intersect, if_neg h, if_neg h', ← e]
    simp only [List.count_cons]
    omega
  | case4 ys => cases ys <;> simp [intersect]
  | case5 xs h => cases xs <;> simp [intersect]

theorem complement_cons (xs : List Int) (d : Int) (rest : List Int) :
    complement xs (d :: rest) =
      if (xs.dropWhile (· < d)).head? = some d then complement (xs.dropWhile (· < d)) rest
      else d :: complement (xs.dropWhile (· < d)) rest := rfl

theorem complement_sublist (xs ds : List Int) : (complement xs ds).Sublist ds := by
  induction ds generalizing xs with
  | nil => exact List.nil_sublist []
  | cons e rest ih =>
    rw [complement_cons]
    split
    · exact (ih _).cons e
    · exact (ih _).cons_cons e

/-- What is missing from a list stays in the complement as often as it comes, whatever the order of the lists. -/
theorem count_complement {xs : List Int} {d : Int} (missing : d ∉ xs) (ds : List Int) :
    (complement xs ds).count d = ds.count d := by
  induction ds generalizing xs with
  | nil => rfl
  | cons e rest ih =>
    have passed : d ∉ xs.dropWhile (· < e) := fun h => missing ((List.dropWhile_sublist _).mem h)
    rw [complement_cons]
    split
    · rename_i found
      have other : e ≠ d := by
        rintro rfl
        exact passed (List.mem_of_mem_head? found)
      rw [ih passed, List.count_cons_of_ne other]
    · rw [List.count_cons, List.count_cons, ih passed]

/-- **The merges lose and invent nothing on lists in any order.** Of two lists, with any repeats, the intersection is a
part of each and the union has each as a part, and both together are a rearrangement of the two lists. The complement is
a part of the universe that keeps every occurrence of what is missing from the list. -/
theorem merges_of_any (xs ys : List Int) :
    (intersect xs ys).Sublist xs ∧ (intersect xs ys).Sublist ys ∧
      xs.Sublist (union xs ys) ∧ ys.Sublist (union xs ys) ∧
      (union xs ys ++ intersect xs ys).Perm (xs ++ ys) ∧
      (complement xs ys).Sublist ys ∧ ∀ d ∉ xs, (complement xs ys).count d = ys.count d := by
  have together : (union xs ys ++ intersect xs ys).Perm (xs ++ ys) := by
    rw [List.perm_iff_count]
    intro d
    rw [List.count_append, List.count_append]
    exact count_union_add_count_intersect xs ys d
  exact ⟨intersect_sublist_left xs ys, intersect_sublist_right xs ys, sublist_union_left xs ys,
    sublist_union_right xs ys, together, complement_sublist xs ys, fun d missing => count_complement missing ys⟩

/-! ### Lists that ascend -/

/-- An id below all others does not occur. -/
theorem count_eq_zero_of_lt {d x : Int} {xs : List Int} (hx : (x :: xs).Pairwise (· ≤ ·)) (h : d < x) :
    (x :: xs).count d = 0 := by
  refine List.count_eq_zero.2 fun hd => ?_
  rcases List.mem_cons.1 hd with rfl | hd
  · omega
  · have := (List.pairwise_cons.1 hx).1 d hd
    omega

/-- On ascending lists an id is shared as often as both lists have it. -/
theorem count_intersect {xs ys : List Int} (hx : xs.Pairwise (· ≤ ·)) (hy : ys.Pairwise (· ≤ ·)) (d : Int) :
    (intersect xs ys).count d = min (xs.count d) (ys.count d) := by
  fun_induction intersect xs ys with
  | case1 x xs y ys h ih =>
    rw [ih hx.of_cons hy, List.count_cons (l := xs)]
    by_cases hd : x = d
    · have := count_eq_zero_of_lt hy (hd ▸ h)
      omega
    · simp [hd]
  | case2 x xs y ys h h' ih =>
    rw [ih hx hy.of_cons, List.count_cons (l := ys)]
    by_cases hd : y = d
    · have := count_eq_zero_of_lt hx (hd ▸ h')
      omega
    · simp [hd]
  | case3 x xs y ys h h' ih =>
    have e : x = y := by omega
    simp only [List.count_cons, ih hx.of_cons hy.of_cons, e]
    omega
  | case4 xs ys h =>
    cases xs with
    | nil => simp
    | cons x xs => cases ys with
      | nil => simp
      | cons y ys => exact absurd rfl (h x xs y ys rfl)

theorem count_union {xs ys : List Int} (hx : xs.Pairwise (· ≤ ·)) (hy : ys.Pairwise (· ≤ ·)) (d : Int) :
    (union xs ys).count d = max (xs.count d) (ys.count d) := by
  have := count_union_add_count_intersect xs ys d
  have := count_intersect hx hy d
  omega

theorem mem_intersect {xs ys : List Int} (hx : xs.Pairwise (· ≤ ·)) (hy : ys.Pairwise (· ≤ ·)) {d : Int} :
    d ∈ intersect xs ys ↔ d ∈ xs ∧ d ∈ ys := by
  rw [← List.count_pos_iff, ← List.count_pos_iff (l := xs), ← List.count_pos_iff (l := ys), count_intersect hx hy]
  omega

/-- The ids of a union are those of the two lists, whatever their order. -/
theorem mem_union {xs ys : List Int} {d : Int} : d ∈ union xs ys ↔ d ∈ xs ∨ d ∈ ys := by
  have h := count_union_add_count_intersect xs ys d
  have := (intersect_sublist_left xs ys).count_le d
  have := (intersect_sublist_right xs ys).count_le d
  rw [← List.count_pos_iff, ← List.count_pos_iff (l := xs), ← List.count_pos_iff (l := ys)]
  omega

theorem pairwise_union {xs ys : List Int} (hx : xs.Pairwise (· ≤ ·)) (hy : ys.Pairwise (· ≤ ·)) :
    (union xs ys).Pairwise (· ≤ ·) := by
  fun_induction union xs ys with
  | case1 x xs y ys h ih =>
    refine List.pairwise_cons.2 ⟨fun d hd => ?_, ih hx.of_cons hy⟩
    rcases mem_union.1 hd with hd | hd
    · exact (List.pairwise_cons.1 hx).1 d hd
    · rcases List.mem_cons.1 hd with rfl | hd
      · omega
      · have := (List.pairwise_cons.1 hy).1 d hd
        omega
  | case2 x xs y ys h h' ih =>
    refine List.pairwise_cons.2 ⟨fun d hd => ?_, ih hx hy.of_cons⟩
    rcases mem_union.1 hd with hd | hd
    · rcases List.mem_cons.1 hd with rfl | hd
      · omega
      · have := (List.pairwise_cons.1 hx).1 d hd
        omega
    · exact (List.pairwise_cons.1 hy).1 d hd
  | case3 x xs y ys h h' ih =>
    refine List.pairwise_cons.2 ⟨fun d hd => ?_, ih hx.of_cons hy.of_cons⟩
    have e : x = y := by omega
    rcases mem_union.1 hd with hd | hd
    · exact (List.pairwise_cons.1 hx).1 d hd
    · exact e ▸ (List.pairwise_cons.1 hy).1 d hd
  | case4 ys => exact hy
  | case5 xs h => exact hx

/-- On ascending lists the complement keeps the ids of the universe that are missing from the other list. -/
theorem complement_eq_filter {xs ds : List Int} (hx : xs.Pairwise (· ≤ ·)) (hd : ds.Pairwise (· ≤ ·)) :
    complement xs ds = ds.filter (· ∉ xs) := by
  induction ds generalizing xs with
  | nil => rfl
  | cons d rest ih =>
    obtain ⟨hle, hrest⟩ := List.pairwise_cons.1 hd
    have hdrop : (xs.dropWhile (· < d)).Pairwise (· ≤ ·) := hx.sublist (List.dropWhile_sublist _)
    -- what is passed over lies below all that is still to come
    have mem_drop : ∀ e, d ≤ e → (e ∈ xs.dropWhile (· < d) ↔ e ∈ xs) := by
      intro e he
      refine ⟨fun h => (List.dropWhile_sublist _).mem h, fun h => ?_⟩
      rw [← List.takeWhile_append_dropWhile (p := (· < d)) (l := xs)] at h
      rcases List.mem_append.1 h with h | h
      · have := List.mem_takeWhile_imp h
        simp only [decide_eq_true_eq] at this
        omega
      · exact h
    have same : rest.filter (· ∉ xs.dropWhile (· < d)) = rest.filter (· ∉ xs) := by
      refine List.filter_congr fun e he => ?_
      rw [decide_eq_decide, mem_drop e (hle e he)]
    have head : (xs.dropWhile (· < d)).head? = some d ↔ d ∈ xs := by
      rw [← mem_drop d (Int.le_refl d)]
      constructor
      · exact List.mem_of_mem_head?
      · intro h
        cases hl : xs.dropWhile (· < d) with
        | nil => simp [hl] at h
        | cons e es =>
          have he : ¬ e < d := by
            have := List.head_dropWhile_not (· < d) (l := xs) (by simp [hl])
            simpa [hl] using this
          rw [hl] at h hdrop
          rcases List.mem_cons.1 h with rfl | h
          · rfl
          · have := (List.pairwise_cons.1 hdrop).1 d h
            simp
            omega
    rw [complement, ih hdrop hrest, same]
    by_cases h : d ∈ xs
    · rw [if_pos (head.2 h), List.filter_cons_of_neg (by simpa using h)]
    · rw [if_neg (mt head.1 h), List.filter_cons_of_pos (by simpa using h)]

/-! ### Lists that ascend strictly -/

section Ascending

variable {xs ys : List Int} (hx : xs.Pairwise (· < ·)) (hy : ys.Pairwise (· < ·))
include hx

theorem le_of_ascending : xs.Pairwise (· ≤ ·) := hx.imp Int.le_of_lt

theorem ascending_intersect : (intersect xs ys).Pairwise (· < ·) := hx.sublist (intersect_sublist_left xs ys)

include hy

theorem ascending_union : (union xs ys).Pairwise (· < ·) := by
  have hle := pairwise_union (le_of_ascending hx) (le_of_ascending hy)
  have hnodup : (union xs ys).Nodup := by
    refine List.nodup_iff_count_le_one.2 fun d => ?_
    rw [count_union (le_of_ascending hx) (le_of_ascending hy)]
    have := List.nodup_iff_count_le_one.1 (hx.imp Int.ne_of_lt) d
    have := List.nodup_iff_count_le_one.1 (hy.imp Int.ne_of_lt) d
    omega
  exact (hle.and hnodup).imp fun h => lt_of_le_of_ne h.1 h.2

/-- A list that ascends strictly is determined by its ids. -/
theorem eq_of_ascending (same : ∀ d, d ∈ xs ↔ d ∈ ys) : xs = ys := by
  have perm : xs.Perm ys :=
    (List.perm_ext_iff_of_nodup (hx.imp Int.ne_of_lt) (hy.imp Int.ne_of_lt)).2 same
  exact perm.eq_of_pairwise (fun _ _ _ _ lt gt => absurd lt (Int.lt_asymm gt)) hx hy

theorem ascending_complement : (complement xs ys).Pairwise (· < ·) := by
  rw [complement_eq_filter (le_of_ascending hx) (le_of_ascending hy)]
  exact hy.sublist (List.filter_sublist)

theorem mem_complement {d : Int} : d ∈ complement xs ys ↔ d ∈ ys ∧ d ∉ xs := by
  rw [complement_eq_filter (le_of_ascending hx) (le_of_ascending hy)]
  simp

end Ascending

/-! ### Ascending lists with repeats -/

/-- A list that ascends is determined by how often it has each id. -/
theorem eq_of_count {xs ys : List Int} (hx : xs.Pairwise (· ≤ ·)) (hy : ys.Pairwise (· ≤ ·))
    (same : ∀ d, xs.count d = ys.count d) : xs = ys :=
  (List.perm_iff_count.2 same).eq_of_pairwise (fun _ _ _ _ => Int.le_antisymm) hx hy

/-- **The merges are exact on ascending lists, repeats included.** The intersection is the ascending list that has each
id as often as both lists have it, the union the one that has it as often as either list has it, and the complement
keeps, in order and with their repeats, the ids of the universe that are missing from the list. Of lists that ascend
strictly, all three ascend strictly. -/
theorem merges_of_sorted {xs ys : List Int} (hx : xs.Pairwise (· ≤ ·)) (hy : ys.Pairwise (· ≤ ·)) :
    (∀ zs, zs = intersect xs ys ↔ zs.Pairwise (· ≤ ·) ∧ ∀ d, zs.count d = min (xs.count d) (ys.count d)) ∧
      (∀ zs, zs = union xs ys ↔ zs.Pairwise (· ≤ ·) ∧ ∀ d, zs.count d = max (xs.count d) (ys.count d)) ∧
      complement xs ys = ys.filter (· ∉ xs) ∧
      (xs.Pairwise (· < ·) → ys.Pairwise (· < ·) →
        (intersect xs ys).Pairwise (· < ·) ∧ (union xs ys).Pairwise (· < ·) ∧
          (complement xs ys).Pairwise (· < ·)) := by
  have both : (intersect xs ys).Pairwise (· ≤ ·) := hx.sublist (intersect_sublist_left xs ys)
  have either : (union xs ys).Pairwise (· ≤ ·) := pairwise_union hx hy
  refine ⟨fun zs => ?_, fun zs => ?_, complement_eq_filter hx hy, fun strict strict' => ?_⟩
  · constructor
    · rintro rfl
      exact ⟨both, count_intersect hx hy⟩
    · rintro ⟨ascends, counts⟩
      exact eq_of_count ascends both fun d => (counts d).trans (count_intersect hx hy d).symm
  · constructor
    · rintro rfl
      exact ⟨either, count_union hx hy⟩
    · rintro ⟨ascends, counts⟩
      exact eq_of_count ascends either fun d => (counts d).trans (count_union hx hy d).symm
  · exact ⟨ascending_intersect strict, ascending_union strict strict', ascending_complement strict strict'⟩

/-- Of 1, 1, 2, 4 and 1, 2, 2, 5 the intersection has 1 and 2 once, and the union has both of them twice. -/
theorem merges_of_sorted_repeats :
    let xs : List Int := [1, 1, 2, 4]
    let ys : List Int := [1, 2, 2, 5]
    xs.Pairwise (· ≤ ·) ∧ ys.Pairwise (· ≤ ·) ∧ (intersect xs ys).count 1 = 1 ∧ (intersect xs ys).count 2 = 1 ∧
      (union xs ys).count 1 = 2 ∧ (union xs ys).count 2 = 2 ∧ complement xs ys = [5] := by
  intro xs ys
  have hx : xs.Pairwise (· ≤ ·) := by decide
  have hy : ys.Pairwise (· ≤ ·) := by decide
  obtain ⟨both, either, missing, -⟩ := merges_of_sorted hx hy
  have shared := ((both _).1 rfl).2
  have joined := ((either _).1 rfl).2
  exact ⟨hx, hy, (shared 1).trans (by decide), (shared 2).trans (by decide), (joined 1).trans (by decide),
    (joined 2).trans (by decide), missing.trans (by decide)⟩

end Retrieval.Merge
