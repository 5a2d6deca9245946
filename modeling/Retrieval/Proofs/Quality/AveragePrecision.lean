import Mathlib
import Retrieval.Proofs.ExactArithmetic
import Retrieval.Quality

/-!
# Average precision

Average precision adds up the precisions at the ranks of the relevant documents, from the first rank to the last. Of two
parts of a list, the second contributes what it would after as many documents, with as many relevant ones among them, as
the first has (`addPrecisions_append`). In exact arithmetic the sum is at most the number of relevant documents
(`precisions_le_hits`), which it reaches if these come first (`precisions_eq_hits_iff`). An exchange of neighbours
changes it only if one of them is relevant, and the other is not, by what that one gains (`averagePrecision_promote`).
-/

set_option autoImplicit false

namespace Retrieval.Quality
open scoped Exact

/-! ### Counting relevant documents -/

theorem hits_cons_of_mem {relevant : List Int} {doc : Int} (h : doc ∈ relevant) (docs : List Int) :
    hits relevant (doc :: docs) = hits relevant docs + 1 :=
  List.countP_cons_of_pos (by simpa using h)

theorem hits_cons_of_notMem {relevant : List Int} {doc : Int} (h : doc ∉ relevant) (docs : List Int) :
    hits relevant (doc :: docs) = hits relevant docs :=
  List.countP_cons_of_neg (by simpa using h)

/-! ### Adding up precisions -/

section

variable {α : Type} [Scalar α] {relevant : List Int} (found rank : Nat) (total : α)

theorem addPrecisions_of_mem {doc : Int} (h : doc ∈ relevant) (docs : List Int) :
    addPrecisions relevant found rank total (doc :: docs) =
      addPrecisions relevant (found + 1) (rank + 1) (total + Scalar.share (found + 1) (rank + 1)) docs := by
  rw [addPrecisions, if_pos (by simpa using h)]

theorem addPrecisions_of_notMem {doc : Int} (h : doc ∉ relevant) (docs : List Int) :
    addPrecisions relevant found rank total (doc :: docs) = addPrecisions relevant found (rank + 1) total docs := by
  rw [addPrecisions, if_neg (by simpa using h)]

/-- What comes later is added to what came before. -/
theorem addPrecisions_append (docs more : List Int) :
    addPrecisions relevant found rank total (docs ++ more) =
      addPrecisions relevant (found + hits relevant docs) (rank + docs.length)
        (addPrecisions relevant found rank total docs) more := by
  induction docs generalizing found rank total with
  | nil => rfl
  | cons doc docs ih =>
    rw [List.cons_append, List.length_cons]
    by_cases h : doc ∈ relevant
    · rw [addPrecisions_of_mem _ _ _ h, addPrecisions_of_mem _ _ _ h, ih, hits_cons_of_mem h]
      congr 1 <;> omega
    · rw [addPrecisions_of_notMem _ _ _ h, addPrecisions_of_notMem _ _ _ h, ih, hits_cons_of_notMem h]
      congr 1
      omega

/-- Neighbours that are both relevant, or both not, may be exchanged. -/
theorem addPrecisions_exchange {a b : Int} (alike : a ∈ relevant ↔ b ∈ relevant) (docs : List Int) :
    addPrecisions relevant found rank total (a :: b :: docs) =
      addPrecisions relevant found rank total (b :: a :: docs) := by
  by_cases h : a ∈ relevant
  · have h' := alike.1 h
    simp only [addPrecisions_of_mem _ _ _ h, addPrecisions_of_mem _ _ _ h']
  · have h' := fun mem => h (alike.2 mem)
    simp only [addPrecisions_of_notMem _ _ _ h, addPrecisions_of_notMem _ _ _ h']

end

section

variable {relevant : List Int} (found rank : Nat)

/-- In exact arithmetic it does not matter where the sum begins. -/
theorem addPrecisions_start (total : ℚ) (docs : List Int) :
    addPrecisions relevant found rank total docs = total + addPrecisions relevant found rank 0 docs := by
  induction docs generalizing found rank total with
  | nil => exact (add_zero total).symm
  | cons doc docs ih =>
    by_cases h : doc ∈ relevant
    · rw [addPrecisions_of_mem _ _ _ h, addPrecisions_of_mem _ _ _ h, ih, ih _ _ (0 + _)]
      ring
    · rw [addPrecisions_of_notMem _ _ _ h, addPrecisions_of_notMem _ _ _ h, ih]

/-- The sum of the precisions at the ranks of the relevant documents. -/
def precisions (relevant : List Int) (found rank : Nat) (docs : List Int) : ℚ :=
  addPrecisions relevant found rank 0 docs

theorem precisions_of_mem {doc : Int} (h : doc ∈ relevant) (docs : List Int) :
    precisions relevant found rank (doc :: docs) =
      (found + 1 : ℚ) / (rank + 1) + precisions relevant (found + 1) (rank + 1) docs := by
  rw [precisions, addPrecisions_of_mem _ _ _ h, addPrecisions_start, zero_add]
  show ((found + 1 : ℕ) : ℚ) / ((rank + 1 : ℕ) : ℚ) + _ = _
  push_cast
  rfl

theorem precisions_of_notMem {doc : Int} (h : doc ∉ relevant) (docs : List Int) :
    precisions relevant found rank (doc :: docs) = precisions relevant found (rank + 1) docs :=
  addPrecisions_of_notMem _ _ _ h docs

theorem precisions_append (docs more : List Int) :
    precisions relevant found rank (docs ++ more) =
      precisions relevant found rank docs +
        precisions relevant (found + hits relevant docs) (rank + docs.length) more := by
  rw [precisions, addPrecisions_append, addPrecisions_start]
  rfl

/-- A relevant document that moves up past one that is not gains the difference between its precisions there. -/
theorem precisions_promote {a b : Int} (ha : a ∉ relevant) (hb : b ∈ relevant) (docs : List Int) :
    precisions relevant found rank (b :: a :: docs) =
      precisions relevant found rank (a :: b :: docs) + (found + 1) / ((rank + 1) * (rank + 2)) := by
  rw [precisions_of_mem _ _ hb, precisions_of_notMem _ _ ha, precisions_of_notMem _ _ ha, precisions_of_mem _ _ hb]
  have above : (rank + 1 : ℚ) ≠ 0 := by positivity
  have below : (rank + 2 : ℚ) ≠ 0 := by positivity
  have step : (found + 1 : ℚ) / (rank + 1) =
      (found + 1) / (rank + 1 + 1) + (found + 1) / ((rank + 1) * (rank + 2)) := by
    field_simp
    ring
  push_cast
  rw [step]
  ring

theorem precisions_nonneg (relevant docs : List Int) (found rank : Nat) : 0 ≤ precisions relevant found rank docs := by
  induction docs generalizing found rank with
  | nil => exact le_rfl
  | cons doc docs ih =>
    by_cases h : doc ∈ relevant
    · rw [precisions_of_mem _ _ h]
      have first : (0 : ℚ) ≤ (found + 1) / (rank + 1) := by positivity
      exact add_nonneg first (ih (found + 1) (rank + 1))
    · rw [precisions_of_notMem _ _ h]
      exact ih found (rank + 1)

/-- The sum vanishes if there is no relevant document, and only then. -/
theorem precisions_eq_zero_iff (docs : List Int) :
    precisions relevant found rank docs = 0 ↔ hits relevant docs = 0 := by
  induction docs generalizing found rank with
  | nil => exact iff_of_true rfl rfl
  | cons doc docs ih =>
    by_cases h : doc ∈ relevant
    · rw [precisions_of_mem _ _ h, hits_cons_of_mem h]
      have first : (0 : ℚ) < (found + 1) / (rank + 1) := by positivity
      have others := precisions_nonneg relevant docs (found + 1) (rank + 1)
      exact iff_of_false (by linarith) (Nat.succ_ne_zero _)
    · rw [precisions_of_notMem _ _ h, hits_cons_of_notMem h]
      exact ih _ _

variable {found rank}

/-- No precision is greater than one. -/
theorem precisions_le_hits (relevant docs : List Int) (le : found ≤ rank) :
    precisions relevant found rank docs ≤ hits relevant docs := by
  induction docs generalizing found rank with
  | nil => exact le_rfl
  | cons doc docs ih =>
    by_cases h : doc ∈ relevant
    · rw [precisions_of_mem _ _ h, hits_cons_of_mem h]
      have le' : (found : ℚ) ≤ rank := by exact_mod_cast le
      have first : (found + 1 : ℚ) / (rank + 1) ≤ 1 := by
        rw [div_le_one₀ (by positivity)]
        linarith
      have others := ih (Nat.succ_le_succ le)
      push_cast
      linarith
    · rw [precisions_of_notMem _ _ h, hits_cons_of_notMem h]
      exact ih (Nat.le_succ_of_le le)

/-- Once a document that is not relevant has come, precisions are less than one. -/
theorem precisions_lt_hits (lt : found < rank) {docs : List Int} (some : hits relevant docs ≠ 0) :
    precisions relevant found rank docs < hits relevant docs := by
  induction docs generalizing found rank with
  | nil => exact absurd rfl some
  | cons doc docs ih =>
    by_cases h : doc ∈ relevant
    · rw [precisions_of_mem _ _ h, hits_cons_of_mem h]
      have lt' : (found : ℚ) < rank := by exact_mod_cast lt
      have first : (found + 1 : ℚ) / (rank + 1) < 1 := by
        rw [div_lt_one (by positivity)]
        linarith
      have others := precisions_le_hits relevant docs (Nat.succ_le_succ lt.le)
      push_cast
      linarith
    · rw [hits_cons_of_notMem h] at some
      rw [precisions_of_notMem _ _ h, hits_cons_of_notMem h]
      exact ih (Nat.lt_succ_of_lt lt) some

/-- All precisions are one exactly if the relevant documents come first. -/
theorem precisions_eq_hits_iff (docs : List Int) :
    precisions relevant rank rank docs = hits relevant docs ↔
      ∀ doc ∈ docs.take (hits relevant docs), doc ∈ relevant := by
  induction docs generalizing rank with
  | nil => exact iff_of_true rfl (by simp)
  | cons doc docs ih =>
    by_cases h : doc ∈ relevant
    · have one : (rank + 1 : ℚ) / (rank + 1) = 1 := div_self (by positivity)
      rw [precisions_of_mem _ _ h, hits_cons_of_mem h, List.take_succ_cons, List.forall_mem_cons, ← ih, one]
      push_cast
      constructor
      · intro same
        exact ⟨h, by linarith⟩
      · rintro ⟨-, same⟩
        linarith
    · rw [precisions_of_notMem _ _ h, hits_cons_of_notMem h]
      cases some : hits relevant docs with
      | zero =>
        refine iff_of_true ?_ (by simp)
        rw [(precisions_eq_zero_iff _ _ docs).2 some]
        rfl
      | succ n =>
        have less := precisions_lt_hits (Nat.lt_succ_self rank) (show hits relevant docs ≠ 0 by omega)
        rw [some] at less
        refine iff_of_false less.ne fun all => h (all doc ?_)
        rw [List.take_succ_cons]
        exact List.mem_cons_self ..

end

/-! ### Average precision -/

section

variable {relevant : List Int}

/-- Average precision is the sum of the precisions at the ranks of the relevant documents, shared among these. -/
theorem averagePrecision_eq (ranked : List (Hit ℚ)) :
    averagePrecision relevant ranked = precisions relevant 0 0 (ranked.map Hit.doc) / judged relevant := by
  rw [averagePrecision]
  split
  · rename_i none
    have none_judged : judged relevant = 0 := by rw [List.isEmpty_iff.1 none]; rfl
    rw [none_judged, Nat.cast_zero, div_zero]
  · rfl

theorem judged_pos {doc : Int} (h : doc ∈ relevant) : 0 < judged relevant :=
  List.length_pos_of_mem (List.mem_eraseDups.2 h)

/-- What a relevant document gains when it moves up past one that is not, where the given documents come before. -/
def gain (relevant front : List Int) : ℚ :=
  (hits relevant front + 1) / ((front.length + 1) * (front.length + 2)) / judged relevant

theorem gain_pos {doc : Int} (h : doc ∈ relevant) (front : List Int) : 0 < gain relevant front := by
  have some : (0 : ℚ) < judged relevant := by exact_mod_cast judged_pos h
  rw [gain]
  positivity

variable (front back : List (Hit ℚ)) {a b : Hit ℚ}

theorem averagePrecision_promote (ha : a.doc ∉ relevant) (hb : b.doc ∈ relevant) :
    averagePrecision relevant (front ++ b :: a :: back) =
      averagePrecision relevant (front ++ a :: b :: back) + gain relevant (front.map Hit.doc) := by
  simp only [averagePrecision_eq, List.map_append, List.map_cons]
  rw [precisions_append, precisions_append, precisions_promote _ _ ha hb, gain, ← add_div, add_assoc, Nat.zero_add,
    Nat.zero_add]

theorem averagePrecision_lt (ha : a.doc ∉ relevant) (hb : b.doc ∈ relevant) :
    averagePrecision relevant (front ++ a :: b :: back) < averagePrecision relevant (front ++ b :: a :: back) := by
  rw [averagePrecision_promote front back ha hb]
  exact lt_add_of_pos_right _ (gain_pos hb _)

theorem averagePrecision_exchange (alike : a.doc ∈ relevant ↔ b.doc ∈ relevant) :
    averagePrecision relevant (front ++ a :: b :: back) = averagePrecision relevant (front ++ b :: a :: back) := by
  simp only [averagePrecision_eq, List.map_append, List.map_cons]
  rw [precisions_append, precisions_append, precisions, precisions, precisions, addPrecisions_exchange _ _ _ alike]

end

/-- **Average precision rewards promotion.** Two documents that stand next to each other in a ranked list, whatever
comes before and after them, are exchanged. In exact arithmetic that increases average precision exactly if the second
of them is relevant and the first is not; and it leaves it as it is exactly if both are relevant or neither is. -/
theorem averagePrecision_rewards_promotion (relevant : List Int) (front back : List (Hit ℚ)) (a b : Hit ℚ) :
    (averagePrecision relevant (front ++ a :: b :: back) < averagePrecision relevant (front ++ b :: a :: back) ↔
      a.doc ∉ relevant ∧ b.doc ∈ relevant) ∧
    (averagePrecision relevant (front ++ a :: b :: back) = averagePrecision relevant (front ++ b :: a :: back) ↔
      (a.doc ∈ relevant ↔ b.doc ∈ relevant)) := by
  by_cases ha : a.doc ∈ relevant
  · by_cases hb : b.doc ∈ relevant
    · have same := averagePrecision_exchange front back (iff_of_true ha hb)
      exact ⟨iff_of_false same.not_lt fun h => h.1 ha, iff_of_true same (iff_of_true ha hb)⟩
    · have less := averagePrecision_lt front back hb ha
      exact ⟨iff_of_false less.not_gt fun h => h.1 ha, iff_of_false less.ne' fun h => hb (h.1 ha)⟩
  · by_cases hb : b.doc ∈ relevant
    · have less := averagePrecision_lt front back ha hb
      exact ⟨iff_of_true less ⟨ha, hb⟩, iff_of_false less.ne fun h => ha (h.2 hb)⟩
    · have same := averagePrecision_exchange front back (iff_of_false ha hb)
      exact ⟨iff_of_false same.not_lt fun h => hb h.2, iff_of_true same (iff_of_false ha hb)⟩

/-- Of two relevant documents, the first moves up from the second rank to the first one. -/
example :
    averagePrecision [3, 9, 3] [⟨7, 1⟩, ⟨9, 1 / 2⟩, ⟨3, 1 / 4⟩] = (7 / 12 : ℚ) ∧
      averagePrecision [3, 9, 3] [⟨9, 1 / 2⟩, ⟨7, 1⟩, ⟨3, 1 / 4⟩] = (5 / 6 : ℚ) := by
  decide +kernel

end Retrieval.Quality
