import Mathlib
import Retrieval.Sorting

/-!
# Sorting permutes

Whatever a comparison answers, and even if it may fail, a list that is sorted holds the elements that it held before,
each as often (`perm_sortWith`). Merging takes elements from two runs, as many at a time as the searches say, and puts
them behind those already taken; so it is enough that nothing is lost at any number (`Merging.perm_takeXs`,
`Merging.perm_takeYs`). Only where an element is inserted does it matter that the search ends within the run
(`bisect_le`).
-/

set_option autoImplicit false

namespace Retrieval.Sorting

variable {m : Type → Type} [Monad m] [LawfulMonad m] {α : Type} (before : α → α → m Bool)

/-! ### Runs -/

/-- A search ends within the places that it is given. -/
theorem bisect_le (holds : Nat → m Bool) (lower : Bool) {low high : Nat} (h : low ≤ high) :
    SatisfiesM (· ≤ high) (bisect holds lower low high) := by
  induction size : high - low using Nat.strongRecOn generalizing low high with
  | ind n ih =>
    rw [bisect]
    split
    · rename_i lt
      refine .bind_pre (.of_true fun answer => ?_)
      have inside : low + (high - low - if lower then 1 else 0) / 2 < high := by
        split <;> omega
      split
      · exact ih _ (by omega) inside rfl
      · refine (ih _ ?_ (Nat.le_add_right low _) rfl).imp fun le => Nat.le_trans le (Nat.le_of_lt inside)
        omega
    · exact .pure (Nat.le_refl high)

theorem perm_insert (run : List α) (x : α) : SatisfiesM (·.Perm (x :: run)) (insert before run x) := by
  refine (bisect_le _ false (Nat.zero_le _)).bind fun place le => ?_
  exact .pure (List.perm_insertIdx x run le)

/-- A chain is the front of the list. -/
theorem append_chain (follows : α → α → m Bool) (last : α) (xs : List α) :
    SatisfiesM (fun r => r.1 ++ r.2 = xs) (chain follows last xs) := by
  induction xs generalizing last with
  | nil => exact .pure rfl
  | cons x xs ih =>
    refine .bind_pre (.of_true fun answer => ?_)
    split
    · refine (ih x).bind fun r same => ?_
      exact .pure (by rw [List.cons_append, same])
    · exact .pure rfl

/-- A natural run and what comes after it hold the elements of the list, and the run takes at least one of them. -/
theorem perm_naturalRun (xs : List α) :
    SatisfiesM (fun r => (r.1 ++ r.2).Perm xs ∧ (xs ≠ [] → r.1 ≠ [])) (naturalRun before xs) := by
  match xs with
  | [] => exact .pure ⟨.nil, id⟩
  | [x] => exact .pure ⟨.refl _, by simp⟩
  | x :: y :: rest =>
    refine .bind_pre (.of_true fun descends => ?_)
    refine (append_chain _ y rest).bind fun r same => ?_
    subst same
    refine .pure ⟨?_, fun _ => ?_⟩
    · dsimp only
      split
      · exact (List.reverse_perm _).append_right r.2
      · exact .refl _
    · dsimp only
      split <;> simp

theorem perm_foldlM_insert (xs run : List α) :
    SatisfiesM (·.Perm (run ++ xs)) (xs.foldlM (insert before) run) := by
  induction xs generalizing run with
  | nil => exact .pure (by rw [List.append_nil])
  | cons x xs ih =>
    rw [List.foldlM_cons]
    refine (perm_insert before run x).bind fun run' inserted => ?_
    exact (ih run').imp fun perm => perm.trans ((inserted.append_right xs).trans List.perm_middle.symm)

theorem perm_leadingRun (least : Nat) (xs : List α) :
    SatisfiesM (fun r => (r.1 ++ r.2).Perm xs ∧ (xs ≠ [] → r.1 ≠ [])) (leadingRun before least xs) := by
  refine (perm_naturalRun before xs).bind fun r natural => ?_
  obtain ⟨run, rest⟩ := r
  obtain ⟨perm, nonempty⟩ := natural
  refine (perm_foldlM_insert before (rest.take (least - run.length)) run).bind fun run' extended => ?_
  refine .pure ⟨?_, fun some (same : run' = []) => ?_⟩
  · calc (run' ++ rest.drop (least - run.length)).Perm
          (run ++ rest.take (least - run.length) ++ rest.drop (least - run.length)) := extended.append_right _
      _ = run ++ rest := by rw [List.append_assoc, List.take_append_drop]
      List.Perm _ xs := perm
  · rw [same] at extended
    exact nonempty some (List.append_eq_nil_iff.1 extended.symm.eq_nil).1

theorem perm_runsFrom (least fuel : Nat) (xs : List α) (enough : xs.length ≤ fuel) :
    SatisfiesM (·.flatten.Perm xs) (runsFrom before least fuel xs) := by
  induction fuel generalizing xs with
  | zero =>
    obtain rfl := List.eq_nil_of_length_eq_zero (Nat.le_zero.1 enough)
    exact .pure .nil
  | succ fuel ih =>
    match xs with
    | [] => exact .pure .nil
    | x :: xs =>
      refine (perm_leadingRun before least (x :: xs)).bind fun r leading => ?_
      obtain ⟨run, rest⟩ := r
      obtain ⟨perm, nonempty⟩ := leading
      have shorter : rest.length ≤ fuel := by
        have length := perm.length_eq
        have := List.length_pos_iff.2 (nonempty (List.cons_ne_nil _ _))
        simp only [List.length_append, List.length_cons] at length enough this
        omega
      refine (ih rest shorter).bind fun rs others => ?_
      exact .pure ((others.append_left run).trans perm)

/-! ### Merging two runs -/

namespace Merging

theorem perm_takeXs (n : Nat) (s : Merging α) : (s.takeXs n).result.Perm s.result := by
  show (s.taken ++ s.xs.take n ++ s.ys ++ s.xs.drop n).Perm (s.taken ++ s.ys ++ s.xs)
  rw [List.append_assoc s.taken, List.append_assoc s.taken, List.append_assoc s.taken]
  refine List.Perm.append_left s.taken ?_
  calc (s.xs.take n ++ s.ys ++ s.xs.drop n).Perm (s.ys ++ s.xs.take n ++ s.xs.drop n) :=
        List.perm_append_comm.append_right _
    _ = s.ys ++ s.xs := by rw [List.append_assoc, List.take_append_drop]

theorem perm_takeYs (n : Nat) (s : Merging α) : (s.takeYs n).result.Perm s.result := by
  show (s.taken ++ s.ys.take n ++ s.ys.drop n ++ s.xs).Perm (s.taken ++ s.ys ++ s.xs)
  rw [List.append_assoc s.taken, List.take_append_drop]

theorem perm_singly (patience fuel wonX wonY : Nat) (s : Merging α) :
    SatisfiesM (·.result.Perm s.result) (singly before patience fuel wonX wonY s) := by
  induction fuel generalizing wonX wonY s with
  | zero => exact .pure (.refl _)
  | succ fuel ih =>
    refine .bind_pre (.of_true fun answer => ?_)
    split
    · dsimp only
      split
      · exact .pure (perm_takeYs 1 s)
      · exact (ih 0 (wonY + 1) (s.takeYs 1)).imp fun perm => perm.trans (perm_takeYs 1 s)
    · dsimp only
      split
      · exact .pure (perm_takeXs 1 s)
      · exact (ih (wonX + 1) 0 (s.takeXs 1)).imp fun perm => perm.trans (perm_takeXs 1 s)

theorem perm_stretchOfXs (lower : Bool) (s : Merging α) :
    SatisfiesM (·.2.result.Perm s.result) (stretchOfXs before lower s) := by
  rw [stretchOfXs]
  split
  · exact .pure (.refl _)
  · refine .bind_pre (.of_true fun n => ?_)
    exact .pure ((perm_takeYs 1 _).trans (perm_takeXs n s))

theorem perm_stretchOfYs (lower : Bool) (s : Merging α) :
    SatisfiesM (·.2.result.Perm s.result) (stretchOfYs before lower s) := by
  rw [stretchOfYs]
  split
  · exact .pure (.refl _)
  · refine .bind_pre (.of_true fun n => ?_)
    exact .pure ((perm_takeXs 1 _).trans (perm_takeYs n s))

theorem perm_byStretches (backward : Bool) (fuel patience : Nat) (s : Merging α) :
    SatisfiesM (·.2.result.Perm s.result) (byStretches before backward fuel patience s) := by
  induction fuel generalizing patience s with
  | zero => exact .pure (.refl _)
  | succ fuel ih =>
    -- both orders of turns go on in the same way
    have rest (p n n' : Nat) {s' s'' : Merging α} (first : s'.result.Perm s.result)
        (second : s''.result.Perm s'.result) :
        SatisfiesM (fun r : Nat × Merging α => r.2.result.Perm s.result)
          (if s''.ended then pure (p, s'')
          else if n < longStretch ∧ n' < longStretch then pure (p + 1, s'')
          else byStretches before backward fuel p s'') := by
      split
      · exact .pure (second.trans first)
      split
      · exact .pure (second.trans first)
      · exact (ih p s'').imp fun perm => (perm.trans second).trans first
    rw [byStretches]
    cases backward with
    | false =>
      simp only [Bool.false_eq_true, if_false]
      refine (perm_stretchOfXs before false s).bind fun r first => ?_
      split
      · exact .pure first
      · exact (perm_stretchOfYs before false r.2).bind fun r' second => rest _ _ _ first second
    | true =>
      simp only [if_true]
      refine (perm_stretchOfYs before true s).bind fun r first => ?_
      split
      · exact .pure first
      · exact (perm_stretchOfXs before true r.2).bind fun r' second => rest _ _ _ first second

theorem perm_finish (backward : Bool) (fuel patience : Nat) (s : Merging α) :
    SatisfiesM (·.2.result.Perm s.result) (finish before backward fuel patience s) := by
  induction fuel generalizing patience s with
  | zero => exact .pure (.refl _)
  | succ fuel ih =>
    rw [finish]
    split
    · exact .pure (.refl _)
    · refine (perm_singly before patience _ 0 0 s).bind fun s' singly => ?_
      split
      · exact .pure singly
      · refine (perm_byStretches before backward _ (patience + 1) s').bind fun r stretches => ?_
        exact (ih r.1 r.2).imp fun rest => (rest.trans stretches).trans singly

end Merging

theorem perm_mergeFrom (backward : Bool) (patience : Nat) (xs ys : List α) :
    SatisfiesM (·.2.Perm (xs ++ ys)) (mergeFrom before backward patience xs ys) := by
  refine (Merging.perm_finish before backward _ patience _).bind fun r finished => ?_
  refine .pure (finished.trans ((Merging.perm_takeYs 1 _).trans ?_))
  exact List.perm_append_comm

theorem perm_mergeRuns (patience : Nat) (xs ys : List α) :
    SatisfiesM (·.2.Perm (xs ++ ys)) (mergeRuns before patience xs ys) := by
  match ys with
  | [] => exact .pure (by rw [List.append_nil])
  | y :: ys =>
    refine .bind_pre (.of_true fun settled => ?_)
    dsimp only
    split
    · exact .pure (.refl _)
    rename_i last _
    refine .bind_pre (.of_true fun done => ?_)
    generalize (y :: ys).length - done = n
    have merged {between : List α} (perm : between.Perm (xs.drop settled ++ (y :: ys).take n)) :
        (xs.take settled ++ between ++ (y :: ys).drop ((y :: ys).take n).length).Perm (xs ++ y :: ys) := by
      have together : (y :: ys).take n ++ (y :: ys).drop ((y :: ys).take n).length = y :: ys :=
        List.prefix_iff_eq_append.1 (List.take_prefix n _)
      refine ((perm.append_left _).append_right _).trans (.of_eq ?_)
      rw [← List.append_assoc, List.take_append_drop, List.append_assoc, together]
    split
    · rename_i nothing
      rw [pure_bind]
      refine .pure (merged ?_)
      rw [List.isEmpty_iff.1 nothing, List.append_nil]
    split
    · exact (perm_mergeFrom before false patience _ _).bind fun r perm => .pure (merged perm)
    · refine (perm_mergeFrom _ true patience _ _).bind fun r perm => ?_
      rw [pure_bind]
      refine .pure (merged ?_)
      refine (List.reverse_perm _).trans (perm.trans ?_)
      exact ((List.reverse_perm _).append (List.reverse_perm _)).trans List.perm_append_comm

/-! ### Merging all runs -/

/-- The elements of runs that wait to be merged, last first. -/
def elements (last : Placed α) (waiting : List (Waiting α)) : List α := (waiting.map (·.run)).flatten ++ last.run

theorem perm_settle (limit patience : Nat) (last : Placed α) (waiting : List (Waiting α)) :
    SatisfiesM (fun r => (elements r.2.1 r.2.2).Perm (elements last waiting))
      (settle before limit patience last waiting) := by
  induction waiting generalizing patience last with
  | nil => exact .pure (.refl _)
  | cons earlier rest ih =>
    rw [settle]
    split
    · refine (perm_mergeRuns before patience earlier.run last.run).bind fun r merged => ?_
      refine (ih r.1 ⟨earlier.start, r.2⟩).imp fun perm => perm.trans ?_
      show ((rest.map (·.run)).flatten ++ r.2).Perm ((earlier.run ++ (rest.map (·.run)).flatten) ++ last.run)
      refine (merged.append_left _).trans ?_
      rw [← List.append_assoc]
      exact List.perm_append_comm.append_right _
    · exact .pure (.refl _)

theorem perm_collapse (patience : Nat) (rs : List (List α)) :
    SatisfiesM (·.Perm rs.flatten) (collapse before patience rs) := by
  induction patience, rs using collapse.induct with
  | case1 =>
    rw [collapse]
    exact .pure .nil
  | case2 patience run =>
    rw [collapse]
    exact .pure (by simp)
  | case3 patience last second =>
    rw [collapse]
    refine (perm_mergeRuns before patience second last).bind fun r merged => .pure ?_
    simpa using merged.trans List.perm_append_comm
  | case4 patience last second third rest longer ih =>
    rw [collapse, if_pos longer]
    refine (perm_mergeRuns before patience third second).bind fun r merged => ?_
    refine (ih r.1 r.2).imp fun perm => perm.trans ?_
    simp only [List.flatten_cons]
    rw [← List.append_assoc second]
    exact ((merged.trans List.perm_append_comm).append_right _).append_left _
  | case5 patience last second third rest shorter ih =>
    rw [collapse, if_neg shorter]
    refine (perm_mergeRuns before patience second last).bind fun r merged => ?_
    refine (ih r.1 r.2).imp fun perm => perm.trans ?_
    simp only [List.flatten_cons]
    rw [← List.append_assoc last]
    exact (merged.trans List.perm_append_comm).append_right _

theorem perm_mergeAll (n patience : Nat) (last : Placed α) (waiting : List (Waiting α)) (rs : List (List α)) :
    SatisfiesM (·.Perm (elements last waiting ++ rs.flatten)) (mergeAll before n patience last waiting rs) := by
  induction rs generalizing patience last waiting with
  | nil =>
    refine (perm_collapse before patience _).imp fun perm => perm.trans ?_
    rw [List.flatten_nil, List.append_nil]
    exact List.perm_append_comm
  | cons run runs ih =>
    refine (perm_settle before _ patience last waiting).bind fun r settled => ?_
    obtain ⟨patience, last', waiting'⟩ := r
    refine (ih patience _ _).imp fun perm => perm.trans ?_
    show ((last'.run ++ (waiting'.map (·.run)).flatten) ++ run ++ runs.flatten).Perm _
    rw [List.flatten_cons, List.append_assoc, ← List.append_assoc, List.append_assoc (last'.run ++ _)]
    exact (List.perm_append_comm.trans settled).append_right _

/-- **Sorting permutes.** What a list is sorted to holds the same elements, whatever the comparison. -/
theorem perm_sortWith (xs : List α) : SatisfiesM (·.Perm xs) (sortWith before xs) := by
  refine (perm_runsFrom before _ _ xs (Nat.le_refl _)).bind fun rs perm => ?_
  match rs with
  | [] => exact .pure perm
  | run :: rest => exact (perm_mergeAll before xs.length Merging.longStretch ⟨0, run⟩ [] rest).imp (·.trans perm)

theorem perm_sort (before : α → α → Bool) (xs : List α) : (sort before xs).Perm xs := by
  have sorted := perm_sortWith (m := Id) (fun x y => pure (before x y)) xs
  rw [SatisfiesM_Id_eq] at sorted
  exact sorted

end Retrieval.Sorting
