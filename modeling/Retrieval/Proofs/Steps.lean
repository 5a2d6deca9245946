/-!
# Steps that may fail

A computation of several steps succeeds exactly if each of its steps does, with the value that the others hand on.
-/

set_option autoImplicit false

namespace Retrieval

variable {ε δ α β : Type}

/-- A step that succeeds hands its value on. -/
theorem bind_eq {x : Except ε α} {a : α} (h : x = .ok a) (f : α → Except ε β) : x >>= f = f a := by
  rw [h]
  rfl

theorem exists_of_bind {x : Except ε α} {f : α → Except ε β} {b : β} (h : x >>= f = .ok b) :
    ∃ a, x = .ok a ∧ f a = .ok b := by
  cases x with
  | error e => cases h
  | ok a => exact ⟨a, rfl, h⟩

theorem mapError_eq_ok_iff {x : Except ε α} {f : ε → δ} {a : α} : x.mapError f = .ok a ↔ x = .ok a := by
  cases x with
  | error e =>
    constructor
    · intro h
      cases h
    · intro h
      cases h
  | ok b =>
    constructor
    · intro h
      cases h
      rfl
    · intro h
      cases h
      rfl

theorem exists_of_mapError {x : Except ε α} {f : ε → δ} {d : δ} (h : x.mapError f = .error d) :
    ∃ e, x = .error e ∧ f e = d := by
  cases x with
  | error e =>
    cases h
    exact ⟨e, rfl, rfl⟩
  | ok a => cases h

/-- What is done with a result leaves an error as it is. -/
theorem map_eq_error_iff {x : Except ε α} {f : α → β} {e : ε} : x.map f = .error e ↔ x = .error e := by
  cases x with
  | error d =>
    constructor
    · intro h
      cases h
      rfl
    · intro h
      cases h
      rfl
  | ok a =>
    constructor
    · intro h
      cases h
    · intro h
      cases h

/-- Steps with known values have the list of these. -/
theorem mapM_eq_ok_map {f : α → Except ε β} {g : α → β} {l : List α} (h : ∀ a ∈ l, f a = .ok (g a)) :
    l.mapM f = .ok (l.map g) := by
  induction l with
  | nil => rfl
  | cons a l ih =>
    obtain ⟨first, others⟩ := List.forall_mem_cons.1 h
    rw [List.mapM_cons, bind_eq first, bind_eq (ih others)]
    rfl

/-- Steps that undo `g` on each element undo it on a list. -/
theorem mapM_map_eq {f : α → Except ε β} {g : β → α} {l : List β} (h : ∀ b ∈ l, f (g b) = .ok b) :
    (l.map g).mapM f = .ok l := by
  rw [List.mapM_map, mapM_eq_ok_map (f := f ∘ g) (g := id) h, List.map_id]

/-- Steps that each succeed do so on a list. -/
theorem exists_of_forall_mapM {f : α → Except ε β} {l : List α} (h : ∀ a ∈ l, ∃ b, f a = .ok b) :
    ∃ bs, l.mapM f = .ok bs := by
  induction l with
  | nil => exact ⟨[], rfl⟩
  | cons a l ih =>
    obtain ⟨⟨b, first⟩, others⟩ := List.forall_mem_cons.1 h
    obtain ⟨bs, rest⟩ := ih others
    exact ⟨b :: bs, by rw [List.mapM_cons, bind_eq first, bind_eq rest]; rfl⟩

theorem exists_of_mem_mapM {f : α → Except ε β} {l : List α} {ys : List β} (h : l.mapM f = .ok ys) {x : α}
    (mem : x ∈ l) : ∃ y, f x = .ok y := by
  induction l generalizing ys with
  | nil => cases mem
  | cons a l ih =>
    rw [List.mapM_cons] at h
    obtain ⟨y, first, h⟩ := exists_of_bind h
    obtain ⟨_, others, -⟩ := exists_of_bind h
    rcases List.mem_cons.1 mem with rfl | mem
    · exact ⟨y, first⟩
    · exact ih others mem

theorem mem_of_mapM {f : α → Except ε β} {l : List α} {ys : List β} (h : l.mapM f = .ok ys) {y : β} (mem : y ∈ ys) :
    ∃ x ∈ l, f x = .ok y := by
  induction l generalizing ys with
  | nil =>
    cases h
    cases mem
  | cons x l ih =>
    rw [List.mapM_cons] at h
    obtain ⟨z, first, h⟩ := exists_of_bind h
    obtain ⟨zs, others, h⟩ := exists_of_bind h
    cases h
    rcases List.mem_cons.1 mem with rfl | mem
    · exact ⟨x, List.mem_cons_self .., first⟩
    · obtain ⟨w, hw, read⟩ := ih others mem
      exact ⟨w, List.mem_cons_of_mem x hw, read⟩

/-- A fold over steps that fails does so at one element, after those before it have succeeded. -/
theorem exists_of_foldlM_error {f : β → α → Except ε β} {l : List α} {b : β} {e : ε} (h : l.foldlM f b = .error e) :
    ∃ before a after c, l = before ++ a :: after ∧ before.foldlM f b = .ok c ∧ f c a = .error e := by
  induction l generalizing b with
  | nil => cases h
  | cons a l ih =>
    rw [List.foldlM_cons] at h
    cases first : f b a with
    | error d =>
      rw [first] at h
      cases h
      exact ⟨[], a, l, b, rfl, rfl, first⟩
    | ok c =>
      rw [bind_eq first] at h
      obtain ⟨before, x, after, d, rfl, done, failed⟩ := ih h
      exact ⟨a :: before, x, after, d, rfl, by rw [List.foldlM_cons, bind_eq first, done], failed⟩

/-- A fold over steps that succeeds does so at each element, with what those before it have left. -/
theorem exists_of_foldlM_ok {f : β → α → Except ε β} {before after : List α} {a : α} {b d : β}
    (h : (before ++ a :: after).foldlM f b = .ok d) :
    ∃ c c', before.foldlM f b = .ok c ∧ f c a = .ok c' ∧ after.foldlM f c' = .ok d := by
  rw [List.foldlM_append] at h
  obtain ⟨c, first, h⟩ := exists_of_bind h
  rw [List.foldlM_cons] at h
  obtain ⟨c', step, h⟩ := exists_of_bind h
  exact ⟨c, c', first, step, h⟩

/-! ### Steps with a state -/

section Runs

variable {σ : Type}

theorem run_bind (x : ExceptT ε (StateM σ) α) (f : α → ExceptT ε (StateM σ) β) (s : σ) :
    (x >>= f).run s =
      match x.run s with
      | (.ok a, s) => (f a).run s
      | (.error e, s) => (.error e, s) := by
  show StateT.bind x.run (ExceptT.bindCont f) s = _
  rw [StateT.bind]
  cases x.run s with
  | mk r s' =>
    cases r with
    | ok a => rfl
    | error e => rfl

/-- A step that succeeds hands its value and its state on. -/
theorem run_bind_ok {x : ExceptT ε (StateM σ) α} {s s' : σ} {a : α} (h : x.run s = (.ok a, s'))
    (f : α → ExceptT ε (StateM σ) β) : (x >>= f).run s = (f a).run s' := by
  rw [run_bind, h]

/-- What follows a step that fails is not done. -/
theorem run_bind_error {x : ExceptT ε (StateM σ) α} {s s' : σ} {e : ε} (h : x.run s = (.error e, s'))
    (f : α → ExceptT ε (StateM σ) β) : (x >>= f).run s = (.error e, s') := by
  rw [run_bind, h]

theorem run_tryCatch (x : ExceptT ε (StateM σ) α) (handle : ε → ExceptT ε (StateM σ) α) (s : σ) :
    (tryCatch x handle).run s =
      match x.run s with
      | (.ok a, s) => (.ok a, s)
      | (.error e, s) => (handle e).run s := by
  rw [ExceptT.run_tryCatch]
  show StateT.bind x.run _ s = _
  rw [StateT.bind]
  cases x.run s with
  | mk r s' =>
    cases r with
    | ok a => rfl
    | error e => rfl

theorem exists_of_run_bind {x : ExceptT ε (StateM σ) α} {f : α → ExceptT ε (StateM σ) β} {s s'' : σ} {b : β}
    (h : (x >>= f).run s = (.ok b, s'')) : ∃ a s', x.run s = (.ok a, s') ∧ (f a).run s' = (.ok b, s'') := by
  rw [run_bind] at h
  cases first : x.run s with
  | mk r s' =>
    cases r with
    | ok a =>
      rw [first] at h
      exact ⟨a, s', rfl, h⟩
    | error e =>
      rw [first] at h
      cases h

end Runs
end Retrieval
