import Retrieval.Table

/-!
# Looking up, keys and order of tables

A table is observed through `get?` and `keys`. Changing the value under a key changes what is looked up there and
nowhere else, and puts a new key behind all others; a list without repeated keys is the table made of it.
-/

set_option autoImplicit false

namespace Retrieval.Table

variable {κ ν : Type}

theorem ext_toList {s t : Table κ ν} (h : s.toList = t.toList) : s = t := by
  cases s
  cases t
  congr

@[simp] theorem keys_empty : (∅ : Table κ ν).keys = [] := rfl

theorem size_eq_length_keys (t : Table κ ν) : t.size = t.keys.length := by
  simp [size, keys]

theorem isEmpty_iff {t : Table κ ν} : t.isEmpty = true ↔ t.keys = [] := by
  simp [isEmpty, keys]

variable [DecidableEq κ]

@[simp] theorem get?_empty (k : κ) : (∅ : Table κ ν).get? k = none := rfl

theorem lookup_cons_eq (i j : κ) (v : ν) (l : List (κ × ν)) :
    ((i, v) :: l).lookup j = if j = i then some v else l.lookup j := by
  by_cases h : j = i
  · simp [h]
  · simp [List.lookup_cons, beq_eq_false_iff_ne.2 h, h]

theorem lookup_alterList (k j : κ) (f : Option ν → ν) (l : List (κ × ν)) :
    (alterList k f l).lookup j = if j = k then some (f (l.lookup k)) else l.lookup j := by
  induction l with
  | nil => rw [alterList, lookup_cons_eq]; rfl
  | cons p l ih =>
    obtain ⟨i, v⟩ := p
    rw [alterList]
    by_cases hi : i = k
    · subst hi
      by_cases hj : j = i <;> simp [lookup_cons_eq, hj]
    · rw [if_neg hi, lookup_cons_eq, lookup_cons_eq, lookup_cons_eq, ih, if_neg (Ne.symm hi)]
      by_cases hj : j = i
      · simp [hj, hi]
      · simp [hj]

theorem get?_alter (t : Table κ ν) (k j : κ) (f : Option ν → ν) :
    (t.alter k f).get? j = if j = k then some (f (t.get? k)) else t.get? j :=
  lookup_alterList k j f t.toList

theorem keys_alter (t : Table κ ν) (k : κ) (f : Option ν → ν) :
    (t.alter k f).keys = if k ∈ t.keys then t.keys else t.keys ++ [k] :=
  keys_alterList k f t.toList

theorem get?_insert (t : Table κ ν) (k j : κ) (v : ν) :
    (t.insert k v).get? j = if j = k then some v else t.get? j :=
  get?_alter t k j _

theorem keys_insert (t : Table κ ν) (k : κ) (v : ν) :
    (t.insert k v).keys = if k ∈ t.keys then t.keys else t.keys ++ [k] :=
  keys_alter t k _

theorem lookup_isSome_iff (l : List (κ × ν)) (k : κ) : (l.lookup k).isSome ↔ k ∈ l.map Prod.fst := by
  rw [List.lookup_isSome_iff, List.mem_map]
  simp only [beq_iff_eq, @eq_comm _ k]

theorem lookup_eq_none_iff (l : List (κ × ν)) (k : κ) : l.lookup k = none ↔ k ∉ l.map Prod.fst := by
  rw [← lookup_isSome_iff, Option.not_isSome_iff_eq_none]

/-- The keys are those under which a value is found. -/
theorem get?_isSome_iff (t : Table κ ν) (k : κ) : (t.get? k).isSome ↔ k ∈ t.keys :=
  lookup_isSome_iff t.toList k

theorem get?_eq_none_iff (t : Table κ ν) (k : κ) : t.get? k = none ↔ k ∉ t.keys :=
  lookup_eq_none_iff t.toList k

theorem alterList_of_not_mem {k : κ} {l : List (κ × ν)} (h : k ∉ l.map Prod.fst) (f : Option ν → ν) :
    alterList k f l = l ++ [(k, f none)] := by
  induction l with
  | nil => rfl
  | cons p l ih =>
    obtain ⟨i, w⟩ := p
    rw [List.map_cons, List.mem_cons, not_or] at h
    rw [alterList, if_neg (Ne.symm h.1), List.cons_append, ih h.2]

/-- A new key goes behind all others, with its value. -/
theorem toList_insert_of_not_mem {t : Table κ ν} {k : κ} (h : k ∉ t.keys) (v : ν) :
    (t.insert k v).toList = t.toList ++ [(k, v)] :=
  alterList_of_not_mem h _

theorem toList_foldl_insert (l : List (κ × ν)) (t : Table κ ν) (h : (t.toList ++ l |>.map Prod.fst).Nodup) :
    (l.foldl (fun t (k, v) => t.insert k v) t).toList = t.toList ++ l := by
  induction l generalizing t with
  | nil => simp
  | cons p l ih =>
    obtain ⟨k, v⟩ := p
    have hk : k ∉ t.keys := by
      intro hk
      rw [List.map_append, List.nodup_append] at h
      exact h.2.2 k hk k (by simp) rfl
    have ht := toList_insert_of_not_mem hk v
    rw [List.foldl_cons, ih (t.insert k v) (by rw [ht]; simpa using h), ht]
    simp

/-- A list without repeated keys is what the table made of it holds. -/
theorem toList_ofList {l : List (κ × ν)} (h : (l.map Prod.fst).Nodup) : (ofList l).toList = l := by
  have := toList_foldl_insert l ∅ (by simpa [EmptyCollection.emptyCollection, empty] using h)
  simpa [ofList, EmptyCollection.emptyCollection, empty] using this

/-- A table is the table made of its list. -/
@[simp] theorem ofList_toList (t : Table κ ν) : ofList t.toList = t :=
  ext_toList (toList_ofList t.nodup)

theorem mem_of_mem_alterList {k : κ} {v : ν} {p : κ × ν} :
    ∀ {l : List (κ × ν)}, p ∈ alterList k (fun _ => v) l → p = (k, v) ∨ p ∈ l
  | [], h => .inl (List.mem_singleton.1 h)
  | q :: l, h => by
    rw [alterList] at h
    split at h
    · rcases List.mem_cons.1 h with rfl | h
      · exact .inl (by rw [‹q.1 = k›])
      · exact .inr (List.mem_cons_of_mem q h)
    · rcases List.mem_cons.1 h with rfl | h
      · exact .inr (List.mem_cons_self ..)
      · exact (mem_of_mem_alterList h).imp_right (List.mem_cons_of_mem q)

/-- A table made of a list holds nothing else. -/
theorem mem_of_mem_ofList {l : List (κ × ν)} {p : κ × ν} (h : p ∈ (ofList l).toList) : p ∈ l := by
  have all : ∀ (l : List (κ × ν)) (t : Table κ ν), p ∈ (l.foldl (fun t (k, v) => t.insert k v) t).toList →
      p ∈ t.toList ∨ p ∈ l := by
    intro l
    induction l with
    | nil => exact fun t h => .inl h
    | cons q l ih =>
      intro t h
      rcases ih (t.insert q.1 q.2) h with h | h
      · rcases mem_of_mem_alterList h with rfl | h
        · exact .inr (List.mem_cons_self ..)
        · exact .inl h
      · exact .inr (List.mem_cons_of_mem q h)
  rcases all l ∅ h with h | h
  · cases h
  · exact h

theorem mem_of_lookup {l : List (κ × ν)} {k : κ} {v : ν} (h : l.lookup k = some v) : (k, v) ∈ l := by
  obtain ⟨before, after, rfl, -⟩ := List.lookup_eq_some_iff.1 h
  simp

theorem lookup_of_mem {l : List (κ × ν)} (nodup : (l.map Prod.fst).Nodup) {k : κ} {v : ν} (h : (k, v) ∈ l) :
    l.lookup k = some v := by
  induction l with
  | nil => cases h
  | cons p l ih =>
    obtain ⟨i, w⟩ := p
    obtain ⟨absent, nodup⟩ := List.nodup_cons.1 nodup
    rw [lookup_cons_eq]
    rcases List.mem_cons.1 h with same | later
    · cases same
      rw [if_pos rfl]
    · have other : k ≠ i := by
        rintro rfl
        exact absent (List.mem_map.2 ⟨(k, v), later, rfl⟩)
      rw [if_neg other, ih nodup later]

/-- A pair of a table is a key with the value under it. -/
theorem mem_toList_iff (t : Table κ ν) (k : κ) (v : ν) : (k, v) ∈ t.toList ↔ t.get? k = some v :=
  ⟨lookup_of_mem t.nodup, mem_of_lookup⟩

end Retrieval.Table
