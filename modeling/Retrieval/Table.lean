/-!
# Tables in order of insertion

A table holds one value for each of its keys, in the order in which the keys first came. Putting a value under
a key that is there leaves the order as it is.
-/

set_option autoImplicit false

namespace Retrieval

/-- Keys and values, with no key twice. -/
structure Table (κ ν : Type) where
  toList : List (κ × ν)
  nodup : (toList.map Prod.fst).Nodup

namespace Table

variable {κ ν : Type}

/-- The table without keys. -/
def empty : Table κ ν := ⟨[], List.nodup_nil⟩

instance : EmptyCollection (Table κ ν) := ⟨empty⟩

/-- The keys in order. -/
def keys (t : Table κ ν) : List κ := t.toList.map Prod.fst

/-- The number of keys. -/
def size (t : Table κ ν) : Nat := t.toList.length

/-- Whether the table has no keys. -/
def isEmpty (t : Table κ ν) : Bool := t.toList.isEmpty

variable [DecidableEq κ]

/-- The value under a key. -/
def get? (t : Table κ ν) (k : κ) : Option ν := t.toList.lookup k

/-- Whether a key is there. -/
def contains (t : Table κ ν) (k : κ) : Bool := t.toList.any (·.1 = k)

/-- Changes the value under a key in a list, or puts a first value at the end. -/
def alterList (k : κ) (f : Option ν → ν) : List (κ × ν) → List (κ × ν)
  | [] => [(k, f none)]
  | (l, v) :: rest => if l = k then (l, f (some v)) :: rest else (l, v) :: alterList k f rest

theorem keys_alterList (k : κ) (f : Option ν → ν) (l : List (κ × ν)) :
    (alterList k f l).map Prod.fst = if k ∈ l.map Prod.fst then l.map Prod.fst else l.map Prod.fst ++ [k] := by
  induction l with
  | nil => simp [alterList]
  | cons p l ih => grind [alterList]

theorem nodup_alterList (k : κ) (f : Option ν → ν) {l : List (κ × ν)} (h : (l.map Prod.fst).Nodup) :
    ((alterList k f l).map Prod.fst).Nodup := by
  rw [keys_alterList]
  split
  · exact h
  · rename_i hk
    exact List.nodup_append.2 ⟨h, List.nodup_cons.2 ⟨List.not_mem_nil, List.nodup_nil⟩, by
      rintro a ha b hb rfl
      exact hk (List.mem_singleton.1 hb ▸ ha)⟩

/-- Changes the value under a key, or puts a first value under it. -/
def alter (t : Table κ ν) (k : κ) (f : Option ν → ν) : Table κ ν :=
  ⟨alterList k f t.toList, nodup_alterList k f t.nodup⟩

/-- Puts a value under a key. -/
def insert (t : Table κ ν) (k : κ) (v : ν) : Table κ ν := t.alter k fun _ => v

/-- The table with the given keys and values, put in one after the other. -/
def ofList (entries : List (κ × ν)) : Table κ ν := entries.foldl (fun t (k, v) => t.insert k v) ∅

end Table
end Retrieval
