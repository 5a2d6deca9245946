import Retrieval.Json.Value
import Retrieval.Proofs.Numeral.Digits

/-!
# Values within values

What is asked of all values in a value is asked of the value itself and of its items or members (`All`). Two such
demands make a value `Readable`: no object in it has a key twice, and no integer in it is too long to be read.
-/

set_option autoImplicit false

namespace Retrieval.Json.Value

/-- The values in a value, itself among them. -/
inductive Within : Value → Value → Prop where
  | self (v : Value) : Within v v
  | item {v w : Value} {items : List Value} : w ∈ items → Within v w → Within v (.list items)
  | member {v w : Value} {key : String} {members : List (String × Value)} :
      (key, w) ∈ members → Within v w → Within v (.object members)

/-- Whether a property holds of all values in a value. -/
@[irreducible] def All (p : Value → Prop) (v : Value) : Prop := ∀ w : Value, w.Within v → p w

section All

variable {p : Value → Prop}

theorem all_atom_iff {v : Value} (atom : v.isAtom = true) : v.All p ↔ p v := by
  unfold All
  constructor
  · intro h
    exact h v (.self v)
  · intro h w within
    cases within with
    | self => exact h
    | item => cases atom
    | member => cases atom

theorem all_list_iff {items : List Value} : (Value.list items).All p ↔ p (.list items) ∧ ∀ v ∈ items, v.All p := by
  unfold All
  constructor
  · intro h
    exact ⟨h _ (.self _), fun v mem w within => h w (.item mem within)⟩
  · rintro ⟨whole, parts⟩ w within
    cases within with
    | self => exact whole
    | item mem inner => exact parts _ mem w inner

theorem all_object_iff {members : List (String × Value)} :
    (Value.object members).All p ↔ p (.object members) ∧ ∀ q ∈ members, q.2.All p := by
  unfold All
  constructor
  · intro h
    exact ⟨h _ (.self _), fun q mem w within => h w (.member mem within)⟩
  · rintro ⟨whole, parts⟩ w within
    cases within with
    | self => exact whole
    | member mem inner => exact parts _ mem w inner

end All

/-- Whether the keys of a value, if it is an object, are distinct. -/
def KeysOnce : Value → Prop
  | .object members => (members.map Prod.fst).Nodup
  | _ => True

/-- Whether a value, if it is an integer, is short enough to be read. -/
def Brief : Value → Prop
  | .integer n => Numeral.Short n
  | _ => True

/-- Whether no object in a value has a key twice. -/
def Distinct (v : Value) : Prop := v.All KeysOnce

/-- Whether the integers in a value are short enough to be read. -/
def Short (v : Value) : Prop := v.All Brief

/-- Whether a value can be read back from its text. -/
structure Readable (v : Value) : Prop where
  distinct : v.Distinct
  short : v.Short

theorem distinct_atom {v : Value} (atom : v.isAtom = true) : v.Distinct := by
  refine (all_atom_iff atom).2 ?_
  cases v with
  | object members => cases atom
  | _ => trivial

@[simp] theorem distinct_list_iff {items : List Value} : (Value.list items).Distinct ↔ ∀ v ∈ items, v.Distinct := by
  refine all_list_iff.trans ?_
  simp [KeysOnce, Distinct]

@[simp] theorem distinct_object_iff {members : List (String × Value)} :
    (Value.object members).Distinct ↔ (members.map Prod.fst).Nodup ∧ ∀ q ∈ members, q.2.Distinct := all_object_iff

theorem short_atom_iff {v : Value} (atom : v.isAtom = true) : v.Short ↔ v.Brief := all_atom_iff atom

@[simp] theorem short_list_iff {items : List Value} : (Value.list items).Short ↔ ∀ v ∈ items, v.Short := by
  refine all_list_iff.trans ?_
  simp [Brief, Short]

@[simp] theorem short_object_iff {members : List (String × Value)} :
    (Value.object members).Short ↔ ∀ q ∈ members, q.2.Short := by
  refine all_object_iff.trans ?_
  simp [Brief, Short]

theorem readable_list_iff {items : List Value} : (Value.list items).Readable ↔ ∀ v ∈ items, v.Readable := by
  constructor
  · intro h v mem
    exact ⟨distinct_list_iff.1 h.distinct v mem, short_list_iff.1 h.short v mem⟩
  · intro h
    exact ⟨distinct_list_iff.2 fun v mem => (h v mem).distinct, short_list_iff.2 fun v mem => (h v mem).short⟩

theorem readable_object_iff {members : List (String × Value)} :
    (Value.object members).Readable ↔ (members.map Prod.fst).Nodup ∧ ∀ q ∈ members, q.2.Readable := by
  constructor
  · intro h
    obtain ⟨keys, distinct⟩ := distinct_object_iff.1 h.distinct
    exact ⟨keys, fun q mem => ⟨distinct q mem, short_object_iff.1 h.short q mem⟩⟩
  · rintro ⟨keys, h⟩
    exact ⟨distinct_object_iff.2 ⟨keys, fun q mem => (h q mem).distinct⟩,
      short_object_iff.2 fun q mem => (h q mem).short⟩

end Retrieval.Json.Value
