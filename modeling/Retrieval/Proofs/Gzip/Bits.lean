import Mathlib.Algebra.Ring.Nat
import Mathlib.Data.List.Basic
import Retrieval.Gzip.Member

/-!
# Bytes, bits and numbers

A number taken off the front of the bits of a byte sequence is the number whose lowest bytes stand there
(`takeNumber_numberBytes`), and whole bytes taken off the front are those bytes (`takeBytes_bits`).
-/

set_option autoImplicit false

namespace Retrieval.Gzip

/-! ### Bytes as lists -/

theorem toList_loop (data : ByteArray) (i : Nat) (done : List UInt8) :
    ByteArray.toList.loop data i done = done.reverse ++ data.data.toList.drop i := by
  induction h : data.size - i generalizing i done with
  | zero =>
    have stop : ¬ i < data.size := by omega
    have none : data.data.toList.drop i = [] := by
      apply List.drop_of_length_le
      rw [Array.length_toList]
      exact Nat.not_lt.1 stop
    rw [ByteArray.toList.loop, if_neg stop, none, List.append_nil]
  | succ n ih =>
    have go : i < data.size := by omega
    have next : data.data.toList.drop i = data.get! i :: data.data.toList.drop (i + 1) := by
      have bound : i < data.data.toList.length := by
        rw [Array.length_toList]
        exact go
      rw [List.drop_eq_getElem_cons bound]
      congr 1
      rw [Array.getElem_toList, ByteArray.get!, getElem!_pos data.data i go]
    rw [ByteArray.toList.loop, if_pos go, ih (i + 1) _ (by omega), next]
    simp

theorem toList_eq (data : ByteArray) : data.toList = data.data.toList := by
  rw [ByteArray.toList, toList_loop]
  rfl

theorem toList_append (a b : ByteArray) : (a ++ b).toList = a.toList ++ b.toList := by
  rw [toList_eq, toList_eq, toList_eq, ByteArray.toList_data_append]

theorem toList_mk (bytes : List UInt8) : (ByteArray.mk bytes.toArray).toList = bytes := by
  rw [toList_eq]

theorem eq_of_toList {a b : ByteArray} (h : a.toList = b.toList) : a = b := by
  rw [toList_eq, toList_eq] at h
  exact ByteArray.ext (Array.toList_inj.1 h)

theorem length_toList (data : ByteArray) : data.toList.length = data.size := by
  rw [toList_eq, Array.length_toList]
  rfl

/-! ### Numbers in bits -/

/-- The bits of bytes. -/
def bitsOf (bytes : List UInt8) : Bits := bytes.flatMap bitsOfByte

theorem bitsOf_append (as bs : List UInt8) : bitsOf (as ++ bs) = bitsOf as ++ bitsOf bs := List.flatMap_append

theorem length_bitsOf (bytes : List UInt8) : (bitsOf bytes).length = 8 * bytes.length := by
  induction bytes with
  | nil => rfl
  | cons b bytes ih =>
    show (bitsOfByte b ++ bitsOf bytes).length = _
    rw [List.length_append, ih, List.length_cons]
    show 8 + _ = _
    omega

theorem takeNumber_testBits (width n : Nat) (rest : Bits) :
    takeNumber width ((List.range width).map n.testBit ++ rest) = .ok (n % Nat.pow 2 width, rest) := by
  induction width generalizing n with
  | zero =>
    rw [Nat.pow_eq, Nat.pow_zero, Nat.mod_one]
    rfl
  | succ width ih =>
    have shifted : (List.range width).map (fun i => n.testBit (i + 1)) = (List.range width).map (n / 2).testBit := by
      apply List.map_congr_left
      intro i _
      rw [Nat.testBit_succ]
    have bits : (List.range (width + 1)).map n.testBit = n.testBit 0 :: (List.range width).map (n / 2).testBit := by
      rw [List.range_succ_eq_map, List.map_cons, List.map_map, ← shifted]
      rfl
    have number : 2 * (n / 2 % 2 ^ width) + (n.testBit 0).toNat = n % 2 ^ (width + 1) := by
      rw [Nat.pow_succ, Nat.mul_comm _ 2, Nat.mod_mul, Nat.testBit_zero]
      rcases Nat.mod_two_eq_zero_or_one n with h | h <;> simp [h, Nat.add_comm]
    rw [bits, List.cons_append, takeNumber, ih (n / 2)]
    show Except.ok (2 * (n / 2 % 2 ^ width) + (n.testBit 0).toNat, rest) = _
    rw [number]
    rfl

theorem bitsOfByte_eq (n : Nat) : bitsOfByte (UInt8.ofNat (n % 256)) = (List.range 8).map n.testBit := by
  apply List.map_congr_left
  intro i hi
  have small : i < 8 := List.mem_range.1 hi
  have byte : (UInt8.ofNat (n % 256)).toNat = n % 2 ^ 8 := by
    rw [UInt8.toNat_ofNat']
    omega
  rw [byte, Nat.testBit_mod_two_pow, decide_eq_true small, Bool.true_and]

theorem bitsOf_numberBytes (width n : Nat) : bitsOf (numberBytes width n) = (List.range (8 * width)).map n.testBit := by
  induction width generalizing n with
  | zero => rfl
  | succ width ih =>
    have shifted : (List.range (8 * width)).map (n / 256).testBit =
        ((List.range (8 * width)).map (8 + ·)).map n.testBit := by
      rw [List.map_map]
      apply List.map_congr_left
      intro i _
      show (n / 2 ^ 8).testBit i = n.testBit (8 + i)
      rw [Nat.testBit_div_two_pow, Nat.add_comm]
    show bitsOfByte (UInt8.ofNat (n % 256)) ++ bitsOf (numberBytes width (n / 256)) = _
    rw [ih, bitsOfByte_eq, shifted, ← List.map_append, ← List.range_add]
    congr 2
    omega

/-- The number whose lowest bytes are at the front. -/
theorem takeNumber_numberBytes (width n : Nat) (rest : Bits) :
    takeNumber (8 * width) (bitsOf (numberBytes width n) ++ rest) = .ok (n % Nat.pow 2 (8 * width), rest) := by
  rw [bitsOf_numberBytes, takeNumber_testBits]

/-- The bytes at the front. -/
theorem takeBytes_bits (bytes : List UInt8) (out : ByteArray) (rest : Bits) :
    takeBytes bytes.length out (bitsOf bytes ++ rest) = .ok (out ++ ⟨bytes.toArray⟩, rest) := by
  induction bytes generalizing out with
  | nil =>
    show _ = Except.ok (out ++ ByteArray.empty, rest)
    rw [ByteArray.append_empty]
    rfl
  | cons b bytes ih =>
    have byte : takeNumber 8 (bitsOfByte b ++ (bitsOf bytes ++ rest)) = .ok (b.toNat, bitsOf bytes ++ rest) := by
      have taken := takeNumber_testBits 8 b.toNat (bitsOf bytes ++ rest)
      rw [Nat.mod_eq_of_lt (show b.toNat < Nat.pow 2 8 from b.toNat_lt)] at taken
      exact taken
    have pushed : out.push b ++ ⟨bytes.toArray⟩ = out ++ ⟨(b :: bytes).toArray⟩ := by
      apply ByteArray.ext
      rw [ByteArray.data_append, ByteArray.data_append, ByteArray.data_push]
      simp
    show takeBytes (bytes.length + 1) out (bitsOfByte b ++ bitsOf bytes ++ rest) = _
    rw [List.append_assoc, takeBytes, byte]
    show takeBytes bytes.length (out.push (UInt8.ofNat b.toNat)) (bitsOf bytes ++ rest) = _
    rw [UInt8.ofNat_toNat, ih, pushed]

end Retrieval.Gzip
