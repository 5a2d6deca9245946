import Retrieval.Proofs.Gzip.Bits
import Retrieval.Proofs.Steps

/-!
# Packed data unpacked

Stored blocks inflate to the data they hold, block by block (`inflateBlocks_storedBlocks`), and the header and the
trailer that packing puts around them are those that unpacking checks. So unpacking inverts packing (`unpack_pack`).
-/

set_option autoImplicit false

namespace Retrieval.Gzip

/-! ### Stored blocks -/

theorem toList_extract (data : ByteArray) (start stop : Nat) :
    (data.extract start stop).toList = (data.toList.drop start).take (stop - start) := by
  rw [toList_eq, toList_eq, ByteArray.data_extract, Array.toList_extract, List.extract_eq_take_drop]

theorem toList_dropBytes (data : ByteArray) (n : Nat) : (dropBytes data n).toList = data.toList.drop n := by
  have all : (data.toList.drop n).length = data.size - n := by
    rw [List.length_drop, length_toList]
  rw [dropBytes, toList_extract, List.take_of_length_le (Nat.le_of_eq all)]

theorem toList_storedBlock (final : Bool) (block : ByteArray) :
    (storedBlock final block).toList = (if final then 1 else 0) ::
      (numberBytes 2 block.size ++ (numberBytes 2 (0xFFFF - block.size) ++ block.toList)) := by
  rw [storedBlock, toList_append, toList_mk]
  simp

/-- After the three bits that start a stored block, the rest of their byte is dropped. -/
theorem inflateBlocks_stored (final : Bool) (fuel : Nat) (out : ByteArray) {rest : Bits} (whole : rest.length % 8 = 0) :
    inflateBlocks (fuel + 1) out (bitsOfByte (if final then 1 else 0) ++ rest) =
      inflateStored out rest >>= fun (out, bits) =>
        if final then pure (out, bits) else inflateBlocks fuel out bits := by
  have aligned : alignToByte (List.replicate 5 false ++ rest) = alignToByte rest := by
    have length : (List.replicate 5 false ++ rest).length % 8 = 5 := by
      rw [List.length_append, List.length_replicate]
      omega
    unfold alignToByte
    rw [length, whole]
    rfl
  have stored : inflateBlock out (List.replicate 7 false ++ rest) = inflateStored out rest := by
    show inflateStored out (List.replicate 5 false ++ rest) = _
    rw [inflateStored, aligned]
    rfl
  cases final with
  | false =>
    show (inflateBlock out (List.replicate 7 false ++ rest) >>= fun (out, bits) =>
      if 0 = 1 then return (out, bits) else inflateBlocks fuel out bits) = _
    rw [stored]
    rfl
  | true =>
    show (inflateBlock out (List.replicate 7 false ++ rest) >>= fun (out, bits) =>
      if 1 = 1 then return (out, bits) else inflateBlocks fuel out bits) = _
    rw [stored]
    rfl

/-- The length of a stored block and its complement are read, and then its bytes. -/
theorem inflateStored_block {block : ByteArray} (small : block.size ≤ blockLimit) (out : ByteArray) {rest : Bits}
    (whole : rest.length % 8 = 0) :
    inflateStored out
      (bitsOf (numberBytes 2 block.size ++ (numberBytes 2 (0xFFFF - block.size) ++ block.toList)) ++ rest) =
        .ok (out ++ block, rest) := by
  have small : block.size ≤ 65535 := small
  have aligned : ∀ bytes : List UInt8, alignToByte (bitsOf bytes ++ rest) = bitsOf bytes ++ rest := by
    intro bytes
    have length : (bitsOf bytes ++ rest).length % 8 = 0 := by
      rw [List.length_append, length_bitsOf]
      omega
    rw [alignToByte, length, List.drop_zero]
  have count : takeNumber 16 (bitsOf (numberBytes 2 block.size) ++
      (bitsOf (numberBytes 2 (0xFFFF - block.size)) ++ (bitsOf block.toList ++ rest))) =
      .ok (block.size % 65536, bitsOf (numberBytes 2 (0xFFFF - block.size)) ++ (bitsOf block.toList ++ rest)) :=
    takeNumber_numberBytes 2 block.size _
  have turned : takeNumber 16 (bitsOf (numberBytes 2 (0xFFFF - block.size)) ++ (bitsOf block.toList ++ rest)) =
      .ok ((0xFFFF - block.size) % 65536, bitsOf block.toList ++ rest) :=
    takeNumber_numberBytes 2 (0xFFFF - block.size) _
  have bytes := takeBytes_bits block.toList out rest
  rw [length_toList] at bytes
  rw [inflateStored, aligned, bitsOf_append, bitsOf_append, List.append_assoc, List.append_assoc, bind_eq count]
  dsimp only
  rw [bind_eq turned]
  dsimp only
  rw [Nat.mod_eq_of_lt (by omega), Nat.mod_eq_of_lt (by omega), if_neg (by omega), bytes, toList_eq]

/-- A stored block inflates to what it holds. -/
theorem inflateBlocks_storedBlock (final : Bool) {block : ByteArray} (small : block.size ≤ blockLimit) (fuel : Nat)
    (out : ByteArray) {rest : Bits} (whole : rest.length % 8 = 0) :
    inflateBlocks (fuel + 1) out (bitsOf (storedBlock final block).toList ++ rest) =
      if final then .ok (out ++ block, rest) else inflateBlocks fuel (out ++ block) rest := by
  have bits : bitsOf (storedBlock final block).toList ++ rest = bitsOfByte (if final then 1 else 0) ++
      (bitsOf (numberBytes 2 block.size ++ (numberBytes 2 (0xFFFF - block.size) ++ block.toList)) ++ rest) := by
    rw [toList_storedBlock, ← List.append_assoc]
    rfl
  rw [bits, inflateBlocks_stored, bind_eq (inflateStored_block small out whole)]
  · rfl
  · rw [List.length_append, length_bitsOf]
    omega

/-- Stored blocks inflate to what they hold together. -/
theorem inflateBlocks_storedBlocks (data : ByteArray) {fuel : Nat} (out : ByteArray) {rest : Bits}
    (whole : rest.length % 8 = 0) (enough : (storedBlocks data).size < fuel) :
    inflateBlocks fuel out (bitsOf (storedBlocks data).toList ++ rest) = .ok (out ++ data, rest) := by
  obtain ⟨fuel, rfl⟩ : ∃ n, fuel = n + 1 := ⟨fuel - 1, by omega⟩
  induction data using storedBlocks.induct generalizing fuel out with
  | case1 data large ih =>
    have first : (data.extract 0 blockLimit).size ≤ blockLimit := by
      rw [ByteArray.size_extract]
      omega
    have some_byte : 0 < (storedBlock false (data.extract 0 blockLimit)).size := by
      rw [← length_toList, toList_storedBlock]
      exact Nat.succ_pos _
    have split : out ++ data.extract 0 blockLimit ++ dropBytes data blockLimit = out ++ data := by
      have ends : max blockLimit data.size = data.size := by omega
      rw [ByteArray.append_assoc, dropBytes, ByteArray.extract_append_extract, Nat.min_eq_left (Nat.zero_le _), ends,
        ByteArray.extract_zero_size]
    have whole' : (bitsOf (storedBlocks (dropBytes data blockLimit)).toList ++ rest).length % 8 = 0 := by
      rw [List.length_append, length_bitsOf]
      omega
    rw [storedBlocks, if_pos large, ByteArray.size_append] at enough
    rw [storedBlocks, if_pos large, toList_append, bitsOf_append, List.append_assoc,
      inflateBlocks_storedBlock false first fuel out whole', if_neg Bool.false_ne_true]
    obtain ⟨fuel, rfl⟩ : ∃ n, fuel = n + 1 := ⟨fuel - 1, by omega⟩
    rw [ih (out ++ data.extract 0 blockLimit) fuel (by omega), split]
  | case2 data small =>
    rw [storedBlocks, if_neg small]
    exact inflateBlocks_storedBlock true (Nat.not_lt.1 small) fuel out whole

theorem inflate_storedBlocks (data : ByteArray) (trailer : List UInt8) :
    inflate (storedBlocks data ++ ⟨trailer.toArray⟩) = .ok (data, trailer.length) := by
  have whole : (bitsOf trailer).length % 8 = 0 := by
    rw [length_bitsOf]
    omega
  have bits : (storedBlocks data ++ ⟨trailer.toArray⟩).toList.flatMap bitsOfByte =
      bitsOf (storedBlocks data).toList ++ bitsOf trailer := by
    rw [toList_append, toList_mk trailer]
    exact bitsOf_append _ _
  have enough : (storedBlocks data).size < (bitsOf (storedBlocks data).toList ++ bitsOf trailer).length + 1 := by
    rw [List.length_append, length_bitsOf, length_toList]
    omega
  have inflated := inflateBlocks_storedBlocks data .empty whole enough
  unfold inflate
  dsimp only
  rw [bits, bind_eq inflated]
  dsimp only
  rw [length_bitsOf, ByteArray.empty_append, Nat.mul_div_cancel_left _ (by decide)]
  rfl

/-! ### Headers and trailers -/

theorem byteAt_eq (data : ByteArray) (i : Nat) : byteAt data i = data.toList[i]?.getD 0 := by
  rw [toList_eq, byteAt]
  split
  · rename_i h
    rw [List.getElem?_eq_getElem (by rw [Array.length_toList]; exact h)]
    rfl
  · rename_i h
    rw [List.getElem?_eq_none (by rw [Array.length_toList]; exact Nat.not_lt.1 h)]
    rfl

theorem numberAt_eq (data : ByteArray) (start width : Nat) : numberAt data start width =
    ((data.toList.drop start).take width).foldr (fun b n => b.toNat + 256 * n) 0 := by
  rw [numberAt, toList_extract, Nat.add_sub_cancel_left]

theorem length_numberBytes (width n : Nat) : (numberBytes width n).length = width := by
  induction width generalizing n with
  | zero => rfl
  | succ width ih => rw [numberBytes, List.length_cons, ih]

theorem foldr_numberBytes (width n : Nat) :
    (numberBytes width n).foldr (fun b n => b.toNat + 256 * n) 0 = n % 256 ^ width := by
  induction width generalizing n with
  | zero => rw [Nat.pow_zero, Nat.mod_one]; rfl
  | succ width ih =>
    have byte : (UInt8.ofNat (n % 256)).toNat = n % 256 := by
      rw [UInt8.toNat_ofNat']
      omega
    rw [numberBytes, List.foldr_cons, ih, byte, Nat.pow_succ', Nat.mod_mul]

/-- The header that packing writes. -/
def plainHeader : List UInt8 := [0x1F, 0x8B, 8, 0, 0, 0, 0, 0, 0, 255]

theorem isCompressed_plain {data : ByteArray} {body : List UInt8} (h : data.toList = plainHeader ++ body) :
    isCompressed data = true := by
  rw [isCompressed, byteAt_eq, byteAt_eq, h]
  rfl

theorem skipHeader_plain {data : ByteArray} {body : List UInt8} (h : data.toList = plainHeader ++ body) :
    skipHeader data = .ok (dropBytes data 10) := by
  have long : ¬ data.size < 10 := by
    rw [← length_toList, h, List.length_append]
    show ¬ 10 + body.length < 10
    omega
  have method : numberAt data 2 1 = 8 := by
    rw [numberAt_eq, h]
    rfl
  have flags : numberAt data 3 1 = 0 := by
    rw [numberAt_eq, h]
    rfl
  unfold skipHeader skipBytes
  rw [isCompressed_plain h, method, flags, if_neg long]
  rfl

/-- Packed data are the header, the stored blocks, and the check and the number of the bytes. -/
theorem toList_pack (data : ByteArray) : (pack data).toList = plainHeader ++ ((storedBlocks data).toList ++
    (numberBytes 4 (checksum data).toNat ++ numberBytes 4 data.size)) := by
  have header : (ByteArray.mk #[0x1F, 0x8B, 8, 0, 0, 0, 0, 0, 0, 255]).toList = plainHeader := toList_mk plainHeader
  rw [pack, toList_append, toList_append, toList_mk (numberBytes 4 _ ++ numberBytes 4 _), List.append_assoc, header]

theorem isCompressed_pack (data : ByteArray) : isCompressed (pack data) = true := isCompressed_plain (toList_pack data)

theorem unpackMember_pack (data : ByteArray) : unpackMember (pack data) = .ok (data, .empty) := by
  have layout := toList_pack data
  generalize ht : numberBytes 4 (checksum data).toNat ++ numberBytes 4 data.size = trailer at layout
  have length : trailer.length = 8 := by
    rw [← ht, List.length_append, length_numberBytes, length_numberBytes]
  have body : dropBytes (pack data) 10 = storedBlocks data ++ ⟨trailer.toArray⟩ := by
    apply eq_of_toList
    rw [toList_dropBytes, layout, toList_append, toList_mk trailer]
    rfl
  have tail : dropBytes (storedBlocks data ++ ⟨trailer.toArray⟩)
      ((storedBlocks data ++ ⟨trailer.toArray⟩ : ByteArray).size - 8) = ⟨trailer.toArray⟩ := by
    have front : (storedBlocks data ++ ⟨trailer.toArray⟩ : ByteArray).size - 8 = (storedBlocks data).toList.length := by
      rw [← length_toList, toList_append, toList_mk trailer, List.length_append, length]
      omega
    apply eq_of_toList
    rw [toList_dropBytes, front, toList_append, toList_mk trailer, List.drop_left]
  have sum : numberAt ⟨trailer.toArray⟩ 0 4 = (checksum data).toNat := by
    have bound : (checksum data).toNat < 256 ^ 4 := (checksum data).toNat_lt
    rw [numberAt_eq, toList_mk trailer, ← ht, List.drop_zero, List.take_left' (length_numberBytes ..),
      foldr_numberBytes, Nat.mod_eq_of_lt bound]
  have count : numberAt ⟨trailer.toArray⟩ 4 4 = data.size % Nat.pow 2 32 := by
    have power : 256 ^ 4 = Nat.pow 2 32 := rfl
    rw [numberAt_eq, toList_mk trailer, ← ht, List.drop_left' (length_numberBytes ..),
      List.take_of_length_le (Nat.le_of_eq (length_numberBytes ..)), foldr_numberBytes, power]
  have none : dropBytes ⟨trailer.toArray⟩ 8 = .empty := by
    apply eq_of_toList
    rw [toList_dropBytes, toList_mk trailer, List.drop_of_length_le (by omega), ByteArray.toList_empty]
  have inflated : (inflate (storedBlocks data ++ ⟨trailer.toArray⟩)).mapError FileError.ofInflate = .ok (data, 8) := by
    rw [inflate_storedBlocks, length]
    rfl
  unfold unpackMember
  rw [bind_eq (skipHeader_plain layout), body, bind_eq inflated]
  dsimp only
  rw [tail, sum, count, none, if_neg (Nat.lt_irrefl 8), if_neg (fun ne => ne rfl), if_neg (fun ne => ne rfl),
    ByteArray.toList_empty]
  rfl

/-- **Unpacking inverts packing.** -/
theorem unpack_pack (data : ByteArray) : unpack (pack data) = .ok data := by
  have size : (pack data).size ≠ 0 := by
    rw [← length_toList, toList_pack]
    exact Nat.succ_ne_zero _
  obtain ⟨n, hn⟩ : ∃ n, (pack data).size = n + 1 := ⟨(pack data).size - 1, by omega⟩
  have some_byte : (pack data).isEmpty = false := by
    rw [ByteArray.isEmpty, hn]
    rfl
  have rest : unpackMembers (n + 1) .empty = .ok .empty := rfl
  rw [unpack, unpackMembers, some_byte, if_neg Bool.false_ne_true, bind_eq (unpackMember_pack data), hn]
  dsimp only
  rw [bind_eq rest, ByteArray.append_empty]
  rfl

end Retrieval.Gzip
