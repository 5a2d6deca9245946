import Retrieval.Gzip.Inflate

/-!
# Compressed files

A compressed file is a sequence of members, each with a header, compressed data, and the checksum and length
of what they stand for; zero bytes between members are skipped. Packing writes one member whose data are
stored as they are.
-/

set_option autoImplicit false

namespace Retrieval.Gzip

/-- Why a compressed file cannot be read. -/
inductive FileError where
  /-- The file ends too early. -/
  | truncated
  /-- The compressed data break the rules of the format. -/
  | corrupt
  /-- A header, a checksum or a length is wrong. -/
  | invalid

/-- What an error in compressed data is for the file. -/
def FileError.ofInflate : InflateError → FileError
  | .truncated => .truncated
  | .corrupt => .corrupt

/-- Whether data start with the two bytes that mark a compressed file. -/
def isCompressed (data : ByteArray) : Bool := byteAt data 0 == 0x1F && byteAt data 1 == 0x8B

/-- The data from a position on. -/
def dropBytes (data : ByteArray) (n : Nat) : ByteArray := data.extract n data.size

/-- Drops so many bytes, all of which must be there. -/
def skipBytes (n : Nat) (data : ByteArray) : Except FileError ByteArray :=
  if data.size < n then .error .truncated else .ok (dropBytes data n)

/-- Drops the bytes up to a zero byte, with it; all bytes when there is none. -/
def skipText (data : ByteArray) : ByteArray :=
  dropBytes data ((data.toList.takeWhile (· != 0)).length + 1)

/-- The number that bytes from a position on stand for, lowest byte first; bytes that are not there count as
zero. -/
def numberAt (data : ByteArray) (start width : Nat) : Nat :=
  (data.extract start (start + width)).toList.foldr (fun b n => b.toNat + 256 * n) 0

/-- The data after the header of a member. -/
def skipHeader (data : ByteArray) : Except FileError ByteArray := do
  if !isCompressed data then .error .invalid
  let rest ← skipBytes 10 data
  let flags := numberAt data 3 1
  if numberAt data 2 1 ≠ 8 then .error .invalid
  let rest ←
    if flags.testBit 2 then do
      let rest ← skipBytes 2 rest
      skipBytes (numberAt data 10 2) rest
    else pure rest
  let rest := if flags.testBit 3 then skipText rest else rest
  let rest := if flags.testBit 4 then skipText rest else rest
  if flags.testBit 1 then skipBytes 2 rest else return rest

/-- Reads the first member: what it stands for, and the data after it without the zero bytes at their front. -/
def unpackMember (data : ByteArray) : Except FileError (ByteArray × ByteArray) := do
  let body ← skipHeader data
  let (out, left) ← (inflate body).mapError FileError.ofInflate
  if left < 8 then .error .truncated
  let trailer := dropBytes body (body.size - left)
  if numberAt trailer 0 4 ≠ (checksum out).toNat then .error .invalid
  if numberAt trailer 4 4 ≠ out.size % Nat.pow 2 32 then .error .invalid
  let rest := dropBytes trailer 8
  return (out, dropBytes rest (rest.toList.takeWhile (· == 0)).length)

/-- Reads members to the end of the data; each takes bytes, which `fuel` counts. -/
def unpackMembers : Nat → ByteArray → Except FileError ByteArray
  | 0, _ => .error .truncated
  | fuel + 1, data =>
    if data.isEmpty then .ok .empty
    else do
      let (out, rest) ← unpackMember data
      let more ← unpackMembers fuel rest
      return out ++ more

/-- What a compressed file stands for. -/
def unpack (data : ByteArray) : Except FileError ByteArray := unpackMembers (data.size + 1) data

/-- The bytes of a number, lowest first. -/
def numberBytes : Nat → Nat → List UInt8
  | 0, _ => []
  | width + 1, n => UInt8.ofNat (n % 256) :: numberBytes width (n / 256)

/-- The most bytes that a stored block holds. -/
def blockLimit : Nat := 65535

/-- A stored block. -/
def storedBlock (final : Bool) (data : ByteArray) : ByteArray :=
  ByteArray.mk ((if final then 1 else 0) :: numberBytes 2 data.size ++
    numberBytes 2 (0xFFFF - data.size)).toArray ++ data

/-- Stored blocks that hold the data, the last of them final. -/
def storedBlocks (data : ByteArray) : ByteArray :=
  if blockLimit < data.size then
    storedBlock false (data.extract 0 blockLimit) ++ storedBlocks (dropBytes data blockLimit)
  else storedBlock true data
termination_by data.size
decreasing_by
  simp only [dropBytes, blockLimit, ByteArray.size_extract] at *
  omega

/-- A compressed file with one member that stands for the data. -/
def pack (data : ByteArray) : ByteArray :=
  ByteArray.mk #[0x1F, 0x8B, 8, 0, 0, 0, 0, 0, 0, 255] ++ storedBlocks data ++
    ByteArray.mk (numberBytes 4 (checksum data).toNat ++ numberBytes 4 data.size).toArray

end Retrieval.Gzip
