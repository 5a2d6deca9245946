import Retrieval.Gzip.Bytes
import Retrieval.Gzip.Huffman

/-!
# Inflating

Compressed data are a sequence of blocks: bytes as they are, or symbols in a fixed code or in a code that the
block describes. A symbol is a byte, the end of the block, or the length of a copy from the output so far.
-/

set_option autoImplicit false

namespace Retrieval.Gzip

/-- The least length of a copy and the number of extra bits, for each length symbol from 257 on. -/
def lengthTable : List (Nat × Nat) :=
  [(3, 0), (4, 0), (5, 0), (6, 0), (7, 0), (8, 0), (9, 0), (10, 0), (11, 1), (13, 1), (15, 1), (17, 1), (19, 2),
    (23, 2), (27, 2), (31, 2), (35, 3), (43, 3), (51, 3), (59, 3), (67, 4), (83, 4), (99, 4), (115, 4), (131, 5),
    (163, 5), (195, 5), (227, 5), (258, 0)]

/-- The least distance of a copy and the number of extra bits, for each distance symbol. -/
def distanceTable : List (Nat × Nat) :=
  [(1, 0), (2, 0), (3, 0), (4, 0), (5, 1), (7, 1), (9, 2), (13, 2), (17, 3), (25, 3), (33, 4), (49, 4), (65, 5),
    (97, 5), (129, 6), (193, 6), (257, 7), (385, 7), (513, 8), (769, 8), (1025, 9), (1537, 9), (2049, 10),
    (3073, 10), (4097, 11), (6145, 11), (8193, 12), (12289, 12), (16385, 13), (24577, 13)]

/-- The fixed code of bytes and lengths. -/
def fixedSymbols : Code :=
  .ofLengths (List.replicate 144 8 ++ List.replicate 112 9 ++ List.replicate 24 7 ++ List.replicate 8 8)

/-- The fixed code of distances. -/
def fixedDistances : Code := .ofLengths (List.replicate 30 5)

/-- The number that a symbol of a table and its extra bits stand for. -/
def takeExtended (table : List (Nat × Nat)) (symbol : Nat) (bits : Bits) : Except InflateError (Nat × Bits) :=
  match table[symbol]? with
  | none => .error .corrupt
  | some (least, width) => do
    let (extra, rest) ← takeNumber width bits
    return (least + extra, rest)

/-- Repeats the bytes that lie `distance` back, one by one, so that a copy may overlap itself. -/
def copyBack (distance : Nat) : Nat → ByteArray → ByteArray
  | 0, out => out
  | count + 1, out => copyBack distance count (out.push (byteAt out (out.size - distance)))

/-- Reads the symbols of a block up to its end; each takes at least one bit, which `fuel` counts. -/
def inflateSymbols (symbols distances : Code) :
    Nat → ByteArray → Bits → Except InflateError (ByteArray × Bits)
  | 0, _, _ => .error .truncated
  | fuel + 1, out, bits => do
    let (symbol, bits) ← symbols.decode bits
    if symbol < 256 then inflateSymbols symbols distances fuel (out.push (UInt8.ofNat symbol)) bits
    else if symbol = 256 then return (out, bits)
    else
      let (length, bits) ← takeExtended lengthTable (symbol - 257) bits
      let (symbol, bits) ← distances.decode bits
      let (distance, bits) ← takeExtended distanceTable symbol bits
      if out.size < distance then .error .corrupt
      else inflateSymbols symbols distances fuel (copyBack distance length out) bits

/-- Takes whole bytes off the front of the bits. -/
def takeBytes : Nat → ByteArray → Bits → Except InflateError (ByteArray × Bits)
  | 0, out, bits => .ok (out, bits)
  | count + 1, out, bits => do
    let (n, rest) ← takeNumber 8 bits
    takeBytes count (out.push (UInt8.ofNat n)) rest

/-- Drops the bits up to the next whole byte. -/
def alignToByte (bits : Bits) : Bits := bits.drop (bits.length % 8)

/-- Reads a block of bytes as they are: their number, the same number with all bits turned, and the bytes. -/
def inflateStored (out : ByteArray) (bits : Bits) : Except InflateError (ByteArray × Bits) := do
  let (count, bits) ← takeNumber 16 (alignToByte bits)
  let (turned, bits) ← takeNumber 16 bits
  if count + turned ≠ 0xFFFF then .error .corrupt else takeBytes count out bits

/-- The order in which the lengths of the length code are stored. -/
def lengthOrder : List Nat := [16, 17, 18, 0, 8, 7, 9, 6, 10, 5, 11, 4, 12, 3, 13, 2, 14, 1, 15]

/-- Takes so many numbers of three bits. -/
def takeTriples : Nat → Bits → Except InflateError (List Nat × Bits)
  | 0, bits => .ok ([], bits)
  | count + 1, bits => do
    let (n, bits) ← takeNumber 3 bits
    let (more, bits) ← takeTriples count bits
    return (n :: more, bits)

/-- A symbol of the length code; without words in it every bit is a length of zero. -/
def takeLengthSymbol (code : Code) (bits : Bits) : Except InflateError (Nat × Bits) :=
  if code.isEmpty then (takeNumber 1 bits).map fun (_, rest) => (0, rest) else code.decode bits

/-- A run of equal lengths: the symbol tells the length and how the number of repetitions is stored. -/
def takeRun (symbol : Nat) (last : Option Nat) (bits : Bits) : Except InflateError (List Nat × Bits) := do
  if symbol < 16 then return ([symbol], bits)
  let width := if symbol = 16 then 2 else if symbol = 17 then 3 else 7
  let (extra, rest) ← takeNumber width bits
  let count := extra + if symbol = 18 then 11 else 3
  if symbol ≠ 16 then return (List.replicate count 0, rest)
  match last with
  | none => .error .corrupt
  | some length => return (List.replicate count length, rest)

/-- Reads `total` code lengths, last first in `done`; each symbol takes at least one bit, which `fuel` counts. -/
def takeLengths (code : Code) (total : Nat) : Nat → List Nat → Bits → Except InflateError (List Nat × Bits)
  | 0, _, _ => .error .truncated
  | fuel + 1, done, bits =>
    if done.length = total then .ok (done.reverse, bits)
    else do
      let (symbol, bits) ← takeLengthSymbol code bits
      let (run, bits) ← takeRun symbol done.head? bits
      if total < done.length + run.length then .error .corrupt
      else takeLengths code total fuel (run.reverse ++ done) bits

/-- Reads the two codes of a block that describes its codes. -/
def takeCodes (bits : Bits) : Except InflateError ((Code × Code) × Bits) := do
  let (symbolCount, bits) ← takeNumber 5 bits
  let (distanceCount, bits) ← takeNumber 5 bits
  let (lengthCount, bits) ← takeNumber 4 bits
  if 29 < symbolCount ∨ 29 < distanceCount then .error .corrupt
  let (stored, bits) ← takeTriples (lengthCount + 4) bits
  let lengthCode := Code.ofLengths ((List.range 19).map fun symbol =>
    ((lengthOrder.zip stored).lookup symbol).getD 0)
  if !(lengthCode.isEmpty || lengthCode.isComplete) then .error .corrupt
  let total := symbolCount + 257 + (distanceCount + 1)
  let (lengths, bits) ← takeLengths lengthCode total (total + 1) [] bits
  let symbols := Code.ofLengths (lengths.take (symbolCount + 257))
  let distances := Code.ofLengths (lengths.drop (symbolCount + 257))
  if lengths[256]? = some 0 then .error .corrupt
  if !(symbols.isComplete || symbols.isSparse) then .error .corrupt
  if !(distances.isComplete || distances.isSparse) then .error .corrupt
  return ((symbols, distances), bits)

/-- Reads one block after its final bit. -/
def inflateBlock (out : ByteArray) (bits : Bits) : Except InflateError (ByteArray × Bits) := do
  let (kind, bits) ← takeNumber 2 bits
  if kind = 0 then inflateStored out bits
  else if kind = 1 then inflateSymbols fixedSymbols fixedDistances (bits.length + 1) out bits
  else if kind = 2 then
    let ((symbols, distances), bits) ← takeCodes bits
    inflateSymbols symbols distances (bits.length + 1) out bits
  else .error .corrupt

/-- Reads blocks up to the final one; each takes at least three bits, which `fuel` counts. -/
def inflateBlocks : Nat → ByteArray → Bits → Except InflateError (ByteArray × Bits)
  | 0, _, _ => .error .truncated
  | fuel + 1, out, bits => do
    let (final, bits) ← takeNumber 1 bits
    let (out, bits) ← inflateBlock out bits
    if final = 1 then return (out, bits) else inflateBlocks fuel out bits

/-- Inflates compressed data at the front of a sequence of bytes: the bytes they stand for, and how many whole
bytes follow them. -/
def inflate (data : ByteArray) : Except InflateError (ByteArray × Nat) := do
  let bits := data.toList.flatMap bitsOfByte
  let (out, rest) ← inflateBlocks (bits.length + 1) .empty bits
  return (out, rest.length / 8)

end Retrieval.Gzip
