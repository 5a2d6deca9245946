/-!
# Bytes and their checksum

Access to a byte of a file, and the cyclic redundancy check of 32 bits that ends each member of a compressed
file.
-/

set_option autoImplicit false

namespace Retrieval.Gzip

/-- The byte at a position, zero beyond the end. -/
def byteAt (data : ByteArray) (i : Nat) : UInt8 := if h : i < data.size then data[i] else 0

/-- The check's polynomial, lowest power in the highest bit. -/
def polynomial : UInt32 := 0xEDB88320

/-- Divides one more bit by the polynomial. -/
def divideBit (r : UInt32) : UInt32 := if r &&& 1 = 1 then (r >>> 1) ^^^ polynomial else r >>> 1

/-- Divides eight more bits by the polynomial. -/
def divideByte (r : UInt32) (b : UInt8) : UInt32 :=
  (List.range 8).foldl (fun r _ => divideBit r) (r ^^^ b.toUInt32)

/-- The check of a sequence of bytes. -/
def checksum (data : ByteArray) : UInt32 := data.foldl divideByte 0xFFFFFFFF ^^^ 0xFFFFFFFF

end Retrieval.Gzip
