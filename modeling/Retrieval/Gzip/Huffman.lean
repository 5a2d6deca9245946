/-!
# Prefix codes given by their lengths

A code is determined by the length of each symbol's word: words of one length are consecutive numbers, in the
order of their symbols, and follow the words of smaller lengths. A word is read bit by bit, its highest bit
first, while the number of words of each length passes by.
-/

set_option autoImplicit false

namespace Retrieval.Gzip

/-- Why compressed data cannot be read. -/
inductive InflateError where
  /-- The data end too early. -/
  | truncated
  /-- The data break the rules of the format. -/
  | corrupt

/-- The bits of a sequence of bytes, lowest bit of each byte first. -/
abbrev Bits := List Bool

/-- The bits of a byte, lowest first. -/
def bitsOfByte (b : UInt8) : Bits := (List.range 8).map fun i => b.toNat.testBit i

/-- Takes a number off the front of the bits, lowest bit first. -/
def takeNumber : Nat → Bits → Except InflateError (Nat × Bits)
  | 0, bits => .ok (0, bits)
  | _ + 1, [] => .error .truncated
  | width + 1, bit :: bits => do
    let (n, rest) ← takeNumber width bits
    return (2 * n + bit.toNat, rest)

/-- A code: the number of words of each length from one on, and the symbols in the order of their words. -/
structure Code where
  counts : List Nat
  symbols : Array Nat

/-- How many words of the next length are free after the words counted so far, as an integer that falls below
zero when there are too many words. -/
def freeWords (counts : List Nat) : Int := counts.foldl (fun free (n : Nat) => 2 * free - (n : Int)) 1

/-- The code with the given lengths, where zero marks a symbol without a word. -/
def Code.ofLengths (lengths : List Nat) : Code :=
  let longest := lengths.foldl max 0
  let counts := (List.range (max longest 1)).map fun i => lengths.count (i + 1)
  let symbols := (List.range longest).flatMap fun i =>
    (lengths.zipIdx.filter fun entry => entry.1 == i + 1).map Prod.snd
  ⟨counts, symbols.toArray⟩

/-- Whether no symbol has a word. -/
def Code.isEmpty (code : Code) : Bool := code.symbols.isEmpty

/-- Whether the words use up all bit sequences and no more. -/
def Code.isComplete (code : Code) : Bool := freeWords code.counts == 0

/-- Whether the code has no words, or a single one of one bit. -/
def Code.isSparse (code : Code) : Bool := code.isEmpty || code.counts == [1]

/-- Reads on in a word: `word` is what has been read, `first` the first word of this length and `index` the
number of shorter words. -/
def Code.decodeFrom (symbols : Array Nat) : List Nat → (word first index : Nat) → Bits →
    Except InflateError (Nat × Bits)
  | [], _, _, _, _ => .error .corrupt
  | _ :: _, _, _, _, [] => .error .truncated
  | count :: longer, word, first, index, bit :: bits =>
    let word := 2 * word + bit.toNat
    if word < first + count then
      match symbols[index + (word - first)]? with
      | some symbol => .ok (symbol, bits)
      | none => .error .corrupt
    else decodeFrom symbols longer word (2 * (first + count)) (index + count) bits

/-- Takes a symbol off the front of the bits. -/
def Code.decode (code : Code) (bits : Bits) : Except InflateError (Nat × Bits) :=
  decodeFrom code.symbols code.counts 0 0 0 bits

end Retrieval.Gzip
