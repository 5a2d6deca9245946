/-!
# Sets of code points and digits

A property of characters is stored as the ascending list of the code points at which it changes: it is off
below the first one, on from there to the second, and so on.

Decimal digits come in runs of ten, one run for each script, in the order of their values. Digit characters
are the decimal digits together with superscripts, circled numbers and other figures that stand for a
digit without being usable in positional notation.
-/

set_option autoImplicit false

namespace Retrieval.Text

/-- Whether the property that changes at the given code points is on at `n`. -/
def toggled (changes : List Nat) (n : Nat) : Bool := changes.countP (· ≤ n) % 2 == 1

/-- The code points of the digit zero, ascending, one for each script. -/
def digitZeros : List Nat := [
  0x30, 0x660, 0x6F0, 0x7C0, 0x966, 0x9E6, 0xA66, 0xAE6, 0xB66, 0xBE6, 0xC66, 0xCE6, 0xD66, 0xDE6, 0xE50, 0xED0,
  0xF20, 0x1040, 0x1090, 0x17E0, 0x1810, 0x1946, 0x19D0, 0x1A80, 0x1A90, 0x1B50, 0x1BB0, 0x1C40, 0x1C50, 0xA620,
  0xA8D0, 0xA900, 0xA9D0, 0xA9F0, 0xAA50, 0xABF0, 0xFF10, 0x104A0, 0x10D30, 0x11066, 0x110F0, 0x11136, 0x111D0,
  0x112F0, 0x11450, 0x114D0, 0x11650, 0x116C0, 0x11730, 0x118E0, 0x11950, 0x11C50, 0x11D50, 0x11DA0, 0x16A60,
  0x16AC0, 0x16B50, 0x1D7CE, 0x1D7D8, 0x1D7E2, 0x1D7EC, 0x1D7F6, 0x1E140, 0x1E2F0, 0x1E950, 0x1FBF0]

/-- The value of a decimal digit of any script. -/
def decimalValue? (c : Char) : Option Nat :=
  let n := c.toNat
  if n < 0x80 then
    if 48 ≤ n && n ≤ 57 then some (n - 48) else none
  else
    (digitZeros.find? fun origin => origin ≤ n && n < origin + 10).map (n - ·)

/-- Whether the character is a decimal digit of some script. -/
def isDecimal (c : Char) : Bool := (decimalValue? c).isSome

/-- The points at which being a digit figure outside positional notation changes. -/
def figureChanges : List Nat := [
  0xB2, 0xB4, 0xB9, 0xBA, 0x1369, 0x1372, 0x19DA, 0x19DB, 0x2070, 0x2071, 0x2074, 0x207A, 0x2080, 0x208A,
  0x2460, 0x2469, 0x2474, 0x247D, 0x2488, 0x2491, 0x24EA, 0x24EB, 0x24F5, 0x24FE, 0x24FF, 0x2500, 0x2776,
  0x277F, 0x2780, 0x2789, 0x278A, 0x2793, 0x10A40, 0x10A44, 0x10E60, 0x10E69, 0x11052, 0x1105B, 0x1F100, 0x1F10B]

/-- Whether the character is a digit in the wide sense: a decimal digit or a digit figure. -/
def isDigit (c : Char) : Bool := isDecimal c || toggled figureChanges c.toNat

end Retrieval.Text
