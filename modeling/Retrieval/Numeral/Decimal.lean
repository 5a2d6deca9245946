import Retrieval.Numeral.Binary

/-!
# Decimal forms of floating-point numbers

Two forms are used. The natural form has the fewest digits that read back to the same number; the fixed form has a
set number of places. All digits come from exact arithmetic on the binary fraction, with a half going to the even
neighbour.
-/

set_option autoImplicit false

namespace Retrieval.Numeral

/-- The decimal digits of a number. -/
def digitsOf (n : Nat) : List Char := Nat.toDigits 10 n

/-- Digits with zeros in front, at least `width` of them. -/
def padded (width : Nat) (ds : List Char) : List Char := List.replicate (width - ds.length) '0' ++ ds

/-- The greatest power of ten that does not exceed a positive quotient. -/
def decimalExponent (num den : Nat) : Int :=
  let guess := binaryExponent num den * 30103 / 100000
  if powerLe 10 (guess + 1) num den then guess + 1
  else if powerLe 10 guess num den then guess
  else guess - 1

/-- A decimal number: the digits of a natural number, and the power of ten of the last one. -/
structure Decimal where
  digits : Nat
  exponent : Int

/-- The decimal without the zeros at its end. -/
def Decimal.stripped (d : Decimal) : Decimal :=
  let ds := digitsOf d.digits
  let zeros := (ds.reverse.takeWhile (· == '0')).length
  ⟨d.digits / Nat.pow 10 zeros, d.exponent + zeros⟩

/-- Whether `digits · 10 ^ exponent` lies in the interval of reals that round to the binary fraction: from
half a step below to half a step above, the ends included when the mantissa is even. Below a power of two
the step is half as wide. -/
def Decimal.readsBack (d : Decimal) (mantissa : Nat) (exponent : Int) : Bool :=
  let (num, den) := fractionOf 1 (exponent - 2)
  let narrow := mantissa = fractionCount ∧ -1074 < exponent
  let low := (4 * mantissa - (if narrow then 1 else 2)) * num
  let high := (4 * mantissa + 2) * num
  let value := d.digits * Nat.pow 10 d.exponent.toNat * den
  let scale := Nat.pow 10 (-d.exponent).toNat
  if mantissa % 2 = 0 then low * scale ≤ value && value ≤ high * scale
  else low * scale < value && value < high * scale

/-- The neighbours of a binary fraction on the grid of multiples of `10 ^ power`, the nearer first. -/
def neighbours (mantissa : Nat) (exponent power : Int) : List Decimal :=
  let (num, den) := fractionOf mantissa exponent
  let top := num * Nat.pow 10 (-power).toNat
  let bottom := den * Nat.pow 10 power.toNat
  let below := top / bottom
  let rest := 2 * (top % bottom)
  if rest < bottom ∨ (rest = bottom ∧ below % 2 = 0) then [⟨below, power⟩, ⟨below + 1, power⟩]
  else [⟨below + 1, power⟩, ⟨below, power⟩]

/-- The fewest decimal digits that read back to a positive binary fraction; of equally few the nearest. -/
def shortest (mantissa : Nat) (exponent : Int) : Decimal :=
  let (num, den) := fractionOf mantissa exponent
  let top := decimalExponent num den
  let candidates := (List.range 17).flatMap fun (n : Nat) => neighbours mantissa exponent (top - n)
  match candidates.find? (·.readsBack mantissa exponent) with
  | some d => d.stripped
  | none => ⟨roundedQuotient (num * Nat.pow 10 1074) den, -1074⟩

/-- An exponent: its sign and at least two digits. -/
def exponentText (e : Int) : List Char :=
  'e' :: (if e < 0 then '-' else '+') :: padded 2 (digitsOf e.natAbs)

/-- The natural form of a decimal: positional when the power of its first digit is from -4 to 15, with a
digit on both sides of the point, and with an exponent otherwise. -/
def Decimal.natural (d : Decimal) : List Char :=
  let ds := digitsOf d.digits
  let first : Int := d.exponent + ds.length - 1
  if first < -4 ∨ 15 < first then
    ds.take 1 ++ (if ds.length = 1 then [] else '.' :: ds.drop 1) ++ exponentText first
  else if first < 0 then '0' :: '.' :: List.replicate (-first - 1).toNat '0' ++ ds
  else
    let whole := ds ++ List.replicate d.exponent.toNat '0'
    let places := ds.drop (first.toNat + 1)
    whole.take (first.toNat + 1) ++ '.' :: (if places.isEmpty then ['0'] else places)

/-- The names of the values that no digits can show. -/
structure Names where
  notANumber : String
  infinite : String

/-- The names used in tables and messages. -/
def shortNames : Names := ⟨"nan", "inf"⟩

/-- The sign of a value, and the form of its magnitude. -/
def withSign (negative : Bool) (form : List Char) : String :=
  String.ofList (if negative then '-' :: form else form)

/-- The natural form of a number. -/
def natural (names : Names) (x : Float) : String :=
  match reading x with
  | .notANumber => names.notANumber
  | .infinite negative => withSign negative names.infinite.toList
  | .finite negative mantissa exponent =>
    withSign negative (if mantissa = 0 then "0.0".toList else (shortest mantissa exponent).natural)

/-- A quotient with the given number of places after the point. -/
def fixedForm (places : Nat) (num den : Nat) : List Char :=
  let ds := padded (places + 1) (digitsOf (scaledQuotient 10 num den (-(places : Int))))
  let whole := ds.length - places
  ds.take whole ++ (if places = 0 then [] else '.' :: ds.drop whole)

/-- A number with the given number of places after the point. -/
def fixed (places : Nat) (x : Float) : String :=
  match reading x with
  | .notANumber => shortNames.notANumber
  | .infinite negative => withSign negative shortNames.infinite.toList
  | .finite negative mantissa exponent =>
    let (num, den) := fractionOf mantissa exponent
    withSign negative (fixedForm places num den)

end Retrieval.Numeral
