import Retrieval.Text.Blank
import Retrieval.Text.Digit
import Retrieval.Text.Quoted

/-!
# Integers read from text

An integer is written with an optional sign and decimal digits of any script, single underscores between
digits, and blanks around the whole. Texts of more than `digitLimit` digits are refused unread.
-/

set_option autoImplicit false

namespace Retrieval.Numeral
open Retrieval.Text

/-- The greatest number of digits that is read. -/
def digitLimit : Nat := 4300

/-- Why a text is no integer. -/
inductive IntegerError where
  /-- The text does not have the form of an integer. -/
  | malformed (text : String)
  /-- The text has too many digits. -/
  | tooLong (digits : Nat)

/-- The text of the error; the quoted form of a malformed text is cut to two hundred characters. -/
def IntegerError.message : IntegerError → String
  | .malformed text =>
    "invalid literal for int() with base 10: " ++ String.ofList ((quoted text).toList.take 200)
  | .tooLong digits =>
    s!"Exceeds the limit ({digitLimit} digits) for integer string conversion: value has {digits} digits; " ++
      "use sys.set_int_max_str_digits() to increase the limit"

/-- The blanks that may stand around a number: all but the four separator controls. -/
def isMargin (c : Char) : Bool := isBlank c && !(0x1C ≤ c.toNat && c.toNat ≤ 0x1F)

/-- The characters of a number without the blanks around it. -/
def withoutMargin (cs : List Char) : List Char := ((cs.dropWhile isMargin).reverse.dropWhile isMargin).reverse

/-- The sign in front of a number, and what follows it. -/
def splitSign : List Char → Bool × List Char
  | '-' :: rest => (true, rest)
  | '+' :: rest => (false, rest)
  | cs => (false, cs)

/-- The number that decimal digits denote. -/
def ofDigits (ds : List Char) : Nat := ds.foldl (fun n d => 10 * n + (decimalValue? d).getD 0) 0

/-- The integer with the given sign and magnitude. -/
def signed (negative : Bool) (n : Nat) : Int := if negative then -(n : Int) else n

/-- Reads an integer. Underscores are checked first, then the number of digits, then what follows them. -/
def readInteger (s : String) : Except IntegerError Int :=
  let (negative, body) := splitSign (withoutMargin s.toList)
  let inNumber := fun c => isDecimal c || c == '_'
  let groups := (body.takeWhile inNumber).splitOn '_'
  let digits := groups.flatten
  if groups.any List.isEmpty then .error (.malformed s)
  else if digitLimit < digits.length then .error (.tooLong digits.length)
  else if body.dropWhile inNumber ≠ [] then .error (.malformed s)
  else .ok (signed negative (ofDigits digits))

end Retrieval.Numeral
