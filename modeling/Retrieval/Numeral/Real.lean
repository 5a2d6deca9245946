import Retrieval.Numeral.Binary
import Retrieval.Numeral.Integer

/-!
# Reals read from text

A real is written with an optional sign, decimal digits of any script with an optional point and exponent,
single underscores between digits, and blanks around the whole; or it is one of the names of infinity and of
the missing value, in any case.
-/

set_option autoImplicit false

namespace Retrieval.Numeral
open Retrieval.Text

/-- The text is no real. -/
structure RealError where
  text : String

/-- The text of the error. -/
def RealError.message (e : RealError) : String := "could not convert string to float: " ++ quoted e.text

/-- The text without the underscores that stand between two digits, unless another underscore remains. -/
def joinGroups : List Char → Option (List Char)
  | [] => some []
  | '_' :: _ => none
  | [c] => some [c]
  | c :: '_' :: d :: rest =>
    if isDecimal c && isDecimal d then (joinGroups (d :: rest)).map (c :: ·) else none
  | c :: rest => (joinGroups rest).map (c :: ·)

/-- The exponent at the end of a decimal: zero when nothing is left. -/
def readExponent : List Char → Option Int
  | [] => some 0
  | c :: rest =>
    if c = 'e' ∨ c = 'E' then
      let (negative, digits) := splitSign rest
      if digits ≠ [] ∧ digits.all isDecimal then some (signed negative (ofDigits digits)) else none
    else none

/-- The digits after a point, and what follows them. -/
def splitPlaces : List Char → List Char × List Char
  | '.' :: rest => (rest.takeWhile isDecimal, rest.dropWhile isDecimal)
  | cs => ([], cs)

/-- Reads a decimal without a sign: digits with an optional point, at least one of them, and an exponent. -/
def readDecimal (negative : Bool) (cs : List Char) : Option Float := do
  let whole := cs.takeWhile isDecimal
  let (places, rest) := splitPlaces (cs.dropWhile isDecimal)
  let exponent ← readExponent rest
  if whole = [] ∧ places = [] then none
  else some (nearestDecimal negative (ofDigits (whole ++ places)) (exponent - places.length))

/-- The value with a name, in any case. -/
def named (negative : Bool) (cs : List Char) : Option Float :=
  let name := String.ofList (cs.map Char.toLower)
  if name = "inf" ∨ name = "infinity" then some (infinity negative)
  else if name = "nan" then some (0 / 0)
  else none

/-- Reads a real. -/
def readReal (s : String) : Except RealError Float :=
  let value := do
    let cs ← joinGroups (withoutMargin s.toList)
    let (negative, body) := splitSign cs
    (named negative body).orElse fun _ => readDecimal negative body
  value.elim (.error ⟨s⟩) .ok

end Retrieval.Numeral
