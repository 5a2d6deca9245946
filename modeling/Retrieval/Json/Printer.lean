import Retrieval.Json.Value
import Retrieval.Numeral.Decimal
import Retrieval.Text.Quoted

/-!
# Texts of JSON values

Two texts are written: the JSON text of stored artifacts, in ASCII, with a blank after each comma and colon;
and the text that messages use for a value, with quoted strings and capitalised names.
-/

set_option autoImplicit false

namespace Retrieval.Json
open Retrieval.Text (hexDigits quoted)

/-- A sixteen-bit unit as an escape. -/
def unitEscape (n : Nat) : List Char := '\\' :: 'u' :: hexDigits 4 n

/-- One character of a JSON string: characters beyond printable ASCII are escaped, in two units when one is too
short for them. -/
def escaped (c : Char) : List Char :=
  let n := c.toNat
  if c = '"' ∨ c = '\\' then ['\\', c]
  else if c = '\n' then ['\\', 'n']
  else if c = '\r' then ['\\', 'r']
  else if c = '\t' then ['\\', 't']
  else if n = 8 then ['\\', 'b']
  else if n = 12 then ['\\', 'f']
  else if 0x20 ≤ n ∧ n ≤ 0x7E then [c]
  else if n < 0x10000 then unitEscape n
  else unitEscape (0xD800 + (n - 0x10000) / 0x400) ++ unitEscape (0xDC00 + (n - 0x10000) % 0x400)

/-- A JSON string. -/
def stringText (s : String) : String := String.ofList ('"' :: s.toList.flatMap escaped ++ ['"'])

/-- The names of the numbers that digits cannot show. -/
def numberNames : Numeral.Names := ⟨"NaN", "Infinity"⟩

/-- The JSON text of a real: the fewest digits that read back to it. -/
def realText (x : Float) : String := Numeral.natural numberNames x

/-- A list of texts with commas between them. -/
def commaSeparated (parts : List String) : String := String.intercalate ", " parts

/-- Texts in square brackets. -/
def bracketed (parts : List String) : String := "[" ++ commaSeparated parts ++ "]"

/-- Texts in braces. -/
def braced (parts : List String) : String := "\x7b" ++ commaSeparated parts ++ "\x7d"

namespace Value

mutual

/-- The JSON text of a value. -/
def print : Value → String
  | .null => "null"
  | .bool b => if b then "true" else "false"
  | .integer n => toString n
  | .real x => realText x
  | .string s => stringText s
  | .list items => bracketed (printItems items)
  | .object members => braced (printMembers members)

/-- The JSON texts of the items of a list. -/
def printItems : List Value → List String
  | [] => []
  | v :: rest => print v :: printItems rest

/-- The JSON texts of the members of an object. -/
def printMembers : List (String × Value) → List String
  | [] => []
  | (key, v) :: rest => (stringText key ++ ": " ++ print v) :: printMembers rest

end

mutual

/-- The text of a value in messages. -/
def shown : Value → String
  | .null => "None"
  | .bool b => if b then "True" else "False"
  | .integer n => toString n
  | .real x => Numeral.natural Numeral.shortNames x
  | .string s => quoted s
  | .list items => bracketed (shownItems items)
  | .object members => braced (shownMembers members)

/-- The texts of the items of a list in messages. -/
def shownItems : List Value → List String
  | [] => []
  | v :: rest => shown v :: shownItems rest

/-- The texts of the members of an object in messages. -/
def shownMembers : List (String × Value) → List String
  | [] => []
  | (key, v) :: rest => (quoted key ++ ": " ++ shown v) :: shownMembers rest

end

/-- The key under which an atom is written in a JSON object. -/
def keyText : Value → String
  | .string s => s
  | v => v.print

end Value
end Retrieval.Json
