import Retrieval.Numeral.Real

/-!
# Tokens of JSON texts

A JSON text is cut into punctuation, strings and literals. A string may hold every character from the space
on, and escapes; two escapes of the halves of one character make that character. Where no token begins there
is an `invalid` one, at which reading stops.
-/

set_option autoImplicit false

namespace Retrieval.Json
open Retrieval.Numeral

/-- A token of a JSON text. -/
inductive Token where
  | leftBracket
  | rightBracket
  | leftBrace
  | rightBrace
  | comma
  | colon
  | null
  | bool (b : Bool)
  /-- The digits of an integer, which may be too many to be read. -/
  | integer (text : String)
  | real (x : Float)
  | string (s : String)
  | invalid

/-- The blanks between tokens. -/
def isSpace (c : Char) : Bool := c == ' ' || c == '\t' || c == '\n' || c == '\r'

/-- The value of a hexadecimal digit. -/
def hexValue? (c : Char) : Option Nat :=
  if '0' ≤ c ∧ c ≤ '9' then some (c.toNat - 48)
  else if 'a' ≤ c ∧ c ≤ 'f' then some (c.toNat - 87)
  else if 'A' ≤ c ∧ c ≤ 'F' then some (c.toNat - 55)
  else none

/-- The value of four hexadecimal digits. -/
def unit? (a b c d : Char) : Option Nat := do
  let x ← hexValue? a
  let y ← hexValue? b
  let z ← hexValue? c
  let w ← hexValue? d
  return ((x * 16 + y) * 16 + z) * 16 + w

/-- The character that a backslash and a letter stand for. -/
def shortEscape? (c : Char) : Option Char :=
  if c = '"' ∨ c = '\\' ∨ c = '/' then some c
  else if c = 'b' then some (Char.ofNat 8)
  else if c = 'f' then some (Char.ofNat 12)
  else if c = 'n' then some '\n'
  else if c = 'r' then some '\r'
  else if c = 't' then some '\t'
  else none

/-- The code units of a string up to its closing quote, with the number of characters they are written in. -/
def scanString (units : List Nat) (count : Nat) : List Char → Option (List Nat × Nat)
  | [] => none
  | '"' :: _ => some (units.reverse, count + 1)
  | '\\' :: 'u' :: a :: b :: c :: d :: rest => do
    let n ← unit? a b c d
    scanString (n :: units) (count + 6) rest
  | '\\' :: c :: rest => do
    let e ← shortEscape? c
    scanString (e.toNat :: units) (count + 2) rest
  | c :: rest => if c.toNat < 0x20 ∨ c = '\\' then none else scanString (c.toNat :: units) (count + 1) rest

/-- The characters of code units: the two halves of a character are joined, and a half on its own is replaced. -/
def ofUnits : List Nat → List Char
  | [] => []
  | [n] => [if n.isValidChar then Char.ofNat n else Char.ofNat 0xFFFD]
  | n :: m :: rest =>
    if 0xD800 ≤ n ∧ n < 0xDC00 ∧ 0xDC00 ≤ m ∧ m < 0xE000 then
      Char.ofNat (0x10000 + (n - 0xD800) * 0x400 + (m - 0xDC00)) :: ofUnits rest
    else (if n.isValidChar then Char.ofNat n else Char.ofNat 0xFFFD) :: ofUnits (m :: rest)

/-- Whether the character is an ASCII digit. -/
def isAsciiDigit (c : Char) : Bool := '0' ≤ c && c ≤ '9'

/-- The whole part of a number: a zero, or digits that start with another one. -/
def wholePart : List Char → List Char
  | '0' :: _ => ['0']
  | cs => cs.takeWhile isAsciiDigit

/-- The places of a number with their point, if there are any. -/
def placesPart : List Char → List Char
  | '.' :: rest => match rest.takeWhile isAsciiDigit with
    | [] => []
    | ds => '.' :: ds
  | _ => []

/-- The exponent of a number with its mark and sign, if there is one. -/
def exponentPart : List Char → List Char
  | c :: rest =>
    if c = 'e' ∨ c = 'E' then
      let sign := (rest.take 1).filter fun s => s == '+' || s == '-'
      match (rest.drop sign.length).takeWhile isAsciiDigit with
      | [] => []
      | ds => c :: sign ++ ds
    else []
  | [] => []

/-- The longest number at the front of a text, its sign given, with the number of characters it is written in. -/
def scanNumber (negative : Bool) (cs : List Char) : Option (Token × Nat) :=
  let whole := wholePart cs
  let afterWhole := cs.drop whole.length
  let places := placesPart afterWhole
  let exponent := exponentPart (afterWhole.drop places.length)
  let written := whole ++ places ++ exponent
  if whole = [] then none
  else if places = [] ∧ exponent = [] then
    some (.integer (String.ofList (if negative then '-' :: whole else whole)), written.length)
  else (readDecimal negative written).map fun x => (.real x, written.length)

/-- The literals that are words. -/
def wordTokens : List (String × Token) :=
  [("null", .null), ("true", .bool true), ("false", .bool false), ("NaN", .real (0 / 0)),
    ("Infinity", .real (infinity false)), ("-Infinity", .real (infinity true))]

/-- The word literal at the front of a text, with the number of its characters. -/
def scanWord (cs : List Char) : Option (Token × Nat) :=
  (wordTokens.find? fun entry => entry.1.toList.isPrefixOf cs).map fun entry => (entry.2, entry.1.length)

/-- The punctuation mark that a character is. -/
def mark? (c : Char) : Option Token :=
  if c = '[' then some .leftBracket
  else if c = ']' then some .rightBracket
  else if c = '{' then some .leftBrace
  else if c = '}' then some .rightBrace
  else if c = ',' then some .comma
  else if c = ':' then some .colon
  else none

/-- The token that begins with the character `c`, with the number of further characters it takes. -/
def scanToken (c : Char) (rest : List Char) : Token × Nat :=
  let found :=
    if c = '"' then (scanString [] 0 rest).map fun (units, n) => (.string (String.ofList (ofUnits units)), n)
    else if c = '-' then
      (scanNumber true rest).orElse fun _ => (scanWord (c :: rest)).map fun (token, n) => (token, n - 1)
    else if isAsciiDigit c then (scanNumber false (c :: rest)).map fun (token, n) => (token, n - 1)
    else
      ((mark? c).map fun token => (token, 0)).orElse fun _ =>
        (scanWord (c :: rest)).map fun (token, n) => (token, n - 1)
  found.getD (.invalid, 0)

/-- The tokens of a text. -/
def tokens : List Char → List Token
  | [] => []
  | c :: rest =>
    if isSpace c then tokens rest
    else
      let (token, n) := scanToken c rest
      token :: tokens (rest.drop n)
termination_by cs => cs.length
decreasing_by
  all_goals
    simp only [List.length_cons, List.length_drop]
    omega

end Retrieval.Json
