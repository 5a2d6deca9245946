import Retrieval.Text.Casing.Tables
import Retrieval.Text.Digit

/-!
# Lower case and title case

Case mapping of whole texts. A capital sigma becomes the final form when a cased character comes before
it and none after it, transparent characters aside; every other character is mapped on its own. In title
case a cased character that follows a cased character is lowered, and every other one takes its title form.
-/

set_option autoImplicit false

namespace Retrieval.Text

/-- Whether the character takes part in case: it is a letter of some case. -/
def isCased (c : Char) : Bool := toggled Casing.casedChanges c.toNat

/-- Whether casing looks through the character: marks, apostrophes, full stops and modifiers. -/
def isTransparent (c : Char) : Bool := toggled Casing.transparentChanges c.toNat

/-- The character at the distance of the first run that covers the given one, or the character itself. -/
def shifted (table : List Casing.Run) (c : Char) : Char :=
  match table.find? (·.covers c.toNat) with
  | some run => Char.ofNat (Int.toNat (c.toNat + run.shift))
  | none => c

/-- The capital sigma, whose lower-case form depends on what stands around it. -/
def capitalSigma : Char := 'Σ'

/-- Whether the nearest character that casing does not look through is cased. -/
def casedNext (cs : List Char) : Bool :=
  match cs.dropWhile isTransparent with
  | [] => false
  | c :: _ => isCased c

/-- The lower-case form of one character, between the characters `before` it, nearest first, and `after` it. -/
def lowered (before : List Char) (c : Char) (after : List Char) : List Char :=
  if c.toNat < 0x80 then [c.toLower]
  else if c = capitalSigma then [if casedNext before && !casedNext after then 'ς' else 'σ']
  else if c = 'İ' then ['i', Char.ofNat 0x307]
  else [shifted Casing.lowerRuns c]

/-- The title-case form of one character. -/
def titled (c : Char) : List Char :=
  if c.toNat < 0x80 then [c.toUpper]
  else
    match Casing.titleSequences.lookup c.toNat with
    | some points => points.map Char.ofNat
    | none => [shifted Casing.titleRuns c]

/-- Lower case of the rest of a text, after the characters `before` it, nearest first. -/
def lowerAfter (before : List Char) : List Char → List Char
  | [] => []
  | c :: after => lowered before c after ++ lowerAfter (c :: before) after

/-- A text in lower case. -/
def lower (s : String) : String := String.ofList (lowerAfter [] s.toList)

/-- Title case of the rest of a text, after the characters `before` it, nearest first. -/
def titleAfter (before : List Char) : List Char → List Char
  | [] => []
  | c :: after =>
    let inWord := before.head?.any isCased
    (if inWord then lowered before c after else titled c) ++ titleAfter (c :: before) after

/-- A text in title case. -/
def title (s : String) : String := String.ofList (titleAfter [] s.toList)

end Retrieval.Text
