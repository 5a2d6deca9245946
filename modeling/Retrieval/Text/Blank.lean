/-!
# Blanks, runs and lines

The shapes that all readers of this library share: a text is cut into maximal runs of characters of one
class, trimmed of blanks at both ends, or split into lines. `runs` is the only scanner; words of a line,
words of a document and the tokens of a query are all runs of some class.
-/

set_option autoImplicit false

namespace Retrieval.Text

/-- The blank characters: the white space of the character standard and the four separator controls. -/
def isBlank (c : Char) : Bool :=
  let n := c.toNat
  (9 ≤ n && n ≤ 13) || (0x1C ≤ n && n ≤ 0x20) || n == 0x85 || n == 0xA0 || n == 0x1680 ||
    (0x2000 ≤ n && n ≤ 0x200A) || n == 0x2028 || n == 0x2029 || n == 0x202F || n == 0x205F || n == 0x3000

/-- The maximal runs of characters that satisfy `p`, from left to right. -/
def runs (p : Char → Bool) : List Char → List (List Char)
  | [] => []
  | c :: cs => if p c then (c :: cs.takeWhile p) :: runs p (cs.dropWhile p) else runs p cs
termination_by cs => cs.length
decreasing_by
  · have := (cs.dropWhile_sublist p).length_le
    simp only [List.length_cons]
    omega
  · simp

/-- The words of a text: its maximal runs without blanks. -/
def words (s : String) : List String := (runs (!isBlank ·) s.toList).map String.ofList

/-- A list of characters without the blanks at its ends. -/
def trimmed (cs : List Char) : List Char := ((cs.dropWhile isBlank).reverse.dropWhile isBlank).reverse

/-- A text without the blanks at its ends. -/
def trim (s : String) : String := String.ofList (trimmed s.toList)

/-- Whether a text holds nothing but blanks. -/
def isBlankLine (s : String) : Bool := s.toList.all isBlank

/-- The lines of a text, which newlines separate: one more than there are newlines. -/
def lines (s : String) : List String := (s.toList.splitOn '\n').map String.ofList

/-- Line ends in the form of a single newline: a carriage return, alone or with a newline after it, is one. -/
def unifyNewlines : List Char → List Char
  | [] => []
  | '\r' :: '\n' :: rest => '\n' :: unifyNewlines rest
  | c :: rest => (if c = '\r' then '\n' else c) :: unifyNewlines rest

end Retrieval.Text
