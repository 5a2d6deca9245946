/-!
# Consonants and vowels

The shape of a word is the sequence of its consonants and vowels. The vowels are `a e i o u`, and `y` after a
consonant; every other character is a consonant. The rules of the stemmer ask for the measure of a stem, that
is, the number of vowels that a consonant follows, and for the shape of its end.
-/

set_option autoImplicit false

namespace Retrieval.Stemmer

/-- Whether the character is a vowel wherever it stands. -/
def isVowelLetter (c : Char) : Bool := c == 'a' || c == 'e' || c == 'i' || c == 'o' || c == 'u'

/-- For each character whether it is a consonant, where `afterConsonant` tells what comes before. -/
def shapeAfter (afterConsonant : Bool) : List Char → List Bool
  | [] => []
  | c :: cs =>
    let consonant := if isVowelLetter c then false else if c = 'y' then !afterConsonant else true
    consonant :: shapeAfter consonant cs

/-- For each character of a word whether it is a consonant. -/
def shape (word : List Char) : List Bool := shapeAfter false word

/-- The number of vowels that a consonant follows. -/
def changes : List Bool → Nat
  | false :: true :: rest => changes (true :: rest) + 1
  | _ :: rest => changes rest
  | [] => 0

/-- The measure of a word. -/
def measure (word : List Char) : Nat := changes (shape word)

/-- Whether a word has a vowel. -/
def hasVowel (word : List Char) : Bool := (shape word).contains false

/-- Whether a word ends in a consonant. -/
def endsInConsonant (word : List Char) : Bool := (shape word).getLastD false

/-- Whether a word ends in the same consonant twice. -/
def endsInDouble (word : List Char) : Bool :=
  match word.reverse with
  | a :: b :: _ => a == b && endsInConsonant word
  | _ => false

/-- Whether a word ends in consonant, vowel, consonant, the last of them not `w`, `x` or `y`, or is a vowel and a
consonant. -/
def endsShort (word : List Char) : Bool :=
  match (shape word).reverse, word.reverse with
  | true :: false :: true :: _, c :: _ => !(c == 'w' || c == 'x' || c == 'y')
  | [true, false], _ => true
  | _, _ => false

end Retrieval.Stemmer
