import Retrieval.Json.Value
import Retrieval.Stemmer.Porter
import Retrieval.Text.Blank

/-!
# Normalising text to terms

Documents and queries go through one normaliser. It lowers the text, takes the maximal runs of ASCII letters,
digits and underscores, drops those of one character and those that are stop words, and stems the rest. Stop
words are held as they are stored in an index, where a value that is not text stops nothing.
-/

set_option autoImplicit false

namespace Retrieval
open Json (Value)

/-- The characters that tokens of free text are made of. -/
def isTokenChar (c : Char) : Bool := c.isAlphanum || c == '_'

/-- The tokens of a text: the maximal runs of token characters in lower case. -/
def textTokens (text : String) : List String :=
  (Text.runs isTokenChar (Text.lower text).toList).map String.ofList

/-- Stop words and a stemmer. -/
structure Normalizer where
  stopWords : List Value
  stem : String → String

namespace Normalizer

/-- The normaliser with the given words as stop words. -/
def ofWords (words : List String) (stem : String → String) : Normalizer := ⟨words.map .string, stem⟩

/-- Whether a token is a stop word. -/
def stops (n : Normalizer) (token : String) : Bool := n.stopWords.any (Value.same (.string token))

/-- Whether a token gives a term. -/
def keeps (n : Normalizer) (token : String) : Bool := 1 < token.length && !n.stops token

/-- The terms of a text, in order. -/
def terms (n : Normalizer) (text : String) : List String := ((textTokens text).filter n.keeps).map n.stem

/-- The terms of a list of lines, in order. -/
def termsOfLines (n : Normalizer) (lines : List String) : List String := lines.flatMap n.terms

end Normalizer

/-- Whether each value of the first list equals one of the second. -/
def allIn (xs ys : List Value) : Bool := xs.all fun x => ys.any (Value.same x)

/-- Whether two lists of stop words hold the same words. -/
def sameWords (xs ys : List Value) : Bool := allIn xs ys && allIn ys xs

/-- The stop words of a file: one on each line that is not blank, in lower case. -/
def readStopWords (text : String) : List String :=
  (((Text.lines text).map Text.trim).filter (· ≠ "")).map Text.lower

end Retrieval
