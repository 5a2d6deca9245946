import Retrieval.Text.Blank

/-!
# Boolean queries and their tokens

A query is a term, the negation of a query, or two queries joined by a connective.

It is written in tokens. A parenthesis is a token of its own, and so is each maximal run of characters that are
neither blanks nor parentheses. Runs of small letters are words, and three words in capitals are operators; any other
run stays as it is and is refused by the parser.
-/

set_option autoImplicit false

namespace Retrieval

/-- The operators that join two queries. -/
inductive Query.Connective where
  | and
  | or
  deriving DecidableEq

/-- A boolean query. -/
inductive Query where
  | term (name : String)
  | not (arg : Query)
  | join (op : Query.Connective) (left right : Query)
  deriving DecidableEq

namespace Query
open Retrieval.Text

/-- The text of a connective. -/
def Connective.text : Connective → String
  | .and => "AND"
  | .or => "OR"

/-- How tightly a connective binds. -/
def Connective.precedence : Connective → Nat
  | .or => 1
  | .and => 2

/-- The text of negation. -/
def notText : String := "NOT"

/-- A token of a query. -/
inductive Token where
  | word (name : String)
  | leftParen
  | rightParen
  | connective (op : Connective)
  | not
  | other (text : String)
  deriving DecidableEq

/-- The text of a token. -/
def Token.text : Token → String
  | .word name => name
  | .leftParen => "("
  | .rightParen => ")"
  | .connective op => op.text
  | .not => notText
  | .other text => text

/-- Whether the character is a small letter of ASCII. -/
def isSmallLetter (c : Char) : Bool := 'a' ≤ c && c ≤ 'z'

/-- The token that a run of characters is. -/
def Token.ofRun (run : List Char) : Token :=
  if run.all isSmallLetter then .word (String.ofList run)
  else if run = Connective.and.text.toList then .connective .and
  else if run = Connective.or.text.toList then .connective .or
  else if run = notText.toList then .not
  else .other (String.ofList run)

/-- Whether the character belongs to a run. -/
def isRunChar (c : Char) : Bool := !isBlank c && c != '(' && c != ')'

/-- The tokens of the characters of a query. -/
def tokensOf : List Char → List Token
  | [] => []
  | c :: cs =>
    if c = '(' then .leftParen :: tokensOf cs
    else if c = ')' then .rightParen :: tokensOf cs
    else if isBlank c then tokensOf cs
    else .ofRun (c :: cs.takeWhile isRunChar) :: tokensOf (cs.dropWhile isRunChar)
termination_by cs => cs.length
decreasing_by
  all_goals
    have := (cs.dropWhile_sublist isRunChar).length_le
    simp only [List.length_cons]
    omega

/-- The tokens of a query. -/
def tokenize (query : String) : List Token := tokensOf query.toList

end Query
end Retrieval
