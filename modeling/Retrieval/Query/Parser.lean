import Retrieval.Query.Token
import Retrieval.Text.Quoted

/-!
# Parsing boolean queries

Negation binds more tightly than conjunction, and conjunction more tightly than disjunction; both connectives
associate to the left. A sequence of terms and connectives is read with a stack: each term but the last waits
with the connective after it, and a connective that does not bind more tightly than the waiting one first joins
what waits to what came last. Reading hands on the tokens that are left, fewer than it was given, and an error
carries the tokens from the wrong one on. A `Parser` parses one query after another: it starts each from its first
token, and stays where reading came to an end.
-/

set_option autoImplicit false

namespace Retrieval.Query

/-- What is wrong with a query. -/
inductive ParseCause where
  | emptyQuery
  | unmatchedClosing
  | expectedOperator (token : Token)
  | endOfQuery
  | unclosed
  | expectedOperatorOrClosing (token : Token)
  | operatorInPlaceOfTerm (op : Connective)
  | unexpectedClosing
  | invalidToken (text : String)

/-- The text of the cause. -/
def ParseCause.message : ParseCause → String
  | .emptyQuery => "Empty query"
  | .unmatchedClosing => "Unmatched closing parenthesis"
  | .expectedOperator token => s!"Expected operator, got {Text.quoted token.text}"
  | .endOfQuery => "Expected expression, got end of query"
  | .unclosed => "Unclosed parenthesis"
  | .expectedOperatorOrClosing token => s!"Expected operator or ')', got {Text.quoted token.text}"
  | .operatorInPlaceOfTerm op => s!"Expected expression, got operator {op.text}"
  | .unexpectedClosing => "Unexpected closing parenthesis"
  | .invalidToken text => s!"Invalid token {Text.quoted text}"

/-- What is wrong, and the tokens from the wrong one on. -/
structure Failure where
  cause : ParseCause
  rest : List Token

/-- Queries that wait for what follows the connective after them, the last one first. -/
abbrev Waiting := List (Query × Connective)

/-- Joins waiting queries to the current one, as long as their connective binds at least as tightly as `op`. -/
def reduce (op : Connective) : Waiting → Query → Waiting × Query
  | [], current => ([], current)
  | (left, above) :: waiting, current =>
    if op.precedence ≤ above.precedence then reduce op waiting (.join above left current)
    else ((left, above) :: waiting, current)

/-- Joins all waiting queries to the current one, the last one first. -/
def unwind (waiting : Waiting) (current : Query) : Query :=
  waiting.foldl (fun right (left, op) => .join op left right) current

/-- The tokens left after reading, fewer than before. -/
abbrev Shorter (ts : List Token) := { rest : List Token // rest.length < ts.length }

/-- The tokens left after reading, no more than before. -/
abbrev NotLonger (ts : List Token) := { rest : List Token // rest.length ≤ ts.length }

mutual

/-- Reads a term: a word, a query in parentheses, or a negated term. -/
def readTerm : (ts : List Token) → Except Failure (Query × Shorter ts)
  | [] => .error ⟨.endOfQuery, []⟩
  | .word name :: rest => .ok (.term name, ⟨rest, by simp⟩)
  | .leftParen :: ts =>
    match readExpression ts with
    | .error e => .error e
    | .ok (query, ⟨.rightParen :: rest, h⟩) =>
      .ok (query, ⟨rest, by simp only [List.length_cons] at *; omega⟩)
    | .ok (_, ⟨[], _⟩) => .error ⟨.unclosed, []⟩
    | .ok (_, ⟨token :: rest, _⟩) => .error ⟨.expectedOperatorOrClosing token, token :: rest⟩
  | .not :: ts =>
    match readTerm ts with
    | .error e => .error e
    | .ok (query, ⟨rest, h⟩) => .ok (.not query, ⟨rest, by simp only [List.length_cons] at *; omega⟩)
  | .connective op :: rest => .error ⟨.operatorInPlaceOfTerm op, .connective op :: rest⟩
  | .rightParen :: rest => .error ⟨.unexpectedClosing, .rightParen :: rest⟩
  | .other text :: rest => .error ⟨.invalidToken text, .other text :: rest⟩
termination_by ts => (ts.length, 0)

/-- Reads a term and the connectives and terms that follow it. -/
def readExpression (ts : List Token) : Except Failure (Query × Shorter ts) :=
  match readTerm ts with
  | .error e => .error e
  | .ok (query, ⟨rest, h⟩) =>
    match readChain [] query rest with
    | .error e => .error e
    | .ok (query, ⟨rest, h'⟩) => .ok (query, ⟨rest, by omega⟩)
termination_by (ts.length, 1)

/-- Reads the connectives and terms that follow the current query, where other queries may be waiting. -/
def readChain (waiting : Waiting) (current : Query) (ts : List Token) : Except Failure (Query × NotLonger ts) :=
  match ts with
  | .connective op :: ts =>
    let (waiting, left) := reduce op waiting current
    match readTerm ts with
    | .error e => .error e
    | .ok (query, ⟨rest, h⟩) =>
      match readChain ((left, op) :: waiting) query rest with
      | .error e => .error e
      | .ok (query, ⟨rest, h'⟩) => .ok (query, ⟨rest, by simp only [List.length_cons] at *; omega⟩)
  | ts => .ok (unwind waiting current, ⟨ts, Nat.le_refl _⟩)
termination_by (ts.length, 0)

end

/-- Reads a query from all of the tokens. -/
def ofTokens (ts : List Token) : Except Failure Query :=
  if ts = [] then .error ⟨.emptyQuery, []⟩
  else
    match readExpression ts with
    | .error e => .error e
    | .ok (query, ⟨[], _⟩) => .ok query
    | .ok (_, ⟨.rightParen :: rest, _⟩) => .error ⟨.unmatchedClosing, .rightParen :: rest⟩
    | .ok (_, ⟨token :: rest, _⟩) => .error ⟨.expectedOperator token, token :: rest⟩

/-- What is wrong with a query, and where: the position counts tokens from zero, and at the end of the query
there is no token. -/
structure ParseError where
  cause : ParseCause
  position : Nat
  token : Option String

/-- The text of the error. -/
def ParseError.message (e : ParseError) : String := s!"{e.cause.message} at position {e.position}"

/-- The outcome of parsing a query: its tokens, the query or what is wrong, and how far reading came. -/
structure Parse where
  tokens : List Token
  result : Except ParseError Query

/-- The place of a failure among the tokens. -/
def Failure.locate (ts : List Token) (e : Failure) : ParseError where
  cause := e.cause
  position := ts.length - e.rest.length
  token := e.rest.head?.map Token.text

/-- Parses a query. -/
def parse (query : String) : Parse :=
  let ts := tokenize query
  ⟨ts, (ofTokens ts).mapError (·.locate ts)⟩

/-- The number of tokens that reading went past: all of them, or those before the wrong one. -/
def Parse.position (p : Parse) : Nat :=
  match p.result with
  | .ok _ => p.tokens.length
  | .error e => e.position

/-- A parser: the tokens of the query that it was given last, and how many of them it has read. -/
structure Parser where
  tokens : List Token := []
  position : Nat := 0

namespace Parser

/-- A step of a parser. -/
abbrev Step := ExceptT ParseError (StateM Parser)

/-- The tokens that are left. -/
def left (p : Parser) : List Token := p.tokens.drop p.position

/-- Moves on to where the given tokens are left. -/
def advance (rest : List Token) : Step Unit := modify fun p => { p with position := p.tokens.length - rest.length }

/-- Fails at the place where the parser is. -/
def fail (cause : ParseCause) : Step Query := do
  let p ← get
  throw ⟨cause, p.position, p.left.head?.map Token.text⟩

/-- Reads an expression from the tokens that are left. -/
def expression : Step Query := do
  match readExpression (← get).left with
  | .ok (query, rest) => do
    advance rest
    return query
  | .error e => do
    advance e.rest
    fail e.cause

/-- Parses a query. -/
def parse (query : String) : Step Query := do
  set { tokens := tokenize query : Parser }
  if (← get).left = [] then fail .emptyQuery
  else
    let found ← expression
    match (← get).left with
    | [] => return found
    | .rightParen :: _ => fail .unmatchedClosing
    | token :: _ => fail (.expectedOperator token)

/-- The parser after it has parsed queries, whether or not there were errors. -/
def after (p : Parser) (queries : List String) : Parser := queries.foldl (fun p query => ((parse query).run p).2) p

end Parser

end Retrieval.Query
