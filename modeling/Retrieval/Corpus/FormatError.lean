import Retrieval.Numeral.Integer

/-!
# Errors in corpus files

A file that does not have the form of a collection, a query file or a list of judgments is refused with the
cause and, when a line is at fault, its number.
-/

set_option autoImplicit false

namespace Retrieval.Corpus

/-- What is wrong with a corpus. -/
inductive FormatCause where
  | invalidRecordId (line : String)
  | fieldOutsideRecord (marker : String)
  | textBeforeFirstRecord
  | documentWithoutBody (id : Int)
  | queryWithoutBody (position : Nat)
  /-- A document of a collection whose id is not greater than the one before. -/
  | documentOutOfOrder (id previous : Int)
  /-- A document added to an index after one with an id that is not smaller. -/
  | documentAddedAfter (id previous : Int)
  | invalidRelevanceLine (line : String)

/-- The text of the cause. -/
def FormatCause.message : FormatCause → String
  | .invalidRecordId line => s!"Invalid record id: {Text.quoted line}"
  | .fieldOutsideRecord marker => s!"Field {marker} outside of a record"
  | .textBeforeFirstRecord => "Text before the first .I marker"
  | .documentWithoutBody id => s!"Document {id} has no .W body"
  | .queryWithoutBody position => s!"Query {position} has no .W body"
  | .documentOutOfOrder id previous => s!"Document {id} is out of order (previous {previous})"
  | .documentAddedAfter id previous => s!"Document {id} added after document {previous}"
  | .invalidRelevanceLine line => s!"Invalid relevance line: {Text.quoted line}"

/-- What is wrong with a corpus, and the number of the line at fault. -/
structure FormatError where
  cause : FormatCause
  line : Option Nat

/-- The text of the error. -/
def FormatError.message (e : FormatError) : String :=
  match e.line with
  | some n => s!"{e.cause.message} (line {n})"
  | none => e.cause.message

/-- Why a file of records cannot be read. -/
inductive ReadError where
  | format (e : FormatError)
  /-- A record id whose characters are digits but which is no integer. -/
  | integer (e : Numeral.IntegerError)

/-- The error with a cause at a line. -/
def formatError (cause : FormatCause) (line : Nat) : ReadError := .format ⟨cause, some line⟩

end Retrieval.Corpus
