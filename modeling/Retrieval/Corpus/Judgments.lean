import Retrieval.Corpus.FormatError
import Retrieval.Table

/-!
# Relevance judgments

Each line of a file of judgments that is not blank names a query, a document and a grade, which is zero when it
is missing. The judgments of each query keep the order of the file.
-/

set_option autoImplicit false

namespace Retrieval.Corpus
open Retrieval.Text

/-- A document judged relevant, with its grade. -/
structure Judgment where
  doc : Int
  grade : Int

/-- The judgments of each query. -/
abbrev Judgments := Table Int (List Judgment)

/-- The query and the judgment that the words of a line name. -/
def readJudgment? (parts : List String) : Option (Int × Judgment) := do
  let query ← (← parts[0]?) |> Numeral.readInteger |>.toOption
  let doc ← (← parts[1]?) |> Numeral.readInteger |>.toOption
  let grade ← (parts[2]?).elim (some 0) fun word => (Numeral.readInteger word).toOption
  return (query, ⟨doc, grade⟩)

/-- Adds a judgment to those of its query. -/
def Judgments.add (judgments : Judgments) (query : Int) (judgment : Judgment) : Judgments :=
  judgments.alter query fun before => before.getD [] ++ [judgment]

/-- Adds what a numbered line says. -/
def addLine (judgments : Judgments) (numbered : String × Nat) : Except ReadError Judgments :=
  let (line, number) := numbered
  if isBlankLine line then .ok judgments
  else
    match readJudgment? (words line) with
    | some (query, judgment) => .ok (judgments.add query judgment)
    | none => .error (formatError (.invalidRelevanceLine line) number)

/-- Reads a file of judgments. -/
def readJudgments (text : String) : Except ReadError Judgments :=
  ((lines text).zipIdx 1).foldlM addLine ∅

/-- The documents judged for a query. -/
def Judgments.docs (judgments : Judgments) (query : Int) : List Int :=
  ((judgments.get? query).getD []).map Judgment.doc

end Retrieval.Corpus
