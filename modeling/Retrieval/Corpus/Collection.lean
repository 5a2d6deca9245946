import Retrieval.Corpus.Record

/-!
# Collections of documents and files of queries

A collection holds documents with ascending ids. The body of a document is kept line by line, without the blank
lines at its end; title and authors become one line each. Queries are numbered by their position, because
judgments refer to positions and not to the ids in the file.
-/

set_option autoImplicit false

namespace Retrieval.Corpus
open Retrieval.Text

/-- A document of a collection. -/
structure Document where
  id : Int
  title : String
  authors : String
  lines : List String

/-- A query of a query file. -/
structure Query where
  number : Nat
  text : String

/-- Lines without the blank ones at their end. -/
def withoutTrailingBlanks (lines : List String) : List String := (lines.reverse.dropWhile isBlankLine).reverse

/-- The document that a record with the given body describes. -/
def Document.ofRecord (r : Record) (body : List String) : Document where
  id := r.id
  title := joinLines (r.field .title)
  authors := joinLines (r.field .authors)
  lines := withoutTrailingBlanks body

/-- Adds the document of a record to those before it, last first. -/
def addDocument (documents : List Document) (r : Record) : Except ReadError (List Document) :=
  match r.field? .body, documents.head? with
  | none, _ => .error (formatError (.documentWithoutBody r.id) r.line)
  | some body, none => .ok [.ofRecord r body]
  | some body, some last =>
    if r.id ≤ last.id then .error (formatError (.documentOutOfOrder r.id last.id) r.line)
    else .ok (.ofRecord r body :: documents)

/-- Reads a collection: its documents, with ascending ids. -/
def readCollection (text : String) : Except ReadError (List Document) :=
  (readRecords addDocument [] text).map List.reverse

/-- Adds the query of a record to those before it, last first. -/
def addQuery (queries : List Query) (r : Record) : Except ReadError (List Query) :=
  let number := queries.length + 1
  match r.field? .body with
  | none => .error (formatError (.queryWithoutBody number) r.line)
  | some body => .ok (⟨number, joinLines body⟩ :: queries)

/-- Reads a file of queries, in order. -/
def readQueries (text : String) : Except ReadError (List Query) :=
  (readRecords addQuery [] text).map List.reverse

end Retrieval.Corpus
