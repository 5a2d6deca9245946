import Retrieval.Json.Value
import Retrieval.Table

/-!
# Inverted indexes

An index holds, for each term, its aggregate and its postings, that is, the documents it occurs in with the
number of occurrences; and for each document its norm and, where there are any, its metadata. All tables keep
the order in which their keys first came. All its documents, in ascending order, are
those that had a norm when the index was made.
-/

set_option autoImplicit false

namespace Retrieval
open Json (Value)

/-- What the aggregate of a term counts over the corpus. -/
inductive AggregateMode where
  | occurrences
  | documents
  deriving DecidableEq

/-- The name under which a mode is stored. -/
def AggregateMode.name : AggregateMode → String
  | .occurrences => "OCCURRENCES"
  | .documents => "DOCUMENTS"

/-- The mode stored under a name. -/
def AggregateMode.ofName? (name : String) : Option AggregateMode :=
  [AggregateMode.occurrences, AggregateMode.documents].find? (·.name = name)

/-- The occurrences of a term in one document. -/
structure Posting where
  doc : Int
  tf : Int
  deriving DecidableEq

/-- The aggregate of a term and its postings. -/
structure Entry where
  aggregate : Int
  postings : List Posting
  deriving DecidableEq

/-- The documents of an entry. -/
def Entry.docs (e : Entry) : List Int := e.postings.map Posting.doc

/-- What is known of a document besides its terms: values under keys, which are texts unless an artifact from
elsewhere has others. -/
abbrev Metadata := List (Value × Value)

/-- The value under a textual key. -/
def Metadata.get? (m : Metadata) (key : String) : Option Value :=
  (m.find? fun (k, _) => Value.same k (.string key)).map Prod.snd

/-- Puts a value under a key: in the place of an equal key, or at the end. -/
def Metadata.insert (m : Metadata) (key v : Value) : Metadata :=
  if m.any fun (k, _) => Value.same k key then m.map fun (k, w) => if Value.same k key then (k, v) else (k, w)
  else m ++ [(key, v)]

/-- An inverted index. -/
structure Index (α : Type) where
  entries : Table String Entry
  norms : Table Int α
  metadata : Table Int Metadata
  mode : AggregateMode
  /-- The stop words of the documents in ascending order, if they are known. -/
  stopWords : Option (List Value)
  /-- All documents in ascending order. -/
  allDocs : List Int

/-- The keys of a table of documents in ascending order. -/
def ascendingDocs {ν : Type} (t : Table Int ν) : List Int := t.keys.mergeSort fun a b => a ≤ b

namespace Index

variable {α : Type}

/-- The index with the given contents. -/
def make (entries : Table String Entry) (norms : Table Int α) (metadata : Table Int Metadata)
    (mode : AggregateMode) (stopWords : Option (List Value)) : Index α :=
  ⟨entries, norms, metadata, mode, stopWords, ascendingDocs norms⟩

/-- The index of nothing. -/
def empty : Index α := make ∅ ∅ ∅ .occurrences none

/-- The number of documents. -/
def docCount (ix : Index α) : Nat := ix.norms.size

/-- The number of terms. -/
def termCount (ix : Index α) : Nat := ix.entries.size

/-- The terms in the order in which they first came. -/
def terms (ix : Index α) : List String := ix.entries.keys

/-- The postings of a term, none if it is absent. -/
def postings (ix : Index α) (term : String) : List Posting := (ix.entries.get? term).elim [] Entry.postings

/-- The documents of a term, none if it is absent. -/
def docs (ix : Index α) (term : String) : List Int := (ix.entries.get? term).elim [] Entry.docs

/-- The value of a document's metadata under a key, an empty text if it has none. -/
def field (ix : Index α) (doc : Int) (key : String) : Value :=
  (((ix.metadata.get? doc).getD []).get? key).getD (.string "")

end Index
end Retrieval
