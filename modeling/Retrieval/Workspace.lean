import Retrieval.Corpus.Collection
import Retrieval.Failure
import Retrieval.Index.Accumulator

/-!
# Building and loading indexes

A workspace holds settings, a normaliser and the index it works on. An index without terms counts as none. A
workspace without a normaliser takes the stop words of the first index that it loads, with the default stemmer,
and keeps them; where it needs a normaliser and there are no stored stop words, it takes the fallback of its
settings, if there is one. A build that fails leaves the index as it was, and so does a load, unless the index is
there and only its stop words are of no use.
-/

set_option autoImplicit false

namespace Retrieval
open Json (Value)

/-- A document to be indexed. -/
structure Source where
  id : Int
  lines : List String
  metadata : Option Metadata := none

/-- The metadata of a document: its title and authors. -/
def Corpus.Document.metadata (d : Corpus.Document) : Metadata :=
  [(.string "title", .string d.title), (.string "authors", .string d.authors)]

/-- A document of a collection as one to be indexed. -/
def Source.ofDocument (d : Corpus.Document) : Source := ⟨d.id, d.lines, some d.metadata⟩

/-- The stop words of a normaliser as they are stored: in ascending order, each once. -/
def storedWords (normalizer : Normalizer) : List Value :=
  let words := normalizer.stopWords.eraseDupsBy Value.same
  (Artifact.sortedValues words).toOption.getD words

/-- The index of documents, which must come in strictly ascending order of their ids. -/
def buildIndex {α : Type} [Scoring α] (mode : AggregateMode) (normalizer : Normalizer) (documents : List Source) :
    Except Corpus.FormatError (Index α) := do
  let start : Accumulator α := { mode }
  let acc ← documents.foldlM (fun acc d => acc.add d.id (normalizer.termsOfLines d.lines) d.metadata) start
  return acc.index (some (storedWords normalizer))

/-- Builds the index of documents with so many workers, on which nothing that is built depends; they must be
given as a number. -/
def buildIndexWith {α : Type} [Scoring α] (mode : AggregateMode) (normalizer : Normalizer) (workers : Value)
    (documents : List Source) : Except Failure (Index α) :=
  if workers.isNumber then (buildIndex mode normalizer documents).mapError fun e => .corpus (.format e)
  else .error (.settings (.notANumber "workers"))

/-- Settings, a normaliser and an index. -/
structure Workspace where
  settings : Settings
  normalizer : Option Normalizer
  index : Option (Index Float) := none

/-- What an operation on a workspace leaves behind. -/
structure Outcome where
  workspace : Workspace
  result : Except Failure (Index Float)
  notices : List Notice := []

namespace Workspace

/-- The operation failed and changed nothing. -/
def unchanged (w : Workspace) (e : Failure) : Outcome := { workspace := w, result := .error e }

/-- Builds the index of documents. -/
def buildFrom (w : Workspace) (documents : Except Failure (List Source)) : Outcome :=
  match w.normalizer.or w.settings.fallback with
  | none => w.unchanged .noStopWords
  | some normalizer =>
    let w := { w with normalizer := some normalizer }
    match documents with
    | .error e => w.unchanged e
    | .ok documents =>
      match buildIndexWith w.settings.aggregateMode normalizer w.settings.workers documents with
      | .error e => w.unchanged e
      | .ok ix => { workspace := { w with index := some ix }, result := .ok ix }

/-- The documents of a collection file. -/
def documentsOf (files : Files) (path : String) : Except Failure (List Source) := do
  let text ← (files.readText path).mapError Failure.file
  let documents ← (Corpus.readCollection text).mapError Failure.corpus
  return documents.map Source.ofDocument

/-- Builds the index of a collection file. -/
def build (w : Workspace) (files : Files) (path : String) : Outcome := w.buildFrom (documentsOf files path)

/-- The notice that the stop words of queries are not those of the index. -/
def stopWordNotice (stored : List Value) : Notice :=
  ⟨.warning, s!"Query stopwords differ from the {stored.length} stopwords the index was built with; " ++
    "some query terms may never match"⟩

/-- The workspace with a loaded index, and what its stop words mean for queries. -/
def adopt (w : Workspace) (ix : Index Float) : Outcome :=
  let loaded := { w with index := some ix }
  let compound := ix.stopWords.any fun words => words.any (!·.isAtom)
  match w.normalizer, ix.stopWords with
  | none, none =>
    match w.settings.fallback with
    | none => { workspace := loaded, result := .error .noStopWords }
    | some normalizer => { workspace := { loaded with normalizer := some normalizer }, result := .ok ix }
  | some _, none => { workspace := loaded, result := .ok ix }
  | none, some words =>
    if compound then { workspace := loaded, result := .error .compoundStopWord }
    else { workspace := { loaded with normalizer := some ⟨words, Stemmer.porter⟩ }, result := .ok ix }
  | some normalizer, some words =>
    if compound then { workspace := loaded, result := .error .compoundStopWord }
    else
      { workspace := loaded, result := .ok ix,
        notices := if sameWords words normalizer.stopWords then [] else [stopWordNotice words] }

/-- Loads a stored index. -/
def load (w : Workspace) (files : Files) (path : String) : Outcome :=
  match files.read path with
  | .error e => w.unchanged (.file e)
  | .ok data =>
    match Index.load data with
    | .error e => w.unchanged (.load e)
    | .ok ix => w.adopt ix

/-- The index, if there is one with terms. -/
def ready (w : Workspace) : Except Failure (Index Float) :=
  (w.index.filter (0 < ·.termCount)).elim (.error .noIndex) .ok

/-- Stores the index, and gives the files after that, among them directories that were made before it failed. -/
def save (w : Workspace) (files : Files) (path : String) : Except Failure Unit × Files :=
  match w.ready with
  | .error e => (.error e, files)
  | .ok ix =>
    let (result, files) := (Files.store path (ix.save w.settings.compression)).run files
    (result.mapError .file, files)

/-- The searcher for the index. -/
def searcher (w : Workspace) : Except Failure (Searcher Float) := do
  let ix ← w.ready
  let normalizer ← w.normalizer.elim (.error .noNormalizer) .ok
  return ⟨ix, normalizer, w.settings.topK, w.settings.queryMode, w.settings.threshold⟩

/-- Answers a boolean query; the query is parsed before a normaliser is needed. -/
def boolean (w : Workspace) (query : String) : Except Failure (List Int) := do
  let _ ← w.ready
  let q ← (Query.parse query).result.mapError fun e => .search (.parse e)
  return (← w.searcher).matching q

/-- Answers a ranked query. -/
def ranked (w : Workspace) (query : String) : Except Failure (List (Listing Float)) := do
  ((← w.searcher).ranked query none).mapError fun e => .search (.arithmetic e)

/-- Answers a query in the mode of the settings. -/
def answer (w : Workspace) (query : String) : Except Failure (Answer Float) :=
  match w.settings.queryMode with
  | .boolean => (w.boolean query).map .docs
  | .ranked => (w.ranked query).map .listings

end Workspace
end Retrieval
