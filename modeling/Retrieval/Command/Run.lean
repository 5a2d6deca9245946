import Retrieval.Command.Basic
import Retrieval.Workspace

/-!
# Running commands

A command reads and writes files, prints, and leaves notices. It ends with a status, or with a failure, after which
what was printed and written before stands.
-/

set_option autoImplicit false

namespace Retrieval.Command
open Json (Value)

/-- What a command needs besides files: why the download of stop words fails, if it does; the readings of the clock
before and after each query; and the memory in use, in megabytes. -/
structure Surroundings where
  downloadError : Option String := none
  clock : List Float := []
  memory : Float := 0.0

/-- What a command works on and leaves behind. -/
structure World where
  files : Files
  printed : String := ""
  notices : List Notice := []

/-- A computation of a command. -/
abbrev Action := ExceptT Failure (StateM World)

/-- The result of an operation, or its failure. -/
def ofExcept {ε β : Type} (failure : ε → Failure) (r : Except ε β) : Action β :=
  match r with
  | .ok b => pure b
  | .error e => throw (failure e)

/-- Leaves a notice. -/
def notice (n : Notice) : Action Unit := modify fun w => { w with notices := w.notices ++ [n] }

/-- Prints a line. -/
def printLine (s : String) : Action Unit := modify fun w => { w with printed := w.printed ++ s ++ "\n" }

/-- Prints a report, as far as it can be completed. -/
def printReport (page : Page Unit) : Action Unit := do
  let (text, error) := page.print
  modify fun w => { w with printed := w.printed ++ text }
  match error with
  | some e => throw (.report e)
  | none => pure ()

/-- A number changed by an option; zero and an omitted number change nothing. -/
def changedBy (given : Option Value) (number : Value) : Value :=
  match given with
  | none | some (.integer 0) | some (.list []) => number
  | some v => v

/-- The settings changed by options. -/
def settingsFor (common : Common) (topK workers threshold : Option Value) : Except SettingsError Settings := do
  let s ← common.version.elim (.error .noVersion) Settings.ofVersion
  return { s with
    topK := changedBy topK s.topK
    workers := changedBy workers s.workers
    threshold := threshold.getD s.threshold }

/-- The workspace of a command: the settings are read first, then the stop words, if a file of them is given. -/
def openWorkspace (common : Common) (topK workers threshold : Option Value) : Action Workspace := do
  let settings ← ofExcept .settings (settingsFor common topK workers threshold)
  match common.stopWords with
  | none => return ⟨settings, none, none⟩
  | some path =>
    let text ← ofExcept .file ((← get).files.readText path)
    return ⟨settings, some (.ofWords (readStopWords text) Stemmer.porter), none⟩

/-- A path that is needed. -/
def needed (path : Option String) : Action String := path.elim (throw (.file .noPath)) pure

/-- The searcher on a stored index. -/
def openSearcher (w : Workspace) (index : Option String) : Action (Searcher Float) := do
  let index ← needed index
  let outcome := w.load (← get).files index
  outcome.notices.forM notice
  let _ ← ofExcept id outcome.result
  ofExcept id outcome.workspace.searcher

/-- The notice that the form of a collection keeps an index from being built. -/
def abortNotice (e : Corpus.FormatError) : Notice := ⟨.error, s!"Index build aborted: {e.message}"⟩

/-- Stores the index of a workspace. -/
def saveIndex (w : Workspace) (output : Option String) : Action Unit := do
  let _ ← ofExcept id w.ready
  let output ← needed output
  let (result, files) := w.save (← get).files output
  modify fun world => { world with files }
  ofExcept id result

/-- Builds and stores an index; a collection that does not have the form of one ends with status one, and without
a collection there are no documents. -/
def runBuild (common : Common) (collection output : Option String) (workers : Value) : Action Nat := do
  let w ← openWorkspace common none (some workers) none
  let files := (← get).files
  let outcome := collection.elim (w.buildFrom (.ok [])) (w.build files)
  match outcome.result with
  | .error (.corpus (.format e)) => do
    notice (abortNotice e)
    return 1
  | result => do
    let _ ← ofExcept id result
    saveIndex outcome.workspace output
    return 0

/-- The notice that a query cannot be parsed. -/
def queryNotice (query : String) (e : Query.ParseError) : Notice :=
  ⟨.warning, s!"Query {Text.quoted query} failed: {e.message}"⟩

/-- The text of a list of ids. -/
def idsText (ids : List Int) : String := (Value.list (ids.map .integer)).print

/-- Answers a query in the searcher's mode, and tells whether it could be parsed. -/
def answerQuery (s : Searcher Float) (query : String) : Action Bool := do
  match s.answer query with
  | .ok (.docs ids) => do
    printLine (idsText ids)
    return true
  | .ok (.listings found) => do
    printReport (Report.ranked query (Report.ofListings found))
    return true
  | .error (.parse e) => do
    notice (queryNotice query e)
    return false
  | .error e => throw (.search e)

/-- Answers queries one by one; a query that cannot be parsed makes the status one. -/
def answerQueries (s : Searcher Float) (queries : List String) : Action Nat := do
  let parsed ← queries.mapM (answerQuery s)
  return if parsed.all id then 0 else 1

/-- Answers ranked queries, all before the first is printed. -/
def runSearch (s : Searcher Float) (workers : Value) (queries : List String) : Action Nat := do
  let found ← ofExcept (.search ∘ .arithmetic) (s.batch queries workers)
  (queries.zip found).forM fun (query, listings) => printReport (Report.ranked query (Report.ofListings listings))
  return 0

/-- The text of a file. -/
def openText (path : Option String) : Action String := do
  let path ← needed path
  ofExcept .file ((← get).files.readText path)

/-- The queries of a file. -/
def openQueries (path : Option String) : Action (List Corpus.Query) := do
  let text ← openText path
  ofExcept .corpus (Corpus.readQueries text)

/-- Evaluates a run of queries against judgments, and prints its quality and its performance. -/
def runEvaluate (around : Surroundings) (s : Searcher Float) (index queries relevance : Option String)
    (cutoff : Value) : Action Nat := do
  let queries ← openQueries queries
  let text ← openText relevance
  let judgments ← ofExcept .corpus (Corpus.readJudgments text)
  let summary ← ofExcept (.search ∘ .arithmetic) (s.evaluate (numberedQueries queries) judgments none cutoff)
  printReport (Report.evaluation (Report.ofSummary summary))
  let times ← ofExcept .latency (s.latency (queries.map Corpus.Query.text) 1 around.clock)
  let size := megabytes (index.bind (← get).files.size?)
  printReport (Report.performance (Report.ofMeasurements times around.memory size))
  return 0

/-- The notice that the stop words could not be downloaded. -/
def downloadNotice (reason : String) : Notice := ⟨.error, s!"Failed to download NLTK data: {reason}"⟩

/-- Downloads the stop words. -/
def runSetup (around : Surroundings) : Action Nat :=
  match around.downloadError with
  | none => return 0
  | some reason => do
    notice (downloadNotice reason)
    return 1

/-- Runs a command. -/
def Request.action (around : Surroundings) : Request → Action Nat
  | .build common collection output workers => runBuild common collection output workers
  | .boolean common index queries => do
    let s ← openSearcher (← openWorkspace common none none none) index
    answerQueries { s with mode := .boolean } queries
  | .search common index topK workers queries => do
    let s ← openSearcher (← openWorkspace common (some topK) (some workers) none) index
    runSearch s workers queries
  | .query common index topK queries => do
    let s ← openSearcher (← openWorkspace common (some topK) none none) index
    answerQueries s queries
  | .evaluate common index queries relevance threshold cutoff => do
    let s ← openSearcher (← openWorkspace common none none threshold) index
    runEvaluate around s index queries relevance cutoff
  | .setup => runSetup around

/-- The searches that a command measures: a searcher and the queries it is timed on. -/
def Request.timed (files : Files) (request : Request) : Option (Searcher Float × List String) :=
  match request with
  | .evaluate common index queries _ threshold _ =>
    let opened : Action (Searcher Float × List String) := do
      let s ← openSearcher (← openWorkspace common none none threshold) index
      return (s, (← openQueries queries).map Corpus.Query.text)
    (opened.run { files }).1.toOption
  | _ => none

/-- How a run ends. -/
inductive Ending where
  | status (n : Nat)
  | exit (e : Exit)
  | failed (e : Failure)

/-- Runs a command line on files. -/
def run (around : Surroundings) (files : Files) (args : List String) : Ending × World :=
  match parse args with
  | .error e => (.exit e, { files })
  | .ok request =>
    match (request.action around).run { files } with
    | (.ok n, world) => (.status n, world)
    | (.error e, world) => (.failed e, world)

end Retrieval.Command
