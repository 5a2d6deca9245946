import Retrieval.Command.Arguments

/-!
# Commands

The commands of the program with their options, and the command that a command line asks for.
-/

set_option autoImplicit false

namespace Retrieval.Command
open Json (Value)

/-- The version text of the settings when none is given. -/
def defaultVersion : String := "CranIndex-v1.11R"

/-- What all commands on an index have: a version text, unless it is omitted, and a file of stop words, if one is
given. -/
structure Common where
  version : Option String
  stopWords : Option String

/-- A command with its options; a path is none when it is omitted, and a number is then the empty list. -/
inductive Request where
  | build (common : Common) (collection output : Option String) (workers : Value)
  | boolean (common : Common) (index : Option String) (queries : List String)
  | search (common : Common) (index : Option String) (topK workers : Value) (queries : List String)
  | query (common : Common) (index : Option String) (topK : Value) (queries : List String)
  | evaluate (common : Common) (index queries relevance : Option String) (threshold : Option Value)
      (cutoff : Value)
  | setup

/-- The option that shows help. -/
def helpOption : OptionSpec := { key := .help, names := ["-h", "--help"], form := .flag }

/-- The options of every command on an index. -/
def commonOptions : List OptionSpec :=
  [helpOption, { key := .version, names := ["--version"] },
    { key := .stopWords, names := ["-w", "--stop-words"] }]

/-- The option that names the index. -/
def indexOption : OptionSpec := { key := .index, names := ["-i", "--index"], required := true }

/-- The option for the number of listed documents. -/
def topKOption : OptionSpec := { key := .topK, names := ["-k", "--top-k"], form := .integer }

/-- The option for the number of workers. -/
def workersOption : OptionSpec := { key := .workers, names := ["--workers"], form := .integer }

/-- The grammar before the name of a command. -/
def mainGrammar : Grammar :=
  ⟨[helpOption, { key := .verbose, names := ["-v", "--verbose"], form := .flag }], .command⟩

/-- The names of the commands. -/
inductive Name where
  | build
  | boolean
  | search
  | query
  | evaluate
  | setup
  deriving DecidableEq

/-- The text of a command's name. -/
def Name.text : Name → String
  | .build => "build"
  | .boolean => "boolean"
  | .search => "search"
  | .query => "query"
  | .evaluate => "evaluate"
  | .setup => "setup"

/-- All names of commands. -/
def Name.all : List Name := [.build, .boolean, .search, .query, .evaluate, .setup]

/-- The command with a name. -/
def Name.ofText? (text : String) : Option Name := all.find? (·.text = text)

/-- A line that names the commands. -/
def usageText : String := "Commands: " ++ String.intercalate ", " (Name.all.map Name.text)

/-- The grammar after the name of a command. -/
def Name.grammar : Name → Grammar
  | .build =>
    ⟨commonOptions ++ [{ key := .collection, names := ["-c", "--collection"], required := true },
      { key := .output, names := ["-o", "--output"], required := true }, workersOption], .none⟩
  | .boolean => ⟨commonOptions ++ [indexOption], .some⟩
  | .search => ⟨commonOptions ++ [indexOption, topKOption, workersOption], .some⟩
  | .query => ⟨commonOptions ++ [indexOption, topKOption], .some⟩
  | .evaluate =>
    ⟨commonOptions ++ [indexOption, { key := .queries, names := ["-q", "--queries"], required := true },
      { key := .relevance, names := ["-r", "--relevance"], required := true },
      { key := .threshold, names := ["--threshold"], form := .real },
      { key := .cutoff, names := ["-k"], form := .integer }], .none⟩
  | .setup => ⟨[helpOption], .none⟩

/-- The version text that is set, the default if none is, and none if it is omitted. -/
def Parsed.version (p : Parsed) : Option String := (p.get? .version).elim (some defaultVersion) Setting.text?

/-- The command that options and positional arguments describe. -/
def Name.request (name : Name) (p : Parsed) : Request :=
  let common : Common := ⟨p.version, (p.text? .stopWords).filter (· ≠ "")⟩
  let index := p.text? .index
  let topK := (p.value? .topK).getD (.integer 30)
  let workers := (p.value? .workers).getD (.integer 1)
  let queries := p.positionals.getD []
  match name with
  | .build => .build common (p.text? .collection) (p.text? .output) workers
  | .boolean => .boolean common index queries
  | .search => .search common index topK workers queries
  | .query => .query common index topK queries
  | .evaluate =>
    .evaluate common index (p.text? .queries) (p.text? .relevance) (p.value? .threshold)
      ((p.value? .cutoff).getD (.integer 10))
  | .setup => .setup

/-- The paths of the files that a command reads or writes. -/
def Request.paths : Request → List String
  | .build common collection output _ => [common.stopWords, collection, output].filterMap id
  | .boolean common index _ | .search common index _ _ _ | .query common index _ _ =>
    [common.stopWords, index].filterMap id
  | .evaluate common index queries relevance _ _ => [common.stopWords, index, queries, relevance].filterMap id
  | .setup => []

/-- The command that a command line asks for. -/
def parse (args : List String) : Except Exit Request := do
  let main ← mainGrammar.read args
  match main.positionals with
  | some (first :: rest) =>
    match Name.ofText? first with
    | none => .error .usage
    | some name =>
      let p ← name.grammar.read rest
      if main.leftOver || p.leftOver then .error .usage else return name.request p
  | _ => .error .usage

end Retrieval.Command
