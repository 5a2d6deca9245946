import Retrieval.Corpus.FormatError
import Retrieval.Files
import Retrieval.Index.Artifact
import Retrieval.Measurement
import Retrieval.Query.Parser
import Retrieval.Report
import Retrieval.Settings

/-!
# Failures

Everything that can end an operation on files, indexes and queries without a result.
-/

set_option autoImplicit false

namespace Retrieval

/-- Why an operation has no result. -/
inductive Failure where
  | file (e : FileError)
  | corpus (e : Corpus.ReadError)
  | load (e : LoadError)
  | settings (e : SettingsError)
  | search (e : SearchError)
  | latency (e : LatencyError)
  | report (e : ReportError)
  /-- There is no index with terms. -/
  | noIndex
  /-- Stop words are needed and none are at hand. -/
  | noStopWords
  /-- A stop word is a list or an object. -/
  | compoundStopWord
  /-- There is an index and no normaliser for queries. -/
  | noNormalizer

/-- The text of a failure for want of an index. -/
def noIndexMessage : String := "Index not built or loaded"

/-- The text of an error, or what is wrong in general for an error without a text. -/
def messageOr (general message : String) : String := if message = "" then general else message

/-- What is wrong with stored data. -/
def LoadError.message : LoadError → String
  | .packed _ => "The compressed file is damaged"
  | .notText => FileError.notText.message
  | .json _ => "The file is not a JSON text"
  | .artifact e => messageOr "The file does not hold an index" e.message

/-- What is wrong, for whoever runs the program. -/
def Failure.message : Failure → String
  | .file e => e.message
  | .corpus (.format e) => e.message
  | .corpus (.integer e) => e.message
  | .load e => e.message
  | .settings e => messageOr "The settings are not valid" e.message
  | .search (.parse e) => e.message
  | .search (.arithmetic e) => e.message
  | .latency .noRounds => "There is no round of queries to measure"
  | .latency (.arithmetic e) => e.message
  | .report e => messageOr "A report cannot be completed" e.message
  | .noIndex => noIndexMessage
  | .noStopWords | .noNormalizer => "There are no stop words"
  | .compoundStopWord => "A stop word of the index is not a text"

/-- How serious a notice is. -/
inductive Level where
  | warning
  | error
  deriving DecidableEq

/-- The name of a level. -/
def Level.name : Level → String
  | .warning => "WARNING"
  | .error => "ERROR"

/-- A notice to whoever runs the program. -/
structure Notice where
  level : Level
  text : String

end Retrieval
