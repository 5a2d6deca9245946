import Retrieval.Index.Artifact
import Retrieval.Searcher
import Retrieval.Text.Digit

/-!
# Settings

The settings of an index and its searches. The modes are written as a version text with two digits and a letter
at its end; the digits may be of any script, what comes before `v1.` does not matter, and one newline may follow.
The other settings are kept in the form in which they are given, and a value that is of no use in its place fails
where it is used first.
-/

set_option autoImplicit false

namespace Retrieval
open Json (Value)

/-- The settings of an index and its searches. -/
structure Settings where
  aggregateMode : AggregateMode := .occurrences
  compression : Compression := .none
  queryMode : QueryMode := .ranked
  /-- How many documents a ranked query lists. -/
  topK : Value := .integer 30
  /-- The score above which a document counts as retrieved. -/
  threshold : Value := .real 0.40
  /-- How many documents may be normalised at a time; nothing that is built depends on it. -/
  workers : Value := .integer 1
  /-- The normaliser where no stop words are given and none are stored, if there is one. -/
  fallback : Option Normalizer := none

/-- Why there are no settings. -/
inductive SettingsError where
  | invalidVersion (text : String)
  /-- The version is no text. -/
  | noVersion
  | unknownSetting (name : String)
  /-- A setting that the version gives, too. -/
  | repeatedSetting (name : String)
  /-- A value that is no number where a number is needed. -/
  | notANumber (name : String)
  /-- A mode given by a value of its own, and not by a version. -/
  | modeWithoutVersion (name : String)
  /-- A value that is not the letter of a query mode. -/
  | unknownQueryMode (v : Value)

/-- The text of the error, empty where the kind says all. -/
def SettingsError.message : SettingsError → String
  | .invalidVersion text => s!"Invalid version string: {text}"
  | .unknownQueryMode v => s!"{v.shown} is not a valid QueryMode"
  | _ => ""

/-- The number of an aggregate mode in version texts. -/
def AggregateMode.number : AggregateMode → Nat
  | .occurrences => 1
  | .documents => 2

/-- The name of a compression. -/
def Compression.name : Compression → String
  | .none => "NONE"
  | .gzip => "CLIB"

/-- The number of a compression in version texts. -/
def Compression.number : Compression → Nat
  | .none => 1
  | .gzip => 2

/-- The compression with a name. -/
def Compression.ofName? (name : String) : Option Compression :=
  [Compression.none, Compression.gzip].find? (·.name = name)

/-- The name of a query mode. -/
def QueryMode.name : QueryMode → String
  | .boolean => "BOOLEAN"
  | .ranked => "RANKED"

/-- The letter of a query mode in version texts. -/
def QueryMode.letter : QueryMode → Char
  | .boolean => 'B'
  | .ranked => 'R'

/-- The query mode with a letter. -/
def QueryMode.ofLetter? (c : Char) : Option QueryMode :=
  [QueryMode.boolean, QueryMode.ranked].find? (·.letter = c)

/-- The query mode whose letter is the whole of a value. -/
def QueryMode.ofValue (v : Value) : Except SettingsError QueryMode :=
  match v.text?.map String.toList with
  | some [c] => (ofLetter? c).elim (.error (.unknownQueryMode v)) .ok
  | _ => .error (.unknownQueryMode v)

/-- The aggregate mode with a number. -/
def AggregateMode.ofNumber? (n : Nat) : Option AggregateMode :=
  [AggregateMode.occurrences, AggregateMode.documents].find? (·.number = n)

/-- The compression with a number. -/
def Compression.ofNumber? (n : Nat) : Option Compression :=
  [Compression.none, Compression.gzip].find? (·.number = n)

namespace Settings

/-- The text that version texts start with. -/
def versionStart : String := "CranIndex-v1."

/-- The version text of the modes. -/
def version (s : Settings) : String :=
  s!"{versionStart}{s.aggregateMode.number}{s.compression.number}{s.queryMode.letter}"

/-- A text without the newline at its end, if there is one. -/
def withoutFinalNewline (cs : List Char) : List Char := if cs.getLast? = some '\n' then cs.dropLast else cs

/-- The settings that a version text stands for, with defaults for what it does not say. -/
def ofVersion? (text : String) : Option Settings :=
  match (withoutFinalNewline text.toList).reverse with
  | letter :: second :: first :: '.' :: '1' :: 'v' :: _ => do
    let mode ← AggregateMode.ofNumber? (← Text.decimalValue? first)
    let compression ← Compression.ofNumber? (← Text.decimalValue? second)
    let queryMode ← QueryMode.ofLetter? letter
    return { aggregateMode := mode, compression, queryMode }
  | _ => none

/-- The settings that a version text stands for. -/
def ofVersion (text : String) : Except SettingsError Settings :=
  (ofVersion? text).elim (.error (.invalidVersion text)) .ok

/-- The settings that a version text gives. -/
def versionNames : List String := ["aggregate_mode", "compression", "query_mode"]

/-- The names that no setting can have beside a version. -/
def reservedNames : List String := ["cls", "version"]

/-- The settings with one of them changed. -/
def override (s : Settings) (change : String × Value) : Except SettingsError Settings :=
  let (name, v) := change
  if name = "top_k" then .ok { s with topK := v }
  else if name = "workers" then .ok { s with workers := v }
  else if name = "score_threshold" then .ok { s with threshold := v }
  else .error (.unknownSetting name)

/-- The settings with some of them changed, none of which gives a mode; `modeError` is the error of one that does. -/
def overrideAll (s : Settings) (modeError : String → SettingsError) (changes : List (String × Value)) :
    Except SettingsError Settings := do
  let (modes, others) := changes.partition fun (name, _) => versionNames.contains name
  let s ← others.foldlM override s
  match modes with
  | [] => return s
  | (name, _) :: _ => .error (modeError name)

/-- The settings of a version, or the defaults without one, with some of them changed. -/
def ofParts (version : Option Value) (changes : List (String × Value)) : Except SettingsError Settings :=
  match version with
  | none => overrideAll {} .modeWithoutVersion changes
  | some v =>
    match changes.find? fun (name, _) => reservedNames.contains name, v with
    | some (name, _), _ => .error (.repeatedSetting name)
    | none, .string text => do overrideAll (← ofVersion text) .repeatedSetting changes
    | none, _ => .error .noVersion

end Settings
end Retrieval
