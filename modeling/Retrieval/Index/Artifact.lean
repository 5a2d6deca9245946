import Retrieval.Gzip.Member
import Retrieval.Index.Basic
import Retrieval.Json.Printer
import Retrieval.Json.Reader
import Retrieval.Numeral.Real
import Retrieval.Sorting

/-!
# Stored indexes

An index is stored as a JSON object with the entries, the norms, the metadata, the mode and the stop words, as it
is or compressed. What is read may come from elsewhere: ids and counts may be given in any form that stands for
an integer, a pair may be any value with two items, and the parts are checked in the order in which they are
named above.
-/

set_option autoImplicit false

namespace Retrieval
open Json (Value)

/-- How an index is stored. -/
inductive Compression where
  | none
  | gzip
  deriving DecidableEq

/-- Packs data for storing. -/
def Compression.pack (c : Compression) (data : ByteArray) : ByteArray :=
  match c with
  | .none => data
  | .gzip => Gzip.pack data

/-- The data behind stored ones, which are unpacked if they bear the mark of a compressed file. -/
def unpackStored (data : ByteArray) : Except Gzip.FileError ByteArray :=
  if Gzip.isCompressed data then Gzip.unpack data else .ok data

/-- Why a value is no index. -/
inductive ArtifactError where
  /-- A part that must be there is missing. -/
  | missing (part : String)
  /-- A part that must be an object is something else. -/
  | notAnObject
  /-- A value is of a type that cannot be used in its place. -/
  | wrongType
  | tooFewItems (count : Nat)
  | tooManyItems
  /-- A member of a list of pairs has another length. -/
  | notAPair (position length : Nat)
  | integer (e : Numeral.IntegerError)
  | real (e : Numeral.RealError)
  /-- The missing value where an integer is needed. -/
  | notANumber
  /-- A number that is too large for its place. -/
  | outOfRange
  | unknownMode (name : Value)

/-- The text of the error, empty where the kind says all. -/
def ArtifactError.message : ArtifactError → String
  | .missing part => Text.quoted part
  | .tooFewItems count => s!"not enough values to unpack (expected 2, got {count})"
  | .tooManyItems => "too many values to unpack (expected 2)"
  | .notAPair position length =>
    s!"dictionary update sequence element #{position} has length {length}; 2 is required"
  | .integer e => e.message
  | .real e => e.message
  | .notANumber => "cannot convert float NaN to integer"
  | .unknownMode name => name.shown
  | .notAnObject | .wrongType | .outOfRange => ""

namespace Artifact

/-- The integer that a value stands for: reals are cut to their whole part. -/
def integerOf : Value → Except ArtifactError Int
  | .integer n => .ok n
  | .bool b => .ok (if b then 1 else 0)
  | .string s => (Numeral.readInteger s).mapError .integer
  | .real x =>
    match Numeral.reading x with
    | .notANumber => .error .notANumber
    | .infinite _ => .error .outOfRange
    | .finite negative mantissa exponent =>
      let (num, den) := Numeral.fractionOf mantissa exponent
      .ok (Numeral.signed negative (num / den))
  | _ => .error .wrongType

/-- The real that a value stands for. -/
def realOf : Value → Except ArtifactError Float
  | .real x => .ok x
  | .integer n => let x := Numeral.nearestInt n; if x.isInf then .error .outOfRange else .ok x
  | .bool b => .ok (if b then 1 else 0)
  | .string s => (Numeral.readReal s).mapError .real
  | _ => .error .wrongType

/-- The items of a value, which must have some kind of items. -/
def itemsOf (v : Value) : Except ArtifactError (List Value) := v.items?.elim (.error .wrongType) .ok

/-- The two items of a value. -/
def pairOf (v : Value) : Except ArtifactError (Value × Value) := do
  match ← itemsOf v with
  | [a, b] => return (a, b)
  | items => if items.length < 2 then .error (.tooFewItems items.length) else .error .tooManyItems

/-- The members of a part that must be an object. -/
def membersOf : Value → Except ArtifactError (List (String × Value))
  | .object members => .ok members
  | _ => .error .notAnObject

/-- A posting: a pair of integers. -/
def postingOf (v : Value) : Except ArtifactError Posting := do
  let (doc, tf) ← pairOf v
  return ⟨← integerOf doc, ← integerOf tf⟩

/-- An entry: a pair of an integer and postings. -/
def entryOf (v : Value) : Except ArtifactError Entry := do
  let (aggregate, postings) ← pairOf v
  let aggregate ← integerOf aggregate
  return ⟨aggregate, ← (← itemsOf postings).mapM postingOf⟩

/-- Adds a member of a list of pairs to metadata. -/
def addPair (m : Metadata) (numbered : Value × Nat) : Except ArtifactError Metadata := do
  match ← itemsOf numbered.1 with
  | [key, v] => if key.isAtom then .ok (m.insert key v) else .error .wrongType
  | items => .error (.notAPair numbered.2 items.length)

/-- Metadata: an object, or a list of pairs. -/
def metadataOf : Value → Except ArtifactError Metadata
  | .object members => .ok (members.map fun (key, v) => (.string key, v))
  | v => do (← itemsOf v).zipIdx.foldlM addPair []

/-- A table of documents: its keys are integers in the form of texts. -/
def docTable {ν : Type} (read : Value → Except ArtifactError ν) (v : Value) :
    Except ArtifactError (Table Int ν) := do
  let entries ← (← membersOf v).mapM fun (key, v) => do
    let doc ← integerOf (.string key)
    return (doc, ← read v)
  return .ofList entries

/-- The mode stored as a value. -/
def modeOf (v : Value) : Except ArtifactError AggregateMode :=
  match v.text?.bind AggregateMode.ofName? with
  | some mode => .ok mode
  | none => .error (if v.isAtom then .unknownMode v else .wrongType)

/-- Values in ascending order: texts by their characters, others as far as those that are compared have an order
between them. -/
def sortedValues (vs : List Value) : Except ArtifactError (List Value) :=
  match vs.mapM Value.text? with
  | some texts => .ok ((texts.mergeSort fun a b => !decide (b < a)).map .string)
  | none => Sorting.sortWith (fun v w => (Value.lt? v w).elim (.error .wrongType) .ok) vs

/-- Stop words, if there are any: the items of a value in ascending order. -/
def stopWordsOf : Value → Except ArtifactError (Option (List Value))
  | .null => .ok none
  | v => do return some (← sortedValues (← itemsOf v))

/-- A part that must be there. -/
def part (data : List (String × Value)) (name : String) : Except ArtifactError Value :=
  (data.lookup name).elim (.error (.missing name)) .ok

/-- The index that a value describes. -/
def toIndex (v : Value) : Except ArtifactError (Index Float) := do
  let data ← (membersOf v).mapError fun _ => .wrongType
  let entries ← (← membersOf (← part data "index")).mapM fun (term, v) => do return (term, ← entryOf v)
  let norms ← docTable realOf (← part data "documentNorms")
  let metadata ← docTable metadataOf ((data.lookup "documentMetadata").getD (.object []))
  let mode ← modeOf ((data.lookup "aggregateMode").getD (.string AggregateMode.occurrences.name))
  let stopWords ← stopWordsOf ((data.lookup "stopWords").getD .null)
  return .make (.ofList entries) norms metadata mode stopWords

/-- The value of a posting. -/
def ofPosting (p : Posting) : Value := .list [.integer p.doc, .integer p.tf]

/-- The value of an entry. -/
def ofEntry (e : Entry) : Value := .list [.integer e.aggregate, .list (e.postings.map ofPosting)]

/-- The value of metadata. -/
def ofMetadata (m : Metadata) : Value := .object (m.map fun (key, v) => (key.keyText, v))

/-- The value of a table of documents. -/
def ofDocTable {ν : Type} (write : ν → Value) (t : Table Int ν) : Value :=
  .object (t.toList.map fun (doc, v) => (toString doc, write v))

/-- The value that describes an index, with its norms written by `norm`. -/
def ofIndex {α : Type} (norm : α → Value) (ix : Index α) : Value := .object [
  ("index", .object (ix.entries.toList.map fun (term, e) => (term, ofEntry e))),
  ("documentNorms", ofDocTable norm ix.norms),
  ("documentMetadata", ofDocTable ofMetadata ix.metadata),
  ("aggregateMode", .string ix.mode.name),
  ("stopWords", ix.stopWords.elim .null .list)]

end Artifact

/-- Why stored data cannot be loaded. -/
inductive LoadError where
  | packed (e : Gzip.FileError)
  | notText
  | json (e : Json.ReadError)
  | artifact (e : ArtifactError)

/-- The text of an index as it is stored. -/
def Index.text (ix : Index Float) : String := (Artifact.ofIndex .real ix).print

/-- The data under which an index is stored. -/
def Index.save (ix : Index Float) (c : Compression) : ByteArray := c.pack ix.text.toUTF8

/-- The text behind stored data. -/
def storedText (data : ByteArray) : Except LoadError String := do
  let bytes ← (unpackStored data).mapError LoadError.packed
  (String.fromUTF8? bytes).elim (.error .notText) .ok

/-- The index behind stored data. -/
def Index.load (data : ByteArray) : Except LoadError (Index Float) := do
  let text ← storedText data
  let v ← (Json.read text).mapError LoadError.json
  (Artifact.toIndex v).mapError LoadError.artifact

end Retrieval
