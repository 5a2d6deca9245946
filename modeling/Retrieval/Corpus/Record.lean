import Retrieval.Corpus.FormatError

/-!
# Records of marked files

A file of records is read line by line. A line that starts with `.I` begins a record and carries its id; a line
with a field marker and nothing else begins a field, which takes the lines up to the next marker; a field that
comes again starts afresh. A record is handed over as soon as it ends, that is, before the `.I` line after it is
looked at, so that the first defect of the file is the one that is reported.
-/

set_option autoImplicit false

namespace Retrieval.Corpus
open Retrieval.Text

/-- The fields of a record. -/
inductive Marker where
  | title
  | authors
  | bibliography
  | body
  deriving DecidableEq

/-- The text of a marker. -/
def Marker.text : Marker → String
  | .title => ".T"
  | .authors => ".A"
  | .bibliography => ".B"
  | .body => ".W"

/-- All markers. -/
def Marker.all : List Marker := [.title, .authors, .bibliography, .body]

/-- The marker that a line consists of, blanks after it aside. -/
def Marker.ofLine? (line : String) : Option Marker :=
  Marker.all.find? fun m => m.text.toList.isPrefixOf line.toList && trim line == m.text

/-- The marker that begins a record. -/
def recordMark : String := ".I"

/-- Whether a line begins a record. -/
def startsRecord (line : String) : Bool := recordMark.toList.isPrefixOf line.toList

/-- A record: its id, the number of its first line, and the lines of its fields. -/
structure Record where
  id : Int
  line : Nat
  fields : List (Marker × List String)

namespace Record

/-- The lines of a field, if the record has it. -/
def field? (r : Record) (m : Marker) : Option (List String) := r.fields.lookup m

/-- The lines of a field, none if the record does not have it. -/
def field (r : Record) (m : Marker) : List String := (r.field? m).getD []

/-- The record with a field set to the given lines. -/
def setField (r : Record) (m : Marker) (lines : List String) : Record :=
  { r with fields := (m, lines) :: r.fields.filter (·.1 ≠ m) }

/-- The record with one more line in a field. -/
def addLine (r : Record) (m : Marker) (line : String) : Record := r.setField m (r.field m ++ [line])

end Record

/-- The record that a `.I` line with the given number begins. -/
def openRecord (number : Nat) (line : String) : Except ReadError Record :=
  match words line with
  | [_, id] =>
    if id.toList.all isDigit then
      match Numeral.readInteger id with
      | .ok n => .ok ⟨n, number, []⟩
      | .error e => .error (.integer e)
    else .error (formatError (.invalidRecordId line) number)
  | _ => .error (formatError (.invalidRecordId line) number)

/-- The record being read and the field that takes the next line. -/
structure Cursor where
  record : Record
  current : Option Marker

/-- Reads the numbered lines of a file; `finish` takes each record as it ends, with what the records before it
have given. -/
def scan {σ : Type} (finish : σ → Record → Except ReadError σ) (done : σ) :
    Option Cursor → List (String × Nat) → Except ReadError σ
  | none, [] => .ok done
  | some cursor, [] => finish done cursor.record
  | cursor, (line, number) :: rest => do
    if startsRecord line then
      let done ← match cursor with
        | some cursor => finish done cursor.record
        | none => pure done
      let record ← openRecord number line
      scan finish done (some ⟨record, none⟩) rest
    else
      match Marker.ofLine? line, cursor with
      | some m, none => .error (formatError (.fieldOutsideRecord m.text) number)
      | some m, some cursor => scan finish done (some ⟨cursor.record.setField m [], some m⟩) rest
      | none, none =>
        if isBlankLine line then scan finish done none rest
        else .error (formatError .textBeforeFirstRecord number)
      | none, some cursor =>
        let record := cursor.current.elim cursor.record fun m => cursor.record.addLine m line
        scan finish done (some { cursor with record }) rest

/-- The lines of a text with their numbers, from one on. -/
def numberedLines (text : String) : List (String × Nat) := (lines text).zipIdx 1

/-- Reads the records of a text. -/
def readRecords {σ : Type} (finish : σ → Record → Except ReadError σ) (start : σ) (text : String) :
    Except ReadError σ :=
  scan finish start none (numberedLines text)

/-- Lines as one text: trimmed, without the blank ones, with a space between them. -/
def joinLines (lines : List String) : String :=
  String.intercalate " " ((lines.filter (!isBlankLine ·)).map trim)

end Retrieval.Corpus
