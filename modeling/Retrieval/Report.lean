import Retrieval.Json.Value
import Retrieval.Latency
import Retrieval.Numeral.Decimal
import Retrieval.Searcher
import Retrieval.Text.Casing
import Retrieval.Json.Printer

/-!
# Printed reports

A report is filled in from a value, field by field and line by line. Where a field is missing or cannot be shown
in its place, the report ends there, and the lines before it stand.
-/

set_option autoImplicit false

namespace Retrieval
open Json (Value)

/-- Why a report cannot be completed. -/
inductive ReportError where
  /-- A field is missing. -/
  | missing (field : String)
  /-- A value of a type that cannot be shown in its place. -/
  | wrongType
  /-- A title that is not text. -/
  | notText
  /-- A text where places after the point are asked for. -/
  | notReal
  /-- An integer too large for places after the point. -/
  | outOfRange

/-- The text of the error, empty where the kind says all. -/
def ReportError.message : ReportError → String
  | .missing field => Text.quoted field
  | .notReal => "Unknown format code 'f' for object of type 'str'"
  | .wrongType | .notText | .outOfRange => ""

/-- Writing a report: the text written so far stays when an error ends it. -/
abbrev Page := ExceptT ReportError (StateM String)

namespace Page

/-- Writes a line. -/
def line (s : String) : Page Unit := modify fun written => written ++ s ++ "\n"

/-- A line of one character, repeated. -/
def rule (c : Char) (width : Nat) : String := String.ofList (List.replicate width c)

/-- A text filled up with spaces to a width. -/
def padRight (width : Nat) (s : String) : String := s ++ rule ' ' (width - s.length)

/-- The first characters of a text. -/
def firstChars (n : Nat) (s : String) : String := String.ofList (s.toList.take n)

/-- A field of an object. -/
def field (key : String) : Value → Page Value
  | .object members => (members.lookup key).elim (throw (.missing key)) pure
  | _ => throw .wrongType

/-- The title form of a text, cut to a width. -/
def titleText (width : Nat) : Value → Page String
  | .string s => pure (firstChars width (Text.title s))
  | _ => throw .notText

/-- A number or a text in a column of the given width. -/
def column (width : Nat) : Value → Page String
  | .string s => pure (padRight width s)
  | .bool b => pure (padRight width (if b then "1" else "0"))
  | .integer n => pure (padRight width (toString n))
  | .real x => pure (padRight width (Numeral.natural Numeral.shortNames x))
  | _ => throw .wrongType

/-- A number with places after the point. -/
def places (count : Nat) : Value → Page String
  | .bool b => pure (Numeral.fixed count (if b then 1 else 0))
  | .integer n => match finite? (Numeral.nearestInt n) with
    | some x => pure (Numeral.fixed count x)
    | none => throw .outOfRange
  | .real x => pure (Numeral.fixed count x)
  | .string _ => throw .notReal
  | _ => throw .wrongType

/-- A value outside columns: texts as they are. -/
def plain : Value → String
  | .string s => s
  | v => v.shown

/-- What a report prints, and the error that ends it, if one does. -/
def print (page : Page Unit) : String × Option ReportError :=
  match page.run "" with
  | (.ok _, text) => (text, none)
  | (.error e, text) => (text, some e)

end Page

namespace Report
open Page

/-- A row of the table of listed documents. -/
def columns (doc title authors score : String) : String :=
  String.intercalate " " [padRight 8 doc, padRight 60 title, padRight 22 authors, padRight 8 score]

/-- One listed document. -/
def listingRow (v : Value) : Page Unit := do
  let title ← titleText 58 (← field "title" v)
  let authors ← titleText 20 (← field "authors" v)
  let doc ← column 8 (← field "doc_id" v)
  let score ← places 4 (← field "score" v)
  line (columns doc title authors score)

/-- The table of the documents that a ranked query lists. -/
def ranked (query : String) (listings : Value) : Page Unit := do
  line ""
  line (rule '=' 100)
  line s!"Query: {query}"
  line (rule '=' 100)
  line (columns "Doc Id" "Title" "Authors" "Score")
  line (rule '-' 100)
  match listings.items? with
  | some items => items.forM listingRow
  | none => throw .wrongType

/-- A line with a label and a field that has places after the point. -/
def measureLine (label key : String) (count : Nat) (v : Value) : Page Unit := do
  let text ← places count (← field key v)
  line (label ++ text)

/-- The quality of a run. -/
def evaluation (summary : Value) : Page Unit := do
  let threshold ← field "threshold" summary
  line ""
  line (rule '=' 70)
  let queries ← field "num_queries" summary
  let limit ← places 2 threshold
  line s!"Evaluation Report ({plain queries} queries, threshold {limit})"
  line (rule '=' 70)
  measureLine "  Precision:   " "precision" 4 summary
  measureLine "  Recall:      " "recall" 4 summary
  let cutoff ← column 9 (← field "k" summary)
  measureLine s!"  P@{cutoff} " "p_at_k" 4 summary
  measureLine "  MAP:         " "map" 4 summary

/-- Whether a value has a part with the given name: an object a member, a list an item, a text a stretch of it. -/
def hasPart (name : String) : Value → Page Bool
  | .object members => pure (members.any (·.1 = name))
  | .list items => pure (items.any (Value.same (.string name)))
  | .string s => pure ((List.range (s.length + 1)).any fun n => name.toList.isPrefixOf (s.toList.drop n))
  | _ => throw .wrongType

/-- The latency part of a performance report. -/
def latencyLines (latency : Value) : Page Unit := do
  measureLine "  Mean:     " "mean" 2 latency
  measureLine "  Median:   " "median" 2 latency
  measureLine "  P95:      " "p95" 2 latency
  measureLine "  P99:      " "p99" 2 latency

/-- The performance of a run, as far as it was measured. -/
def performance (metrics : Value) : Page Unit := do
  if ← hasPart "latency" metrics then
    line ""
    line "Latency Statistics (ms):"
    latencyLines (← field "latency" metrics)
  if ← hasPart "memory" metrics then
    let memory ← places 2 (← field "memory" metrics)
    line ""
    line s!"Memory Usage: {memory} MB"
  if ← hasPart "index_size" metrics then
    let size ← places 2 (← field "index_size" metrics)
    line s!"Index Size on Disk: {size} MB"
  line (rule '=' 70)
  line ""

/-- A listed document as a value. -/
def ofListing (l : Listing Float) : Value :=
  .object [("doc_id", .integer l.doc), ("title", l.title), ("authors", l.authors), ("score", .real l.score)]

/-- Listed documents as a value. -/
def ofListings (ls : List (Listing Float)) : Value := .list (ls.map ofListing)

/-- The quality of a run as a value. -/
def ofSummary (s : Quality.Summary Float) : Value := .object [
  ("num_queries", .integer s.rows.length), ("k", s.cutoff), ("threshold", s.threshold),
  ("precision", .real (s.meanOf Quality.Row.precisionAbove)),
  ("recall", .real (s.meanOf Quality.Row.recallAbove)),
  ("p_at_k", .real (s.meanOf Quality.Row.precisionAtCutoff)),
  ("map", .real (s.meanOf Quality.Row.averagePrecision))]

/-- Latency statistics as a value, an empty one when there was no query. -/
def ofLatency (s : Option (Latency.Statistics Float)) : Value :=
  .object (s.elim [] fun s => [("mean", .real s.mean), ("median", .real s.median), ("p95", .real s.p95),
    ("p99", .real s.p99), ("min", .real s.min), ("max", .real s.max)])

/-- The latency, the memory in use and the size of the index, both in megabytes, as a value. -/
def ofMeasurements (latency : Option (Latency.Statistics Float)) (memory indexSize : Float) : Value :=
  .object [("latency", ofLatency latency), ("memory", .real memory), ("index_size", .real indexSize)]

end Report
end Retrieval
