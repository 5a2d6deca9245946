import Retrieval.Proofs.Corpus.Documents

/-!
# Collections read back

A document is written as one record: its id, the title and the authors on a line each, and the lines of its body. Where
no line of it would be taken for a marker, and the body does not end with a blank line, the collection that documents
with ascending ids are written as is read back as these documents (`readCollection_writeCollection`).
-/

set_option autoImplicit false

namespace Retrieval.Corpus
open Retrieval.Text

/-! ### Writing -/

/-- The line that begins the record of a document. -/
def Document.heading (d : Document) : String := recordMark ++ " " ++ toString d.id

/-- The lines of the fields of a document, each after its marker. -/
def Document.content (d : Document) : List String :=
  Marker.title.text :: d.title :: Marker.authors.text :: d.authors :: Marker.body.text :: d.lines

/-- The lines that a document is written as. -/
def Document.written (d : Document) : List String := d.heading :: d.content

/-- The text that documents are written as, with a newline after each line. -/
def writeCollection (documents : List Document) : String :=
  String.join ((documents.flatMap Document.written).map (· ++ "\n"))

/-- A line that consists of a marker and blanks after it. -/
def Marker.IsLine (m : Marker) (line : String) : Prop :=
  ∃ blanks, line.toList = m.text.toList ++ blanks ∧ ∀ c ∈ blanks, isBlank c = true

/-- A line that a document can hold: no newline is in it, and it is none of the lines that have a meaning of their
own. -/
structure Plain (line : String) : Prop where
  whole : '\n' ∉ line.toList
  continues : ¬ recordMark.toList <+: line.toList
  unmarked : ∀ m : Marker, ¬ m.IsLine line

/-- Documents that can be written so as to be read back. -/
structure Document.Writable (d : Document) : Prop where
  nonneg : 0 ≤ d.id
  short : Numeral.Short d.id
  title : trim d.title = d.title
  authors : trim d.authors = d.authors
  last : ∀ l ∈ d.lines.getLast?, isBlankLine l = false
  plain : ∀ l ∈ d.title :: d.authors :: d.lines, Plain l

/-! ### Lines -/

theorem Marker.ofLine?_eq_some_iff_isLine {m : Marker} {line : String} :
    Marker.ofLine? line = some m ↔ m.IsLine line := by
  have dot (rest : List Char) : (m.text.toList ++ rest).dropWhile isBlank = m.text.toList ++ rest := by
    cases m <;> rfl
  have solid : m.text.toList.rdropWhile isBlank = m.text.toList := by
    cases m <;> decide
  rw [Marker.ofLine?_eq_some_iff]
  constructor
  · -- Trimming leaves the marker, so it is the rest of the line that goes at its end.
    rintro ⟨⟨rest, split⟩, bare⟩
    rw [trim, trimmed, ← split, dot] at bare
    have kept : (m.text.toList ++ rest).rdropWhile isBlank = m.text.toList := by
      have chars := congrArg String.toList bare
      rwa [String.toList_ofList] at chars
    have whole := List.rdropWhile_append_rtakeWhile (p := isBlank) (l := m.text.toList ++ rest)
    rw [kept] at whole
    refine ⟨rest, split.symm, fun c hc => ?_⟩
    rw [← List.append_cancel_left whole] at hc
    exact List.mem_rtakeWhile_imp hc
  · rintro ⟨blanks, split, all⟩
    refine ⟨⟨blanks, split.symm⟩, ?_⟩
    rw [trim, trimmed, split, dot]
    show String.ofList ((m.text.toList ++ blanks).rdropWhile isBlank) = m.text
    rw [rdropWhile_append all, solid, String.ofList_toList]

@[simp] theorem Marker.ofLine?_text (m : Marker) : Marker.ofLine? m.text = some m :=
  Marker.ofLine?_eq_some_iff_isLine.2 ⟨[], (List.append_nil _).symm, by simp⟩

/-- Reading takes a plain line for nothing but a part of the field that it is in. -/
theorem plain_iff {line : String} :
    Plain line ↔ '\n' ∉ line.toList ∧ startsRecord line = false ∧ Marker.ofLine? line = none := by
  have goesOn : startsRecord line = false ↔ ¬ recordMark.toList <+: line.toList := by
    rw [startsRecord, ← List.isPrefixOf_iff_prefix, Bool.not_eq_true]
  have unmarked : Marker.ofLine? line = none ↔ ∀ m : Marker, ¬ m.IsLine line := by
    simp only [Option.eq_none_iff_forall_ne_some, ne_eq, Marker.ofLine?_eq_some_iff_isLine]
  rw [goesOn, unmarked]
  constructor
  · intro h
    exact ⟨h.whole, h.continues, h.unmarked⟩
  · rintro ⟨whole, goesOn, unmarked⟩
    exact ⟨whole, goesOn, unmarked⟩

instance (line : String) : Decidable (Plain line) := decidable_of_iff _ plain_iff.symm

/-- A line without blanks at its ends is what it is joined to. -/
theorem joinLines_singleton {line : String} (h : trim line = line) : joinLines [line] = line := by
  cases blank : isBlankLine line with
  | false => simp [joinLines, blank, h]
  | true =>
    have none : line.toList.dropWhile isBlank = [] := List.dropWhile_eq_nil_iff.2 (List.all_eq_true.1 blank)
    have empty : trim line = "" := by
      rw [trim, trimmed, none]
      rfl
    rw [h] at empty
    rw [empty]
    rfl

theorem withoutTrailingBlanks_eq_self {ls : List String} (last : ∀ l ∈ ls.getLast?, isBlankLine l = false) :
    withoutTrailingBlanks ls = ls := by
  show ls.rdropWhile isBlankLine = ls
  rw [List.rdropWhile_eq_self_iff]
  intro some
  simp [last _ (List.getLast?_eq_getLast_of_ne_nil some)]

/-! ### Documents -/

namespace Document

theorem startsRecord_heading (d : Document) : startsRecord d.heading = true := by
  simp [startsRecord, heading, List.append_assoc]

namespace Writable

variable {d : Document} (h : d.Writable)

include h

/-- The id of a document is written with decimal digits. -/
theorem allDigits_id : Numeral.AllDigits (toString d.id).toList := by
  rw [Numeral.toList_toString, if_neg (Int.not_lt.2 h.nonneg)]
  exact Numeral.allDigits_digitsOf _

theorem recordId?_heading : recordId? d.heading = some d.id := by
  have some_digit : toString d.id ≠ "" := by
    rw [ne_eq, ← String.toList_inj, Numeral.toList_toString, if_neg (Int.not_lt.2 h.nonneg)]
    exact Numeral.digitsOf_ne_nil _
  have solid : ∀ w ∈ [recordMark, toString d.id], w ≠ "" ∧ ∀ c ∈ w.toList, isBlank c = false := by
    have mark : recordMark ≠ "" ∧ ∀ c ∈ recordMark.toList, isBlank c = false := by simp [recordMark, isBlank]
    simp only [List.forall_mem_cons]
    exact ⟨mark, ⟨some_digit, fun c hc => Numeral.isBlank_of_isDigit (h.allDigits_id c hc)⟩, by simp⟩
  have fields : words d.heading = [recordMark, toString d.id] := words_intercalate solid
  have digits : idDigits? d.heading = some (toString d.id) := by
    refine idDigits?_eq_some_iff.2 ⟨recordMark, fields, fun c hc => ?_⟩
    rw [isDigit, Numeral.isDecimal_of_isDigit (h.allDigits_id c hc), Bool.true_or]
  rw [recordId?, digits, Option.bind_some, Numeral.readInteger_toString h.short]
  rfl

/-- What holds of markers and of the lines that a document holds, holds of all lines after the first one. -/
theorem forall_mem_content {P : String → Prop} (marker : ∀ m : Marker, P m.text) (plain : ∀ l, Plain l → P l) :
    ∀ l ∈ d.content, P l := by
  obtain ⟨title, authors, lines⟩ : P d.title ∧ P d.authors ∧ ∀ l ∈ d.lines, P l := by
    simpa using fun l hl => plain l (h.plain l hl)
  simp only [content, List.forall_mem_cons]
  exact ⟨marker _, title, marker _, authors, marker _, lines⟩

theorem startsRecord_content : ∀ l ∈ d.content, startsRecord l = false :=
  h.forall_mem_content (by rintro (_ | _) <;> decide) fun _ plain => (plain_iff.1 plain).2.1

theorem newline_notMem_written : ∀ l ∈ d.written, '\n' ∉ l.toList := by
  refine List.forall_mem_cons.2 ⟨?_, h.forall_mem_content (by rintro (_ | _) <;> decide) fun _ plain => plain.whole⟩
  intro mem
  rw [heading, String.toList_append, String.toList_append, List.mem_append] at mem
  rcases mem with mem | mem
  · revert mem
    decide
  · exact absurd (h.allDigits_id _ mem) (by decide)

/-- The record that a document is written as describes the document. -/
theorem document?_written (number : Nat) : Block.document? ⟨number, d.heading, d.content⟩ = some d := by
  obtain ⟨title, authors, lines⟩ : Marker.ofLine? d.title = none ∧ Marker.ofLine? d.authors = none ∧
      ∀ l ∈ d.lines, Marker.ofLine? l = none := by
    simpa using fun l hl => (plain_iff.1 (h.plain l hl)).2.2
  have none (m : Marker) : fieldLines? m d.lines = none :=
    fieldLines?_eq_none_iff.2 fun l hl => by simp [lines l hl]
  have all : d.lines.takeWhile unmarked = d.lines :=
    List.takeWhile_eq_self_iff.2 fun l hl => by simp [unmarked, lines l hl]
  have fields : fieldLines? .title d.content = some [d.title] ∧ fieldLines? .authors d.content = some [d.authors] ∧
      fieldLines? .body d.content = some d.lines := by
    simp [content, fieldLines?, title, authors, none, all, unmarked]
  refine Block.document?_eq_some_iff.2 ⟨h.recordId?_heading, ?_, ?_, _, fields.2.2, ?_⟩
  · rw [fields.1]
    exact (joinLines_singleton h.title).symm
  · rw [fields.2.1]
    exact (joinLines_singleton h.authors).symm
  · exact (withoutTrailingBlanks_eq_self h.last).symm

/-- The lines that a document is written as are one block, which describes it. -/
theorem map_document?_blocks_written (k : Nat) : (blocks (d.written.zipIdx k)).map Block.document? = [some d] := by
  have none : blocks (d.content.zipIdx (k + 1)) = [] := by
    rw [← List.append_nil d.content, blocks_append_of_continues h.startsRecord_content]
    rfl
  have all : d.content.takeWhile continues = d.content :=
    List.takeWhile_eq_self_iff.2 fun l hl => by simp [continues, h.startsRecord_content l hl]
  rw [written, List.zipIdx_cons, blocks, if_pos d.startsRecord_heading, none, List.zipIdx_map_fst, all, List.map_cons,
    h.document?_written]
  rfl

end Writable

end Document

/-! ### Collections -/

/-- The empty line after the last newline is all that comes before the first record. -/
theorem takeWhile_written (documents : List Document) :
    ∀ l ∈ (documents.flatMap Document.written ++ [""]).takeWhile continues, l = "" := by
  intro l hl
  cases documents with
  | nil => simpa using (List.takeWhile_prefix continues).subset hl
  | cons d documents =>
    rw [List.flatMap_cons, Document.written, List.cons_append, List.cons_append,
      List.takeWhile_cons_of_neg (by simp [continues, d.startsRecord_heading])] at hl
    cases hl

/-- The blocks of what documents are written as describe these documents. -/
theorem map_document?_written {documents : List Document} (writable : ∀ d ∈ documents, d.Writable) (k : Nat) :
    (blocks ((documents.flatMap Document.written ++ [""]).zipIdx k)).map Block.document? = documents.map some := by
  induction documents generalizing k with
  | nil => rfl
  | cons d documents ih =>
    obtain ⟨own, others⟩ := List.forall_mem_cons.1 writable
    have blank : ∀ l ∈ (documents.flatMap Document.written ++ [""]).takeWhile continues, isBlankLine l = true := by
      intro l hl
      rw [takeWhile_written documents l hl]
      rfl
    rw [List.flatMap_cons, List.append_assoc, map_document?_blocks_append blank d.written k k,
      own.map_document?_blocks_written, ih others]
    rfl

/-- **A collection is read back.** Documents with ascending ids that can be written are what the text that they are
written as is read as: no line of a title, of authors or of a body is lost or moved. -/
theorem readCollection_writeCollection {documents : List Document} (writable : ∀ d ∈ documents, d.Writable)
    (ascending : (documents.map Document.id).Pairwise (· < ·)) :
    readCollection (writeCollection documents) = .ok documents := by
  have whole : ∀ l ∈ documents.flatMap Document.written, '\n' ∉ l.toList := by
    intro l hl
    obtain ⟨d, hd, hl⟩ := List.mem_flatMap.1 hl
    exact (writable d hd).newline_notMem_written l hl
  have read : lines (writeCollection documents) = documents.flatMap Document.written ++ [""] := lines_join whole
  rw [readCollection_ok_iff, numberedLines, read]
  refine ⟨fun l hl => ?_, map_document?_written writable 1, ascending⟩
  rw [takeWhile_written documents l hl]
  rfl

/-- Titles and bodies may be empty, and bodies may have blank lines and lines that only look like markers. -/
theorem readCollection_writeCollection_of_plain :
    let documents : List Document := [⟨0, "", "", []⟩, ⟨17, "a\tb", ".Tc", ["", ".W a", " .T", "", "I.\r"]⟩]
    (∀ d ∈ documents, d.Writable) ∧ (documents.map Document.id).Pairwise (· < ·) ∧
      readCollection (writeCollection documents) = .ok documents := by
  intro documents
  have writable : ∀ d ∈ documents, d.Writable := by
    refine List.forall_mem_cons.2 ⟨?_, List.forall_mem_cons.2 ⟨?_, by simp⟩⟩
    · exact ⟨by decide, by decide +kernel, by decide, by decide, by decide, by decide⟩
    · exact ⟨by decide, by decide +kernel, by decide, by decide, by decide, by decide⟩
  have ascending : (documents.map Document.id).Pairwise (· < ·) := by decide
  exact ⟨writable, ascending, readCollection_writeCollection writable ascending⟩

end Retrieval.Corpus
