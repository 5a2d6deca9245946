import Mathlib.Data.List.Chain
import Mathlib.Data.List.DropRight
import Retrieval.Corpus.Collection
import Retrieval.Proofs.Corpus.Defects

/-!
# What documents are made of

The document that a block describes is told from its lines alone (`Block.document?`), and blank lines at its end change
nothing of it, in whichever field they come (`Block.document?_append_blanks`). So lines that are followed by others, with
blank lines at most before the first record of these, describe the documents of either (`map_document?_blocks_append`).
A collection is read exactly if only blank lines come before its first `.I` line, every block describes a document, and
the ids ascend (`readCollection_ok_iff`).
-/

set_option autoImplicit false

namespace Retrieval

/-- What satisfies the predicate at the end of a list goes with it. -/
theorem Text.rdropWhile_append {α : Type} {p : α → Bool} {xs ys : List α} (h : ∀ y ∈ ys, p y = true) :
    (xs ++ ys).rdropWhile p = xs.rdropWhile p := by
  rw [List.rdropWhile, List.reverse_append, List.dropWhile_append_of_pos (by simpa using h)]
  rfl

namespace Corpus
open Text

/-- The document that a block describes, if it has an id and a body. -/
def Block.document? (b : Block) : Option Document := do
  let id ← recordId? b.head
  let body ← fieldLines? .body b.tail
  let oneLine m := joinLines ((fieldLines? m b.tail).getD [])
  return ⟨id, oneLine .title, oneLine .authors, withoutTrailingBlanks body⟩

/-- A record becomes a document if it has a body and a greater id than the last document. -/
theorem addDocument_ok_iff {documents documents' : List Document} {r : Record} :
    addDocument documents r = .ok documents' ↔
      ∃ body, r.field? .body = some body ∧ (∀ last ∈ documents.head?, last.id < r.id) ∧
        documents' = .ofRecord r body :: documents := by
  unfold addDocument
  cases r.field? .body with
  | none => simp
  | some body =>
    cases documents with
    | nil => simp [eq_comm]
    | cons last documents =>
      by_cases le : r.id ≤ last.id
      · simp [le, Int.not_lt.2 le]
      · simp [le, Int.not_le.1 le, eq_comm]

theorem Block.document?_eq_some_iff {b : Block} {d : Document} :
    b.document? = some d ↔ recordId? b.head = some d.id ∧
      d.title = joinLines ((fieldLines? .title b.tail).getD []) ∧
      d.authors = joinLines ((fieldLines? .authors b.tail).getD []) ∧
      ∃ body, fieldLines? .body b.tail = some body ∧ d.lines = withoutTrailingBlanks body := by
  obtain ⟨id, title, authors, lines⟩ := d
  rw [document?]
  constructor
  · intro described
    obtain ⟨n, own, described⟩ := Option.bind_eq_some_iff.1 described
    obtain ⟨body, holds, described⟩ := Option.bind_eq_some_iff.1 described
    cases described
    exact ⟨own, rfl, rfl, body, holds, rfl⟩
  · rintro ⟨own, rfl, rfl, body, holds, rfl⟩
    rw [own, holds]
    rfl

/-! ### Blank lines at the end of a record -/

section Blanks

variable {blanks : List String} (blank : ∀ l ∈ blanks, isBlankLine l = true)
include blank

/-- Blank lines after the lines of a record can only make a field of it longer. -/
theorem exists_fieldLines?_append (m : Marker) (ls : List String) :
    ∃ more ⊆ blanks, fieldLines? m (ls ++ blanks) = (fieldLines? m ls).map (· ++ more) := by
  induction ls with
  | nil =>
    refine ⟨[], List.nil_subset _, fieldLines?_eq_none_iff.2 fun l mem marks => ?_⟩
    have text := isBlankLine_of_ofLine? marks
    rw [blank l mem] at text
    cases text
  | cons l ls ih =>
    obtain ⟨more, sub, rest⟩ := ih
    rw [List.cons_append, fieldLines?, fieldLines?, rest]
    cases held : fieldLines? m ls with
    | some held => exact ⟨more, sub, rfl⟩
    | none =>
      obtain ⟨more, goesOn, sub⟩ := exists_takeWhile_append unmarked ls blanks
      refine ⟨more, List.Subset.trans sub (List.takeWhile_subset _), ?_⟩
      rw [goesOn]
      split <;> rfl

theorem joinLines_append_blanks (ls : List String) : joinLines (ls ++ blanks) = joinLines ls := by
  have none : blanks.filter (!isBlankLine ·) = [] := List.filter_eq_nil_iff.2 (by simpa using blank)
  rw [joinLines, List.filter_append, none, List.append_nil]
  rfl

theorem withoutTrailingBlanks_append_blanks (ls : List String) :
    withoutTrailingBlanks (ls ++ blanks) = withoutTrailingBlanks ls :=
  rdropWhile_append blank

/-- Blank lines at the end of a record change nothing of its document: they are not seen in title and authors, and the
body loses them. -/
theorem Block.document?_append_blanks (number : Nat) (head : String) (tail : List String) :
    Block.document? ⟨number, head, tail ++ blanks⟩ = Block.document? ⟨number, head, tail⟩ := by
  have oneLine (m : Marker) :
      joinLines ((fieldLines? m (tail ++ blanks)).getD []) = joinLines ((fieldLines? m tail).getD []) := by
    obtain ⟨more, sub, longer⟩ := exists_fieldLines?_append blank m tail
    rw [longer]
    cases fieldLines? m tail with
    | none => rfl
    | some held => exact joinLines_append_blanks (fun l mem => blank l (sub mem)) held
  have body : (fieldLines? .body (tail ++ blanks)).map withoutTrailingBlanks =
      (fieldLines? .body tail).map withoutTrailingBlanks := by
    obtain ⟨more, sub, longer⟩ := exists_fieldLines?_append blank .body tail
    rw [longer, Option.map_map]
    refine Option.map_congr fun held _ => ?_
    exact withoutTrailingBlanks_append_blanks (fun l mem => blank l (sub mem)) held
  refine Option.ext fun d => ?_
  have same : (∃ held, fieldLines? .body (tail ++ blanks) = some held ∧ d.lines = withoutTrailingBlanks held) ↔
      ∃ held, fieldLines? .body tail = some held ∧ d.lines = withoutTrailingBlanks held := by
    simp only [eq_comm (a := d.lines)]
    rw [← Option.map_eq_some_iff, ← Option.map_eq_some_iff, body]
  rw [document?_eq_some_iff, document?_eq_some_iff]
  dsimp only
  rw [oneLine, oneLine, same]

end Blanks

/-! ### Lines one after the other -/

/-- The documents of lines do not depend on the numbers of the lines. -/
theorem map_document?_blocks_zipIdx (ls : List String) (j k : Nat) :
    (blocks (ls.zipIdx j)).map Block.document? = (blocks (ls.zipIdx k)).map Block.document? := by
  induction ls generalizing j k with
  | nil => rfl
  | cons l ls ih =>
    rw [List.zipIdx_cons, List.zipIdx_cons, blocks, blocks]
    split
    · rw [List.map_cons, List.map_cons, ih (j + 1) (k + 1), List.zipIdx_map_fst, List.zipIdx_map_fst]
      rfl
    · exact ih (j + 1) (k + 1)

/-- The documents of lines before others, where only blank lines come before the first record of these, are those of
either. -/
theorem map_document?_blocks_append {rest : List String}
    (blank : ∀ l ∈ rest.takeWhile continues, isBlankLine l = true) (ls : List String) (j k : Nat) :
    (blocks ((ls ++ rest).zipIdx j)).map Block.document? =
      (blocks (ls.zipIdx j)).map Block.document? ++ (blocks (rest.zipIdx k)).map Block.document? := by
  induction ls generalizing j with
  | nil => exact map_document?_blocks_zipIdx rest j k
  | cons l ls ih =>
    rw [List.cons_append, List.zipIdx_cons, List.zipIdx_cons, blocks, blocks]
    split
    · -- The record that `l` begins goes on, if at all, with blank lines of the rest.
      obtain ⟨blanks, goesOn, sub⟩ := exists_takeWhile_append continues ls rest
      rw [List.map_cons, List.map_cons, ih (j + 1), List.zipIdx_map_fst, List.zipIdx_map_fst, goesOn,
        Block.document?_append_blanks fun l mem => blank l (sub mem)]
      rfl
    · exact ih (j + 1)

/-! ### Reading -/

/-- A file that is read record by record, last first, is read exactly if only blank lines come before its first `.I`
line and its blocks are handed over in turn. -/
theorem readRecords_reverse_ok_iff {α : Type} {finish : List α → Record → Except ReadError (List α)} {text : String}
    {results : List α} :
    (readRecords finish [] text).map List.reverse = .ok results ↔
      (∀ l ∈ (lines text).takeWhile continues, isBlankLine l = true) ∧
        (blocks (numberedLines text)).foldlM (Block.handOver finish) [] = .ok results.reverse := by
  have first : stray? (numberedLines text) = none ↔ ∀ l ∈ (lines text).takeWhile continues, isBlankLine l = true := by
    rw [stray?_eq_none_iff, numberedLines, List.zipIdx_map_fst]
  rw [readRecords_eq, ← first]
  cases stray? (numberedLines text) with
  | some l => simp [Except.map]
  | none =>
    constructor
    · intro h
      obtain ⟨done, fold, taken⟩ := exists_of_bind (f := fun done => .ok (List.reverse done)) h
      cases taken
      exact ⟨rfl, by rw [List.reverse_reverse]; exact fold⟩
    · rintro ⟨-, fold⟩
      simp [fold, Except.map]

/-- A block is handed over to a collection exactly if it describes a document with a greater id than the last one. -/
theorem Block.handOver_addDocument_ok_iff {b : Block} {done documents : List Document} :
    b.handOver addDocument done = .ok documents ↔
      ∃ d, b.document? = some d ∧ (∀ last ∈ done.head?, last.id < d.id) ∧ documents = d :: done := by
  rcases b.record_cases with ⟨r, read, own, -, fields⟩ | ⟨digits, cause, failed⟩ | ⟨id, e, digits, unread, failed⟩
  · have described : b.document? = (r.field? .body).map (Document.ofRecord r) := by
      rw [document?, own, ← fields]
      cases r.field? .body with
      | none => rfl
      | some body =>
        simp only [← fields]
        rfl
    rw [handOver, bind_eq read, addDocument_ok_iff, described]
    simp [Option.map_eq_some_iff, Document.ofRecord]
  · have described : b.document? = none := by simp [document?, recordId?, digits]
    rw [handOver, failed, described]
    constructor
    · rintro ⟨⟩
    · rintro ⟨_, ⟨⟩, -⟩
  · have described : b.document? = none := by simp [document?, recordId?, digits, unread, Except.toOption]
    rw [handOver, failed, described]
    constructor
    · rintro ⟨⟩
    · rintro ⟨_, ⟨⟩, -⟩

/-- Blocks are handed over in turn exactly if they describe documents, whose ids ascend from the last one before. -/
theorem foldlM_addDocument_ok_iff {bs : List Block} {done documents : List Document} :
    bs.foldlM (Block.handOver addDocument) done = .ok documents ↔
      ∃ new, bs.map Block.document? = new.map some ∧ documents = new.reverse ++ done ∧
        ((done.head?.toList ++ new).map Document.id).IsChain (· < ·) := by
  induction bs generalizing done with
  | nil =>
    constructor
    · rintro ⟨⟩
      exact ⟨[], rfl, rfl, by cases documents <;> simp⟩
    · rintro ⟨new, none, rfl, -⟩
      obtain rfl : new = [] := by simpa using none
      rfl
  | cons b bs ih =>
    rw [List.foldlM_cons]
    constructor
    · intro h
      obtain ⟨done', first, rest⟩ := exists_of_bind h
      obtain ⟨d, described, later, rfl⟩ := Block.handOver_addDocument_ok_iff.1 first
      obtain ⟨new, others, rfl, ascending⟩ := ih.1 rest
      refine ⟨d :: new, by simp [described, others], by simp, ?_⟩
      cases done with
      | nil => exact ascending
      | cons last done => exact List.isChain_cons_cons.2 ⟨later last rfl, ascending⟩
    · rintro ⟨_ | ⟨d, new⟩, all, rfl, ascending⟩
      · simp at all
      · obtain ⟨described, others⟩ := List.cons.inj all
        have later : ∀ last ∈ done.head?, last.id < d.id := by
          cases done with
          | nil => simp
          | cons last done =>
            rintro _ ⟨⟩
            exact (List.isChain_cons_cons.1 ascending).1
        rw [List.map_append] at ascending
        rw [bind_eq (Block.handOver_addDocument_ok_iff.2 ⟨d, described, later, rfl⟩)]
        exact ih.2 ⟨new, others, by simp, ascending.right_of_append⟩

/-- Where no document comes before them, blocks are handed over exactly if they describe the documents, which are then
in reverse. -/
theorem foldlM_addDocument_nil_ok_iff {bs : List Block} {documents : List Document} :
    bs.foldlM (Block.handOver addDocument) [] = .ok documents ↔
      bs.map Block.document? = documents.reverse.map some ∧ (documents.reverse.map Document.id).Pairwise (· < ·) := by
  rw [foldlM_addDocument_ok_iff, ← List.isChain_iff_pairwise]
  constructor
  · rintro ⟨new, described, rfl, ascending⟩
    rw [List.append_nil, List.reverse_reverse]
    exact ⟨described, ascending⟩
  · rintro ⟨described, ascending⟩
    exact ⟨documents.reverse, described, by simp, ascending⟩

/-- **A collection is read exactly if it describes documents.** Only blank lines come before its first `.I` line, each
of its blocks describes a document, and the ids of these ascend. -/
theorem readCollection_ok_iff {text : String} {documents : List Document} :
    readCollection text = .ok documents ↔
      (∀ l ∈ (lines text).takeWhile continues, isBlankLine l = true) ∧
        (blocks (numberedLines text)).map Block.document? = documents.map some ∧
        (documents.map Document.id).Pairwise (· < ·) := by
  rw [readCollection, readRecords_reverse_ok_iff, foldlM_addDocument_nil_ok_iff, List.reverse_reverse]

end Corpus
end Retrieval
