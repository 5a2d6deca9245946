import Retrieval.Corpus.Judgments
import Retrieval.Proofs.Corpus.Documents

/-!
# What the readers accept, and where they fail

A collection is refused at its first defective line (`readCollection_first_defect`). The readers of collections and
query files have one error besides those of format: the id of a `.I` line that consists of digit characters and is no
integer, if no line before it is at fault; the reader of judgments has none (`readers_integer_error_iff`).
-/

set_option autoImplicit false

namespace Retrieval.Corpus
open Retrieval.Text

/-! ### Collections -/

theorem addDocument_error {documents : List Document} {r : Record} {e : ReadError}
    (h : addDocument documents r = .error e) : ∃ cause, e = formatError cause r.line := by
  unfold addDocument at h
  split at h
  · cases h
    exact ⟨_, rfl⟩
  · cases h
  · split at h
    · cases h
      exact ⟨_, rfl⟩
    · cases h

/-- The documents so far, last first, are those of the blocks, in ascending order of their ids. -/
theorem documents_of_blocks {bs : List Block} {documents : List Document}
    (h : bs.foldlM (Block.handOver addDocument) [] = .ok documents) :
    documents.reverse.map (fun d => some d.id) = bs.map (recordId? ·.head) ∧
      (documents.reverse.map Document.id).Pairwise (· < ·) := by
  obtain ⟨described, ascending⟩ := foldlM_addDocument_nil_ok_iff.1 h
  have begins : ∀ b ∈ bs, recordId? b.head = b.document?.map Document.id := by
    intro b hb
    have mem : b.document? ∈ documents.reverse.map some := described ▸ List.mem_map_of_mem hb
    obtain ⟨d, -, hd⟩ := List.mem_map.1 mem
    rw [← hd, (Block.document?_eq_some_iff.1 hd.symm).1]
    rfl
  have heads := congrArg (List.map (Option.map Document.id)) described
  rw [List.map_map, List.map_map] at heads
  refine ⟨?_, ascending⟩
  rw [List.map_congr_left begins]
  exact heads.symm

/-- The last document comes from the last block. -/
theorem head?_of_blocks {bs : List Block} {documents : List Document}
    (h : bs.foldlM (Block.handOver addDocument) [] = .ok documents) :
    documents.head?.map (fun d => some d.id) = bs.getLast?.map (recordId? ·.head) := by
  rw [← List.getLast?_map, ← (documents_of_blocks h).1, List.map_reverse, List.getLast?_reverse, List.head?_map]

/-- Documents are taken from records with a body whose ids ascend. -/
theorem judges_addDocument : Judges addDocument [] true where
  accepts := by
    intro earlier documents b r fold read sound
    have own := (Block.of_record_ok read).1
    obtain ⟨body, hbody⟩ := Option.isSome_iff_exists.1 ((Block.isSome_field?_iff read).2 sound.1)
    refine ⟨_, addDocument_ok_iff.2 ⟨body, hbody, fun last hlast => ?_, rfl⟩⟩
    have heads := head?_of_blocks fold
    rw [hlast, Option.map_some] at heads
    obtain ⟨previous, hprevious, hid⟩ := Option.map_eq_some_iff.1 heads.symm
    exact sound.2 rfl previous _ _ hprevious hid own
  refuses := by
    intro earlier documents b r fold read unsound
    obtain ⟨own, number, -⟩ := Block.of_record_ok read
    cases taken : addDocument documents r with
    | error e =>
      obtain ⟨cause, rfl⟩ := addDocument_error taken
      exact ⟨cause, by rw [number]⟩
    | ok documents' =>
      obtain ⟨body, hbody, later, -⟩ := addDocument_ok_iff.1 taken
      have marked := (Block.isSome_field?_iff read).1 (by rw [hbody]; rfl)
      refine absurd ⟨marked, fun _ previous m n hprevious hm hn => ?_⟩ unsound
      have heads := head?_of_blocks fold
      rw [hprevious, Option.map_some, hm] at heads
      obtain ⟨last, hlast, hid⟩ := Option.map_eq_some_iff.1 heads
      have := later last hlast
      rw [own] at hn
      cases hid
      cases hn
      exact this

/-- **A collection is refused at its first defective line.** What is read has no defective line and one document for
each `.I` line, in order and with ascending ids. An error of format carries the number of the first defective line,
though a record is checked only when its last line has been read; and where an id of digit characters is no integer,
no line before it is defective. -/
theorem readCollection_first_defect (text : String) :
    match readCollection text with
    | .ok documents =>
      (∀ n, ¬ AtLine (Defect true) text n) ∧
        documents.map (fun d => some d.id) = ((lines text).filter startsRecord).map recordId? ∧
        (documents.map Document.id).Pairwise (· < ·)
    | .error (.format e) =>
      ∃ n, e.line = some n ∧ AtLine (Defect true) text n ∧ ∀ m < n, ¬ AtLine (Defect true) text m
    | .error (.integer _) => ∃ n, AtLine Unreadable text n ∧ ∀ m < n, ¬ AtLine (Defect true) text m := by
  unfold readCollection
  cases read : readRecords addDocument [] text with
  | ok documents =>
    obtain ⟨fold, clean⟩ := judges_addDocument.clean read
    obtain ⟨ids, ascending⟩ := documents_of_blocks fold
    refine ⟨fun n => (clean n).1, ?_, ascending⟩
    rw [ids, ← map_head_blocks (lines text) 1, List.map_map]
    rfl
  | error e =>
    obtain ⟨n, clean, ⟨⟨cause, rfl⟩, defect, -⟩ | ⟨⟨i, rfl⟩, bad⟩⟩ := judges_addDocument.halts read
    · exact ⟨n, rfl, defect, fun m lt => (clean m lt).1⟩
    · exact ⟨n, bad, fun m lt => (clean m lt).1⟩

/-! ### Errors beside those of format -/

/-- Queries are taken from records with a body. -/
theorem judges_addQuery : Judges addQuery [] false where
  accepts := by
    intro earlier queries b r fold read sound
    obtain ⟨body, hbody⟩ := Option.isSome_iff_exists.1 ((Block.isSome_field?_iff read).2 sound.1)
    rw [addQuery, hbody]
    exact ⟨_, rfl⟩
  refuses := by
    intro earlier queries b r fold read unsound
    obtain ⟨-, number, -⟩ := Block.of_record_ok read
    rw [addQuery, ← number]
    cases hbody : r.field? .body with
    | none => exact ⟨_, rfl⟩
    | some body => exact absurd ⟨(Block.isSome_field?_iff read).1 (by rw [hbody]; rfl), by rintro ⟨⟩⟩ unsound

/-- Reading records ends with an id that is no integer exactly if the first line at fault has one. -/
theorem Judges.integer_error_iff {σ : Type} {finish : σ → Record → Except ReadError σ} {start : σ} {ordered : Bool}
    (judges : Judges finish start ordered) (text : String) :
    (∃ i, readRecords finish start text = .error (.integer i)) ↔
      ∃ n, AtLine Unreadable text n ∧ ∀ m < n, ¬ AtLine (Defect ordered) text m ∧ ¬ AtLine Unreadable text m := by
  constructor
  · rintro ⟨i, h⟩
    obtain ⟨n, clean, ⟨⟨cause, e⟩, -⟩ | ⟨-, bad⟩⟩ := judges.halts h
    · cases e
    · exact ⟨n, bad, clean⟩
  · rintro ⟨n, bad, clean⟩
    cases h : readRecords finish start text with
    | ok done => exact absurd bad ((judges.clean h).2 n).2
    | error e =>
      obtain ⟨k, before, ⟨-, defect, readable⟩ | ⟨⟨i, rfl⟩, -⟩⟩ := judges.halts h
      · rcases Nat.lt_trichotomy k n with lt | rfl | lt
        · exact absurd defect (clean k lt).1
        · exact absurd bad readable
        · exact absurd bad (before n lt).2
      · exact ⟨i, rfl⟩

/-- A file of judgments is refused with an error of format. -/
theorem readJudgments_error {text : String} {e : ReadError} (h : readJudgments text = .error e) :
    ∃ cause number, e = formatError cause number := by
  obtain ⟨-, ⟨line, number⟩, -, judgments, -, -, failed⟩ := exists_of_foldlM_error h
  simp only [addLine] at failed
  split at failed
  · cases failed
  · split at failed
    · cases failed
    · cases failed
      exact ⟨_, number, rfl⟩

/-- **The one error that is none of format.** The reader of judgments has none but errors of format. Those of
collections and query files have one more: the first line at fault is a `.I` line whose id consists of digit
characters, of which one stands for no decimal digit, or which are too many. -/
theorem readers_integer_error_iff (text : String) :
    (∀ i, readJudgments text ≠ .error (.integer i)) ∧
    ((∃ i, readCollection text = .error (.integer i)) ↔
      ∃ n, AtLine Unreadable text n ∧ ∀ m < n, ¬ AtLine (Defect true) text m ∧ ¬ AtLine Unreadable text m) ∧
    ((∃ i, readQueries text = .error (.integer i)) ↔
      ∃ n, AtLine Unreadable text n ∧ ∀ m < n, ¬ AtLine (Defect false) text m ∧ ¬ AtLine Unreadable text m) := by
  refine ⟨fun i h => ?_, ?_, ?_⟩
  · obtain ⟨cause, number, e⟩ := readJudgments_error h
    cases e
  · rw [← judges_addDocument.integer_error_iff text]
    simp only [readCollection, map_eq_error_iff]
  · rw [← judges_addQuery.integer_error_iff text]
    simp only [readQueries, map_eq_error_iff]

/-- A superscript is a digit character and no decimal digit. -/
theorem readCollection_superscript :
    readCollection ".I ²\n.W\n" = .error (.integer (.malformed "²")) := by
  cbv

end Retrieval.Corpus
