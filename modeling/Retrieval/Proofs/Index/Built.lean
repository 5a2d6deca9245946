import Retrieval.Proofs.Index.Contents

/-!
# The index of what was added

An index taken from an accumulator shows the documents it holds: all of them in ascending order, and under each term
those in which it occurs. Together with the run of an accumulator this gives the content of an index after any
sequence of documents, in order or not.
-/

set_option autoImplicit false

namespace Retrieval
open Json (Value)

/-- Documents in ascending order stay as they are. -/
theorem ascendingDocs_eq_keys {ν : Type} {t : Table Int ν} (h : t.keys.Pairwise (· < ·)) :
    ascendingDocs t = t.keys :=
  List.mergeSort_of_pairwise (h.imp fun hlt => decide_eq_true (Int.le_of_lt hlt))

namespace Accumulator
open Addition

variable {α : Type} [Scoring α] {acc : Accumulator α} {as : List Addition}

theorem Contents.allDocs_index (h : Contents acc as) (stopWords : Option (List Value)) :
    (acc.index stopWords).allDocs = as.map doc := by
  show ascendingDocs acc.norms = _
  rw [ascendingDocs_eq_keys (by rw [h.docs]; exact h.ascending), h.docs]

theorem Contents.docCount_index (h : Contents acc as) (stopWords : Option (List Value)) :
    (acc.index stopWords).docCount = as.length := by
  show acc.norms.size = _
  rw [Table.size_eq_length_keys, h.docs, List.length_map]

theorem Contents.postings_index (h : Contents acc as) (stopWords : Option (List Value)) (t : String) :
    (acc.index stopWords).postings t = postings as t := by
  show (acc.entries.get? t).elim [] Entry.postings = _
  rw [h.entries, entryOf]
  split
  · exact Eq.symm ‹_›
  · rfl

/-- Under a term stand the documents in which it occurs. -/
theorem Contents.docs_index (h : Contents acc as) (stopWords : Option (List Value)) (t : String) :
    (acc.index stopWords).docs t = (as.filter (t ∈ ·.terms)).map doc := by
  have : (acc.index stopWords).docs t = ((acc.index stopWords).postings t).map Posting.doc := by
    rw [Index.docs, Index.postings]
    cases (acc.index stopWords).entries.get? t <;> rfl
  rw [this, h.postings_index, Addition.postings, List.map_map]
  rfl

theorem Contents.mem_terms_index (h : Contents acc as) (stopWords : Option (List Value)) (t : String) :
    t ∈ (acc.index stopWords).terms ↔ ∃ a ∈ as, t ∈ a.terms := by
  show t ∈ acc.entries.keys ↔ _
  rw [← Table.get?_isSome_iff, h.entries, entryOf]
  split
  · rename_i hp
    simpa using postings_eq_nil_iff.1 hp
  · rename_i hp
    simpa using mt postings_eq_nil_iff.2 hp

/-- **Index content over whole runs.** Whatever documents are offered, one is accepted exactly if its id is greater
than those of all accepted before, and the run goes on as if any other had not been offered; the accumulator is the
one to which only the accepted documents have been added; and its tables, and the index taken from it, hold the
accepted documents and nothing else. -/
theorem content_of_run (mode : AggregateMode) (as : List Addition) (stopWords : Option (List Value)) :
    let acc : Accumulator α := (run mode as).1
    let accepted := (run (α := α) mode as).2
    let ix := acc.index stopWords
    -- which documents are accepted, in a run that goes on with one more, and what is left of the others
    (∀ a : Addition, (∃ acc', acc.add a.doc a.terms a.metadata = .ok acc') ↔ ∀ b ∈ accepted, b.doc < a.doc) ∧
    run (α := α) mode [] = ({ mode }, []) ∧
    (∀ a : Addition, (∀ b ∈ accepted, b.doc < a.doc) →
      ∃ acc', acc.add a.doc a.terms a.metadata = .ok acc' ∧ run mode (as ++ [a]) = (acc', accepted ++ [a])) ∧
    (∀ a : Addition, (∃ b ∈ accepted, a.doc ≤ b.doc) → run mode (as ++ [a]) = (acc, accepted)) ∧
    addAll mode accepted = .ok acc ∧ run mode accepted = (acc, accepted) ∧
    -- the terms with their postings and aggregates
    (∀ t, t ∈ acc.entries.keys ↔ ∃ a ∈ accepted, t ∈ a.terms) ∧
    (∀ t e, acc.entries.get? t = some e →
      e.postings = (accepted.filter (t ∈ ·.terms)).map (fun a => ⟨a.doc, (a.terms.count t : Nat)⟩) ∧
      (e.postings.map Posting.doc).Pairwise (· < ·) ∧ (∀ p ∈ e.postings, 1 ≤ p.tf) ∧
      e.aggregate = match mode with
        | .occurrences => (e.postings.map Posting.tf).sum
        | .documents => e.postings.length) ∧
    -- the documents, with or without terms
    acc.norms.keys = accepted.map Addition.doc ∧ (accepted.map Addition.doc).Pairwise (· < ·) ∧
    ix.allDocs = accepted.map Addition.doc ∧ ix.docCount = accepted.length ∧
    -- what is known of them
    acc.metadata.keys = (accepted.filter (·.metadata.isSome)).map Addition.doc ∧
    (∀ a ∈ accepted, acc.metadata.get? a.doc = a.metadata) ∧
    acc.last = accepted.getLast?.map Addition.doc := by
  intro acc accepted ix
  obtain ⟨contents, hmode, alone⟩ := contents_run (α := α) mode as
  refine ⟨fun a => ?_, rfl, fun a hlater => ?_, fun a hlater => ?_, alone, run_of_addAll alone,
    contents.mem_terms_index stopWords, fun t e he => ?_, contents.docs, contents.ascending,
    contents.allDocs_index stopWords, contents.docCount_index stopWords, contents.described, contents.metadata,
    contents.last⟩
  · rw [← later_iff]
    constructor
    · rintro ⟨acc', added⟩
      by_contra hlater
      obtain ⟨e, refused⟩ := contents.add_refused (by simpa using hlater)
      rw [refused] at added
      cases added
    · intro hlater
      obtain ⟨acc', added, -⟩ := contents.add hlater
      exact ⟨acc', added⟩
  · obtain ⟨acc', added, taken, -⟩ := contents.offer_later (later_iff.2 hlater)
    exact ⟨acc', added, (run_append mode as a).trans taken⟩
  · have refused : later accepted a.doc = false := by
      simpa [later] using hlater
    exact (run_append mode as a).trans (contents.offer_refused refused)
  · rw [contents.entries, hmode, entryOf] at he
    split at he
    · cases he
    · cases he
      exact ⟨rfl, ascending_postings contents.ascending t, fun p => one_le_tf, by cases mode <;> rfl⟩

end Accumulator
end Retrieval
