import Retrieval.Proofs.Index.Built
import Retrieval.Proofs.Steps
import Retrieval.Workspace

/-!
# Indexes of documents

An index is built by adding the terms of each document to an accumulator, so it is the index of an accumulator that
holds just these documents (`contents_of_build`), and documents in ascending order always have one
(`buildIndex_of_ascending`).
-/

set_option autoImplicit false

namespace Retrieval
open Json (Value)

/-- A document with its terms, as it is added to an accumulator. -/
def Source.addition (normalizer : Normalizer) (d : Source) : Addition :=
  ⟨d.id, normalizer.termsOfLines d.lines, d.metadata⟩

variable {α : Type} [Scoring α]

theorem buildIndex_eq (mode : AggregateMode) (normalizer : Normalizer) (documents : List Source) :
    buildIndex (α := α) mode normalizer documents =
      (Accumulator.addAll mode (documents.map (Source.addition normalizer))).map
        (·.index (some (storedWords normalizer))) := by
  rw [buildIndex, Accumulator.addAll, List.foldlM_map]
  rfl

/-- The index of documents in ascending order is taken from an accumulator that holds them. -/
theorem buildIndex_of_ascending (mode : AggregateMode) (normalizer : Normalizer) {documents : List Source}
    (h : (documents.map Source.id).Pairwise (· < ·)) :
    ∃ acc : Accumulator α, buildIndex mode normalizer documents = .ok (acc.index (some (storedWords normalizer))) ∧
      acc.mode = mode ∧ acc.Contents (documents.map (Source.addition normalizer)) := by
  have asc : ((documents.map (Source.addition normalizer)).map Addition.doc).Pairwise (· < ·) := by
    rw [List.map_map]
    exact h
  obtain ⟨acc, added, hmode, contents⟩ := Accumulator.addAll_of_ascending (α := α) mode asc
  exact ⟨acc, by rw [buildIndex_eq, added]; rfl, hmode, contents⟩

/-- An index that is built is taken from an accumulator to which the documents have been added. -/
theorem addAll_of_build {mode : AggregateMode} {normalizer : Normalizer} {workers : Value} {documents : List Source}
    {ix : Index α} (h : buildIndexWith mode normalizer workers documents = .ok ix) :
    ∃ acc : Accumulator α, Accumulator.addAll mode (documents.map (Source.addition normalizer)) = .ok acc ∧
      ix = acc.index (some (storedWords normalizer)) := by
  unfold buildIndexWith at h
  split at h
  · rw [mapError_eq_ok_iff, buildIndex_eq] at h
    cases added : Accumulator.addAll (α := α) mode (documents.map (Source.addition normalizer)) with
    | error e =>
      rw [added] at h
      cases h
    | ok acc =>
      rw [added] at h
      cases h
      exact ⟨acc, rfl, rfl⟩
  · cases h

/-- An index that is built is taken from an accumulator that holds the documents. -/
theorem contents_of_build {mode : AggregateMode} {normalizer : Normalizer} {workers : Value} {documents : List Source}
    {ix : Index α} (h : buildIndexWith mode normalizer workers documents = .ok ix) :
    ∃ acc : Accumulator α, ix = acc.index (some (storedWords normalizer)) ∧ acc.mode = mode ∧
      acc.Contents (documents.map (Source.addition normalizer)) := by
  obtain ⟨acc, added, rfl⟩ := addAll_of_build h
  obtain ⟨contents, hmode, -⟩ := Accumulator.contents_run (α := α) mode (documents.map (Source.addition normalizer))
  rw [Accumulator.run_of_addAll added] at contents hmode
  exact ⟨acc, rfl, hmode, contents⟩

end Retrieval
