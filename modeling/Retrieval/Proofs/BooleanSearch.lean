import Mathlib
import Retrieval.Proofs.Index.Documents
import Retrieval.Proofs.Query.Denotation
import Retrieval.Searcher

/-!
# Boolean search is exact

Whatever documents an index is built from, in ascending order of their ids, a boolean query is answered with the
documents of which it is true, where a word is true of a document if its stem is one of the document's terms.
-/

set_option autoImplicit false

namespace Retrieval
open Json (Value)

/-- A searcher whose index holds documents in ascending order answers a query with those of which it is true. -/
theorem Searcher.mem_matching {α : Type} [Scoring α] {acc : Accumulator α} {as : List Addition}
    (h : acc.Contents as) {s : Searcher α} {stopWords : Option (List Value)} (hs : s.index = acc.index stopWords)
    (q : Query) (id : Int) :
    id ∈ s.matching q ↔ ∃ a ∈ as, a.doc = id ∧ q.Holds fun name => s.normalizer.stem name ∈ a.terms := by
  have hall : s.index.allDocs = as.map Addition.doc := hs ▸ h.allDocs_index stopWords
  have hdocs : ∀ t, s.index.docs t = (as.filter (t ∈ ·.terms)).map Addition.doc := fun t =>
    hs ▸ h.docs_index stopWords t
  have sub : ∀ t, (s.index.docs t).Sublist s.index.allDocs := fun t => by
    rw [hdocs, hall]
    exact List.filter_sublist.map _
  have asc : s.index.allDocs.Pairwise (· < ·) := hall ▸ h.ascending
  -- an id stands for one document only, so its terms are those of that document
  have unique : ∀ a ∈ as, ∀ b ∈ as, a.doc = b.doc → a = b := fun a ha b hb e =>
    List.inj_on_of_nodup_map (h.ascending.imp Int.ne_of_lt) ha hb e
  rw [matching, Query.mem_eval (fun _ => asc.sublist (sub _)) asc,
    Query.denotes_iff_holds fun _ _ hd => (sub _).mem hd]
  have of_doc : ∀ a ∈ as, ∀ name, a.doc ∈ s.index.docs (s.normalizer.stem name) ↔ s.normalizer.stem name ∈ a.terms := by
    intro a ha name
    rw [hdocs, List.mem_map]
    constructor
    · rintro ⟨b, hb, e⟩
      obtain ⟨hb, ht⟩ := List.mem_filter.1 hb
      rw [← unique b hb a ha e]
      simpa using ht
    · intro ht
      exact ⟨a, List.mem_filter.2 ⟨ha, by simpa using ht⟩, rfl⟩
  constructor
  · rintro ⟨hid, hq⟩
    rw [hall] at hid
    obtain ⟨a, ha, rfl⟩ := List.mem_map.1 hid
    exact ⟨a, ha, rfl, (Query.holds_congr (of_doc a ha) q).1 hq⟩
  · rintro ⟨a, ha, rfl, hq⟩
    exact ⟨hall ▸ List.mem_map_of_mem ha, (Query.holds_congr (of_doc a ha) q).2 hq⟩

theorem Searcher.ascending_matching {α : Type} [Scoring α] {acc : Accumulator α} {as : List Addition}
    (h : acc.Contents as) {s : Searcher α} {stopWords : Option (List Value)} (hs : s.index = acc.index stopWords)
    (q : Query) : (s.matching q).Pairwise (· < ·) := by
  have hall : s.index.allDocs = as.map Addition.doc := hs ▸ h.allDocs_index stopWords
  have asc : s.index.allDocs.Pairwise (· < ·) := hall ▸ h.ascending
  refine Query.ascending_eval (fun name => ?_) asc q
  rw [hs, h.docs_index]
  exact h.ascending.sublist (List.filter_sublist.map _)

/-- **Boolean search is exact end to end.** An index is built from any documents in ascending order, and a query that
is parsed is answered with the ids of the documents of which it is true, in ascending order. -/
theorem boolean_exact {α : Type} [Scoring α] (mode : AggregateMode) (words : List String) (stem : String → String)
    (workers : Value) (documents : List Source) (query : String) (tree : Query) (number : workers.isNumber = true)
    (ascending : (documents.map Source.id).Pairwise (· < ·)) (parsed : (Query.parse query).result = .ok tree) :
    let normalizer := Normalizer.ofWords words stem
    ∃ ix : Index α, buildIndexWith mode normalizer workers documents = .ok ix ∧
      ∀ s : Searcher α, s.index = ix → s.normalizer = normalizer →
        ∃ ids, s.boolean query = .ok ids ∧ ids.Pairwise (· < ·) ∧
          ∀ id, id ∈ ids ↔
            ∃ d ∈ documents, d.id = id ∧ tree.Holds fun w => stem w ∈ normalizer.termsOfLines d.lines := by
  intro normalizer
  obtain ⟨acc, built, -, contents⟩ := buildIndex_of_ascending (α := α) mode normalizer ascending
  refine ⟨_, by rw [buildIndexWith, if_pos number, built]; rfl, fun s hix hnorm => ?_⟩
  refine ⟨s.matching tree, by rw [Searcher.boolean, parsed]; rfl, Searcher.ascending_matching contents hix tree,
    fun id => ?_⟩
  rw [Searcher.mem_matching contents hix, hnorm]
  simp only [List.mem_map, Source.addition, exists_exists_and_eq_and]
  exact Iff.rfl

/-- A document without terms is found by a negation. -/
theorem boolean_exact_of_negation :
    let documents : List Source := [⟨1, ["cab ab"], none⟩, ⟨4, ["a"], none⟩]
    let normalizer := Normalizer.ofWords ["the"] id
    (Query.parse "NOT ab").result = .ok (.not (.term "ab")) ∧ (documents.map Source.id).Pairwise (· < ·) ∧
    ∃ ix : Index Float, buildIndexWith .documents normalizer (.integer 2) documents = .ok ix ∧
      ∀ s : Searcher Float, s.index = ix → s.normalizer = normalizer →
        ∃ ids, s.boolean "NOT ab" = .ok ids ∧ ids.Pairwise (· < ·) ∧
          ∀ id, id ∈ ids ↔
            ∃ d ∈ documents, d.id = id ∧
              (Query.not (.term "ab")).Holds fun w => w ∈ normalizer.termsOfLines d.lines := by
  intro documents normalizer
  have parsed : (Query.parse "NOT ab").result = .ok (.not (.term "ab")) := by cbv
  have ascending : (documents.map Source.id).Pairwise (· < ·) := by decide
  exact ⟨parsed, ascending, boolean_exact .documents ["the"] id (.integer 2) documents "NOT ab" _ rfl ascending parsed⟩

end Retrieval
