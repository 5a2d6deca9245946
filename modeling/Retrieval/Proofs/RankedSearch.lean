import Mathlib
import Retrieval.Proofs.ExactArithmetic
import Retrieval.Proofs.Index.Documents
import Retrieval.Proofs.Persistence
import Retrieval.Proofs.Ranking
import Retrieval.Searcher

/-!
# Ranked search is safe and complete

Whatever documents an index is built from, in ascending order of their ids, a ranked query is answered without an
error, with each document at most once. The documents are those that share a term with the query, as far as the weights
of the terms do not vanish; in exact arithmetic none does (`weighs_exactly`).
-/

set_option autoImplicit false

namespace Retrieval
open Json (Value)

variable {α : Type} [Scoring α]

/-- What a ranked query of an index is answered with, which holds documents in ascending order. -/
theorem Searcher.rankQuery_of_contents {acc : Accumulator α} {as : List Addition} (h : acc.Contents as)
    (ordered : Scoring.Ordered α as.length) {s : Searcher α} {stopWords : Option (List Value)}
    (hs : s.index = acc.index stopWords) (query : String) :
    ∃ hits, s.rankQuery query = .ok hits ∧ (hits.map Hit.doc).Nodup ∧
      (∀ id ∈ hits.map Hit.doc, ∃ a ∈ as, a.doc = id ∧ ∃ t ∈ s.normalizer.terms query, t ∈ a.terms) ∧
      ((∀ t ∈ s.normalizer.terms query, Ranking.Weighs s.index t) →
        ∀ a ∈ as, (∃ t ∈ s.normalizer.terms query, t ∈ a.terms) → a.doc ∈ hits.map Hit.doc) := by
  have rankable : s.index.Rankable := hs ▸ h.rankable ordered stopWords
  have small : s.index.docCount ≤ as.length := by rw [hs, h.docCount_index]
  have docs (t : String) : s.index.docs t = (as.filter (t ∈ ·.terms)).map Addition.doc := hs ▸ h.docs_index stopWords t
  have posted {a : Addition} (ha : a ∈ as) {t : String} (occurs : t ∈ a.terms) : a.doc ∈ s.index.docs t := by
    rw [docs]
    exact List.mem_map_of_mem (List.mem_filter.2 ⟨ha, decide_eq_true occurs⟩)
  obtain ⟨tally, hits, -, tallied, ranked, listed⟩ :=
    Ranking.exists_rankIndex ordered rankable small (s.normalizer.terms query)
  refine ⟨hits, ranked, ?_⟩
  split at listed
  · rename_i vanishes
    subst listed
    refine ⟨List.nodup_nil, by simp, fun weighs a ha ⟨t, ht, occurs⟩ => ?_⟩
    -- the weight of the term that is shared keeps the sum from vanishing
    obtain ⟨e, found, -⟩ := Index.exists_entry (posted ha occurs)
    have total := tallied.pos t ht (by rw [found]; rfl) (weighs t ht)
    rw [(ordered.of_pos (ordered.sqrt_pos total)).2] at vanishes
    cases vanishes
  · refine ⟨listed.nodup_iff.2 tally.scores.nodup, fun id listed' => ?_, fun _ a ha ⟨t, ht, occurs⟩ => ?_⟩
    · obtain ⟨t, ht, posted⟩ := (tallied.keys id).1 (listed.mem_iff.1 listed')
      rw [docs] at posted
      obtain ⟨a, ha, rfl⟩ := List.mem_map.1 posted
      obtain ⟨ha, occurs⟩ := List.mem_filter.1 ha
      exact ⟨a, ha, rfl, t, ht, of_decide_eq_true occurs⟩
    · exact listed.mem_iff.2 ((tallied.keys _).2 ⟨t, ht, posted ha occurs⟩)

/-- In exact arithmetic, no term weighs nothing in a corpus that has documents. -/
theorem weighs_exactly {ix : Index ℝ} (rankable : ix.Rankable) (some : 0 < ix.docCount) (t : String) :
    Ranking.Weighs ix t :=
  fun e found _ weight => Exact.corpusWeight_ne_zero some (rankable.aggregate t e found) weight

/-- **Ranked search is safe and complete.** An index is built from any documents in ascending order, and is loaded
again as it was stored. Every query is answered: wherever ranking takes a logarithm or divides, it meets a positive
number. No document is listed twice, and none that shares no term with the query; and where no term of the query weighs
nothing, every document that shares a term with it is listed. -/
theorem ranked_exact (mode : AggregateMode) (words : List String) (stem : String → String) (workers : Value)
    (documents : List Source) (query : String) (number : workers.isNumber = true)
    (ascending : (documents.map Source.id).Pairwise (· < ·)) (ordered : Scoring.Ordered α documents.length) :
    let normalizer := Normalizer.ofWords words stem
    let terms := normalizer.terms query
    let shares (d : Source) : Prop := ∃ t ∈ terms, t ∈ normalizer.termsOfLines d.lines
    (∃ ix : Index α, buildIndexWith mode normalizer workers documents = .ok ix ∧ Ranking.Safe ix terms ∧
      ∀ s : Searcher α, s.index = ix → s.normalizer = normalizer →
        ∃ hits, s.rankQuery query = .ok hits ∧ (hits.map Hit.doc).Nodup ∧
          ((∀ t ∈ terms, Ranking.Weighs ix t) →
            ∀ id, id ∈ hits.map Hit.doc ↔ ∃ d ∈ documents, d.id = id ∧ shares d) ∧
          ((∀ d ∈ documents, ¬ shares d) → hits = [])) ∧
    ∀ (stored : Index Float) (c : Compression), buildIndexWith mode normalizer workers documents = .ok stored →
      (∀ d ∈ documents, ∀ m ∈ d.metadata, m.Textual) → stored.Short → Index.load (stored.save c) = .ok stored := by
  intro normalizer terms shares
  constructor
  · obtain ⟨acc, built, -, contents⟩ := buildIndex_of_ascending (α := α) mode normalizer ascending
    have length : (documents.map (Source.addition normalizer)).length = documents.length := List.length_map _
    rw [← length] at ordered
    refine ⟨_, by rw [buildIndexWith, if_pos number, built]; rfl, ?_, fun s hix hnorm => ?_⟩
    · exact Ranking.safe_of_rankable ordered (contents.rankable ordered _) (contents.docCount_index _).le terms
    obtain ⟨hits, ranked, nodup, sound, complete⟩ := Searcher.rankQuery_of_contents contents ordered hix query
    rw [hnorm] at sound complete
    rw [hix] at complete
    have sound : ∀ id ∈ hits.map Hit.doc, ∃ d ∈ documents, d.id = id ∧ shares d := by
      intro id listed
      obtain ⟨a, ha, doc, shared⟩ := sound id listed
      obtain ⟨d, hd, rfl⟩ := List.mem_map.1 ha
      exact ⟨d, hd, doc, shared⟩
    refine ⟨hits, ranked, nodup, fun weighs id => ⟨sound id, ?_⟩, fun none => ?_⟩
    · rintro ⟨d, hd, rfl, shared⟩
      exact complete weighs _ (List.mem_map_of_mem hd) shared
    · cases hits with
      | nil => rfl
      | cons hit hits =>
        obtain ⟨d, hd, -, shared⟩ := sound hit.doc (by simp)
        exact absurd shared (none d hd)
  · intro stored c built textual short
    exact Index.load_of_unpackStored (canonical_of_build textual built) short (unpackStored_save stored c)

/-- A query with one term is answered, in exact arithmetic, with the two of three documents that have the term. -/
theorem ranked_exact_of_term :
    let documents : List Source := [⟨1, ["cab ab"], none⟩, ⟨3, ["the a"], none⟩, ⟨4, ["Ab", "the"], none⟩]
    let normalizer := Normalizer.ofWords ["the"] id
    (documents.map Source.id).Pairwise (· < ·) ∧ Scoring.Ordered ℝ documents.length ∧
    ∃ ix : Index ℝ, buildIndexWith .documents normalizer (.integer 2) documents = .ok ix ∧
      Ranking.Safe ix (normalizer.terms "an AB") ∧
      ∀ s : Searcher ℝ, s.index = ix → s.normalizer = normalizer →
        ∃ hits, s.rankQuery "an AB" = .ok hits ∧ (hits.map Hit.doc).Nodup ∧
          ∀ id, id ∈ hits.map Hit.doc ↔ id = 1 ∨ id = 4 := by
  intro documents normalizer
  have ascending : (documents.map Source.id).Pairwise (· < ·) := by decide
  have ordered : Scoring.Ordered ℝ documents.length := Exact.ordered _
  obtain ⟨⟨ix, built, safe, answered⟩, -⟩ :=
    ranked_exact .documents ["the"] id (.integer 2) documents "an AB" rfl ascending ordered
  refine ⟨ascending, ordered, ix, built, safe, fun s hix hnorm => ?_⟩
  obtain ⟨hits, ranked, nodup, exact, -⟩ := answered s hix hnorm
  have weighs : ∀ t ∈ normalizer.terms "an AB", Ranking.Weighs ix t := by
    obtain ⟨acc, rfl, -, contents⟩ := contents_of_build built
    refine fun t _ => weighs_exactly (contents.rankable (Exact.ordered 0) _) ?_ t
    rw [contents.docCount_index]
    decide
  refine ⟨hits, ranked, nodup, fun id => (exact weighs id).trans ?_⟩
  have terms : normalizer.terms "an AB" = ["an", "ab"] := by cbv
  have first : normalizer.termsOfLines ["cab ab"] = ["cab", "ab"] := by cbv
  have second : normalizer.termsOfLines ["the a"] = [] := by cbv
  have third : normalizer.termsOfLines ["Ab", "the"] = ["ab"] := by cbv
  show (∃ d ∈ documents, d.id = id ∧ ∃ t ∈ normalizer.terms "an AB", t ∈ normalizer.termsOfLines d.lines) ↔ _
  rw [terms]
  simp [documents, first, second, third, eq_comm]

end Retrieval
