import Mathlib
import Retrieval.Proofs.ExactArithmetic
import Retrieval.Proofs.Index.Documents
import Retrieval.Proofs.Merge
import Retrieval.Proofs.Query.Parsing
import Retrieval.Proofs.Query.Tokens
import Retrieval.Proofs.Ranking
import Retrieval.Proofs.Terms
import Retrieval.Searcher

/-!
# Ranked and boolean search agree on disjunctions

Words are searched in two ways: ranked, where their documents get scores, and as a boolean query in which they are
joined by disjunctions. Both reduce to the documents of the stemmed words (`Searcher.mem_matching_disjunction`,
`Ranking.mem_rankIndex_iff`), so they find the same documents, as far as the weights of the words do not vanish.
-/

set_option autoImplicit false

namespace Retrieval
open Json (Value)

/-! ### The disjunction of words -/

namespace Query

/-- The disjunction of a query and words, from the left. -/
def disjunction (q : Query) (words : List String) : Query := words.foldl (fun l w => .join .or l (.term w)) q

theorem derives_disjunction {ts words : List String} {q : Query} (h : Derives .expr ts q) (hw : ∀ w ∈ words, IsWord w) :
    Derives .expr (ts ++ words.flatMap fun w => [Connective.or.text, w]) (q.disjunction words) := by
  induction words generalizing ts q with
  | nil => simpa [disjunction] using h
  | cons w words ih =>
    obtain ⟨first, others⟩ := List.forall_mem_cons.1 hw
    have joined := ih (.or h (.ofTerm (.word first))) others
    simpa [disjunction, Connective.text] using joined

/-- Words with `OR` between them are parsed as their disjunction. -/
theorem parse_disjunction {w : String} {words : List String} (hw : IsWord w) (hwords : ∀ v ∈ words, IsWord v) :
    (parse (" OR ".intercalate (w :: words))).result = .ok ((term w).disjunction words) := by
  have derived := derives_disjunction (.ofConj (.ofTerm (.word hw))) hwords
  have text : " " ++ Connective.or.text ++ " " = " OR " := by decide
  rw [List.singleton_append, ← texts_tokenize_intercalate .or hw hwords, text] at derived
  exact (result_eq_ok_iff _ _).2 derived

theorem mem_eval_disjunction {docs : String → List Int} {allDocs : List Int} {words : List String} {q : Query}
    {d : Int} : d ∈ (q.disjunction words).eval docs allDocs ↔ d ∈ q.eval docs allDocs ∨ ∃ w ∈ words, d ∈ docs w := by
  induction words generalizing q with
  | nil => simp [disjunction]
  | cons w words ih =>
    have first : d ∈ (join .or q (term w)).eval docs allDocs ↔ d ∈ q.eval docs allDocs ∨ d ∈ docs w := Merge.mem_union
    rw [disjunction, List.foldl_cons, ← disjunction, ih, first, or_assoc, List.exists_mem_cons_iff]

/-- A word is a token in lower case. -/
theorem IsWord.isSmallToken {w : String} (h : IsWord w) : IsSmallToken w := by
  refine ⟨h.1, fun c hc => ?_⟩
  have range := range_of_isSmallLetter (h.2 c hc)
  have lower : c.isLower = true := by
    simp only [Char.isLower, Bool.and_eq_true, decide_eq_true_eq, ge_iff_le, UInt32.le_iff_toNat_le]
    exact range
  have no_capital : ¬ (c.val ≥ 'A'.val ∧ c.val ≤ 'Z'.val) := by
    rintro ⟨-, le⟩
    have le : c.toNat ≤ 90 := UInt32.le_iff_toNat_le.1 le
    omega
  exact ⟨by simp [isTokenChar, Char.isAlphanum, Char.isAlpha, lower], dif_neg no_capital⟩

end Query

namespace Searcher

variable {α : Type} {s : Searcher α}

/-- A disjunction of words is answered with the documents of their stems. -/
theorem exists_boolean_disjunction (s : Searcher α) {words : List String} (some : words ≠ [])
    (hw : ∀ w ∈ words, Query.IsWord w) :
    ∃ ids, s.boolean (" OR ".intercalate words) = .ok ids ∧
      ∀ d, d ∈ ids ↔ ∃ w ∈ words, d ∈ s.index.docs (s.normalizer.stem w) := by
  cases words with
  | nil => exact absurd rfl some
  | cons w words =>
    obtain ⟨first, others⟩ := List.forall_mem_cons.1 hw
    refine ⟨_, by rw [boolean, Query.parse_disjunction first others]; rfl, fun d => ?_⟩
    rw [matching, Query.mem_eval_disjunction, List.exists_mem_cons_iff]
    rfl

/-- Words of more than one letter that are no stop words are ranked by their stems. -/
theorem rankQuery_intercalate [Scoring α] (s : Searcher α) {words : List String}
    (kept : ∀ w ∈ words, Query.IsWord w ∧ 1 < w.length ∧ s.normalizer.stops w = false) :
    s.rankQuery (" ".intercalate words) = Ranking.rankIndex s.index (words.map s.normalizer.stem) := by
  have keeps : ∀ w ∈ words, s.normalizer.keeps w = true := by
    intro w hw
    obtain ⟨-, long, goes⟩ := kept w hw
    simp [Normalizer.keeps, long, goes]
  rw [rankQuery, s.normalizer.terms_intercalate fun w hw => (kept w hw).1.isSmallToken, List.filter_eq_self.2 keeps]

end Searcher

/-- **Ranked and boolean search agree on disjunctions.** Words of more than one letter, none of them a stop word, are
searched in an index with positive counts in which each document with a posting has a norm other than zero. As a
disjunction they are answered with documents; and where ranking them gives an answer, it lists the same documents,
unless one of the words weighs nothing. An index that is built is of this kind, and ranking gives an answer there. -/
theorem ranked_iff_boolean {α : Type} [Scoring α] (normalizer : Normalizer) {words : List String} (some : words ≠ [])
    (kept : ∀ w ∈ words, Query.IsWord w ∧ 1 < w.length ∧ normalizer.stops w = false) :
    (∀ s : Searcher α, s.normalizer = normalizer → s.index.Counted → s.index.Normed →
      Scoring.Ordered α s.index.docCount → (∀ w ∈ words, Ranking.Weighs s.index (normalizer.stem w)) →
      ∃ ids, s.boolean (" OR ".intercalate words) = .ok ids ∧
        ∀ hits, s.rankQuery (" ".intercalate words) = .ok hits → ∀ d, d ∈ hits.map Hit.doc ↔ d ∈ ids) ∧
    ∀ (mode : AggregateMode) (builder : Normalizer) (workers : Value) (documents : List Source) (ix : Index α),
      buildIndexWith mode builder workers documents = .ok ix → Scoring.Ordered α documents.length →
      ix.Counted ∧ ix.Normed ∧ ix.docCount = documents.length ∧
        ∀ s : Searcher α, s.index = ix → s.normalizer = normalizer →
          ∃ hits, s.rankQuery (" ".intercalate words) = .ok hits := by
  constructor
  · rintro s rfl counted normed ordered weighs
    obtain ⟨ids, answered, members⟩ := s.exists_boolean_disjunction some fun w hw => (kept w hw).1
    refine ⟨ids, answered, fun hits ranked d => ?_⟩
    rw [s.rankQuery_intercalate kept] at ranked
    have listed := Ranking.mem_rankIndex_iff ordered counted normed le_rfl (List.forall_mem_map.2 weighs) ranked d
    rw [listed, members]
    simp only [List.mem_map, exists_exists_and_eq_and]
  · intro mode builder workers documents ix built ordered
    obtain ⟨acc, rfl, -, contents⟩ := contents_of_build built
    have count := contents.docCount_index (storedWords builder)
    rw [List.length_map] at count
    rw [← List.length_map (Source.addition builder)] at ordered
    have rankable := contents.rankable ordered (storedWords builder)
    refine ⟨rankable.counted, rankable.normed ordered, count, ?_⟩
    rintro s hs rfl
    obtain ⟨-, hits, -, -, ranked, -⟩ :=
      Ranking.exists_rankIndex ordered rankable (by rw [count, List.length_map]) (words.map s.normalizer.stem)
    exact ⟨hits, by rw [s.rankQuery_intercalate kept, hs, ranked]⟩

/-- Words of which one is repeated and one is absent find the same two documents either way, in exact arithmetic. -/
theorem ranked_iff_boolean_of_repeated :
    let documents : List Source := [⟨1, ["cab ab"], none⟩, ⟨3, ["the a"], none⟩, ⟨4, ["Ab", "the"], none⟩]
    let normalizer := Normalizer.ofWords ["the"] id
    let words := ["ab", "bb", "ab"]
    words ≠ [] ∧ (∀ w ∈ words, Query.IsWord w ∧ 1 < w.length ∧ normalizer.stops w = false) ∧
    ∃ ix : Index ℝ, buildIndexWith .documents normalizer (.integer 2) documents = .ok ix ∧
      ix.Counted ∧ ix.Normed ∧ Scoring.Ordered ℝ ix.docCount ∧ (∀ w ∈ words, Ranking.Weighs ix (normalizer.stem w)) ∧
      ∀ s : Searcher ℝ, s.index = ix → s.normalizer = normalizer →
        ∃ ids hits, s.boolean "ab OR bb OR ab" = .ok ids ∧ s.rankQuery "ab bb ab" = .ok hits ∧
          ∀ d, d ∈ hits.map Hit.doc ↔ d ∈ ids := by
  intro documents normalizer words
  have kept : ∀ w ∈ words, Query.IsWord w ∧ 1 < w.length ∧ normalizer.stops w = false := by
    have ab : Query.IsWord "ab" := ⟨by decide, List.all_eq_true.1 (by decide)⟩
    have bb : Query.IsWord "bb" := ⟨by decide, List.all_eq_true.1 (by decide)⟩
    simp only [words, List.forall_mem_cons]
    exact ⟨⟨ab, by decide, by decide⟩, ⟨bb, by decide, by decide⟩, ⟨ab, by decide, by decide⟩, by simp⟩
  have ascending : (documents.map Source.id).Pairwise (· < ·) := by decide
  obtain ⟨acc, built, -, -⟩ := buildIndex_of_ascending (α := ℝ) .documents normalizer ascending
  generalize acc.index (some (storedWords normalizer)) = ix at built
  have number : (Value.integer 2).isNumber = true := rfl
  have built : buildIndexWith .documents normalizer (.integer 2) documents = .ok ix := by
    rw [buildIndexWith, if_pos number, built]
    rfl
  obtain ⟨agree, answers⟩ := ranked_iff_boolean (α := ℝ) normalizer (List.cons_ne_nil _ _) kept
  obtain ⟨counted, normed, count, answered⟩ :=
    answers .documents normalizer (.integer 2) documents ix built (Exact.ordered _)
  have weighs : ∀ w ∈ words, Ranking.Weighs ix (normalizer.stem w) := fun w _ e found v weight =>
    Exact.corpusWeight_ne_zero (by rw [count]; decide) (counted.aggregate _ e found) weight
  refine ⟨List.cons_ne_nil _ _, kept, ix, built, counted, normed, Exact.ordered _, weighs, ?_⟩
  rintro s rfl hs
  obtain ⟨ids, found, same⟩ := agree s hs counted normed (Exact.ordered _) weighs
  obtain ⟨hits, ranked⟩ := answered s rfl hs
  exact ⟨ids, hits, found, ranked, same hits ranked⟩

end Retrieval
