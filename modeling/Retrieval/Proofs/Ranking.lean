import Mathlib
import Retrieval.Proofs.Arithmetic
import Retrieval.Proofs.Index.Built
import Retrieval.Proofs.Sorting
import Retrieval.Ranking

/-!
# Ranking never fails on an index that is in order

Ranking goes through the terms of a query and tallies what they give to the documents (`Tallied`), then divides each
score by norms. In an index whose counts are positive and whose posted documents have norms of at least one
(`Rankable`), as every index of an accumulator has (`Contents.rankable`), neither step fails, and the documents that are
listed are those that were tallied, unless the weights of all terms vanish (`exists_rankIndex`).
-/

set_option autoImplicit false

namespace Retrieval
open Json (Value)
open Scalar (Le)

variable {α : Type}

/-! ### Indexes in order -/

/-- A document of a term has a posting in the entry of the term. -/
theorem Index.exists_entry {ix : Index α} {t : String} {d : Int} (h : d ∈ ix.docs t) :
    ∃ e, ix.entries.get? t = some e ∧ ∃ p ∈ e.postings, p.doc = d := by
  rw [docs] at h
  cases found : ix.entries.get? t with
  | none =>
    rw [found] at h
    cases h
  | some e =>
    rw [found] at h
    exact ⟨e, rfl, List.mem_map.1 h⟩

variable [Scoring α] {size : Nat}

/-- The counts of an index are positive. -/
structure Index.Counted (ix : Index α) : Prop where
  aggregate : ∀ t e, ix.entries.get? t = some e → 0 < e.aggregate
  tf : ∀ t e, ix.entries.get? t = some e → ∀ p ∈ e.postings, 0 < p.tf

/-- Each document with a posting has a norm, and not the norm zero. -/
def Index.Normed (ix : Index α) : Prop :=
  ∀ t, ∀ d ∈ ix.docs t, ∃ norm, ix.norms.get? d = some norm ∧ (norm == 0) = false

/-- The counts of an index are positive, and each document with a posting has a norm of at least one. -/
structure Index.Rankable (ix : Index α) : Prop where
  aggregate : ∀ t e, ix.entries.get? t = some e → 0 < e.aggregate
  tf : ∀ t e, ix.entries.get? t = some e → ∀ p ∈ e.postings, 0 < p.tf
  norm : ∀ t e, ix.entries.get? t = some e → ∀ p ∈ e.postings,
    ∃ norm, ix.norms.get? p.doc = some norm ∧ Le (Scalar.ofNat 1) norm

theorem Index.Rankable.counted {ix : Index α} (h : ix.Rankable) : ix.Counted := ⟨h.aggregate, h.tf⟩

theorem Index.Rankable.normed {ix : Index α} (h : ix.Rankable) (ordered : Scoring.Ordered α size) : ix.Normed := by
  intro t d posted
  obtain ⟨e, found, p, hp, rfl⟩ := Index.exists_entry posted
  obtain ⟨norm, stored, one_le⟩ := h.norm t e found p hp
  exact ⟨norm, stored, (ordered.of_pos (ordered.pos_of_one_le one_le)).2⟩

/-- A document with a term has one that is counted. -/
theorem termCounts_ne_nil {terms : List String} {t : String} (h : t ∈ terms) : termCounts terms ≠ [] := by
  intro none
  have found := lookup_termCounts terms t
  rw [none, if_pos h] at found
  cases found

namespace Accumulator

theorem total_pos (mode : AggregateMode) {postings : List Posting} (some : postings ≠ [])
    (tf : ∀ p ∈ postings, 1 ≤ p.tf) : 0 < total mode postings := by
  cases mode with
  | occurrences =>
    refine List.sum_pos _ (fun n hn => ?_) (by simpa using some)
    obtain ⟨p, hp, rfl⟩ := List.mem_map.1 hn
    exact tf p hp
  | documents => exact Int.natCast_pos.2 (List.length_pos_iff.2 some)

/-- What is taken from an accumulator is in order. -/
theorem Contents.rankable {acc : Accumulator α} {as : List Addition} (h : acc.Contents as)
    (ordered : Scoring.Ordered α size) (stopWords : Option (List Value)) : (acc.index stopWords).Rankable := by
  have entry {t : String} {e : Entry} (found : (acc.index stopWords).entries.get? t = some e) :
      Addition.postings as t ≠ [] ∧ e = ⟨total acc.mode (Addition.postings as t), Addition.postings as t⟩ := by
    have entries : (acc.index stopWords).entries.get? t = entryOf acc.mode as t := h.entries t
    rw [entries, entryOf] at found
    split at found
    · cases found
    · cases found
      exact ⟨‹_›, rfl⟩
  constructor
  case aggregate =>
    intro t e found
    obtain ⟨some, rfl⟩ := entry found
    exact total_pos acc.mode some fun p => Addition.one_le_tf
  case tf =>
    intro t e found p posted
    obtain ⟨some, rfl⟩ := entry found
    exact Addition.one_le_tf posted
  case norm =>
    intro t e found p posted
    obtain ⟨some, rfl⟩ := entry found
    obtain ⟨a, ha, rfl⟩ := List.mem_map.1 posted
    obtain ⟨ha, occurs⟩ := List.mem_filter.1 ha
    refine ⟨_, h.norms a ha, ordered.one_le_documentNorm ?_ ?_⟩
    · simpa using termCounts_ne_nil (of_decide_eq_true occurs)
    · intro tf counted
      obtain ⟨p, hp, rfl⟩ := List.mem_map.1 counted
      exact one_le_of_mem_termCounts hp

end Accumulator

/-! ### Tallying terms -/

namespace Ranking

theorem addPosting_eq (weight : α) (scores : Table Int α) {p : Posting} (h : 0 < p.tf) :
    addPosting weight scores p =
      .ok (scores.alter p.doc fun score => score.getD 0 + occurrenceWeight p.tf.toNat * weight) := by
  rw [addPosting, Quantity.weight, Quantity.logarithm, if_neg (Int.not_le.2 h)]
  rfl

/-- Postings with positive counts are added, each to its document. -/
theorem exists_addPostings (weight : α) {postings : List Posting} (h : ∀ p ∈ postings, 0 < p.tf)
    (scores : Table Int α) :
    ∃ scores', postings.foldlM (addPosting weight) scores = .ok scores' ∧
      ∀ d, d ∈ scores'.keys ↔ d ∈ scores.keys ∨ d ∈ postings.map Posting.doc := by
  induction postings generalizing scores with
  | nil => exact ⟨scores, rfl, by simp⟩
  | cons p postings ih =>
    obtain ⟨hp, hrest⟩ := List.forall_mem_cons.1 h
    have first := addPosting_eq weight scores hp
    obtain ⟨scores', rest, keys⟩ := ih hrest (scores.alter p.doc _)
    refine ⟨scores', by rw [List.foldlM_cons, bind_eq first]; exact rest, fun d => ?_⟩
    have own : d ∈ (scores.alter p.doc fun score => score.getD 0 + occurrenceWeight p.tf.toNat * weight).keys ↔
        d ∈ scores.keys ∨ d = p.doc := by
      rw [Table.keys_alter]
      split
      · rename_i present
        exact ⟨.inl, fun h => h.elim id fun same => same ▸ present⟩
      · simp
    rw [keys, own, List.map_cons, List.mem_cons, or_assoc]

/-- The corpus weight of a term is not zero, if the index has the term. -/
def Weighs (ix : Index α) (t : String) : Prop :=
  ∀ e, ix.entries.get? t = some e → ∀ w : α,
    corpusWeight (.integer ix.docCount) (.integer e.aggregate) = .ok w → (w == 0) = false

/-- What terms leave in a tally: scores for the documents that have one of them, and a sum of weights that is positive
once one of the terms that were found weighs something. -/
structure Tallied (ix : Index α) (terms : List String) (tally : Tally α) : Prop where
  keys : ∀ d, d ∈ tally.scores.keys ↔ ∃ t ∈ terms, d ∈ ix.docs t
  nonneg : Le 0 tally.total
  pos : ∀ t ∈ terms, (ix.entries.get? t).isSome = true → Weighs ix t → Scalar.lt 0 tally.total = true

variable {ix : Index α}

/-- A document with a score has a norm of at least one. -/
theorem Tallied.exists_norm {terms : List String} {tally : Tally α} (h : Tallied ix terms tally)
    (rankable : ix.Rankable) {d : Int} (scored : d ∈ tally.scores.keys) :
    ∃ norm, ix.norms.get? d = some norm ∧ Le (Scalar.ofNat 1) norm := by
  obtain ⟨t, -, posted⟩ := (h.keys d).1 scored
  obtain ⟨e, found, p, hp, rfl⟩ := Index.exists_entry posted
  exact rankable.norm t e found p hp

theorem tallied_start (ordered : Scoring.Ordered α size) : Tallied ix [] ⟨∅, 0⟩ where
  keys := by
    intro d
    simp [Table.keys_empty]
  nonneg := ordered.zero_le_zero
  pos := by simp

/-- The step: a term is added, whether or not the index has it. -/
theorem Tallied.addTerm (ordered : Scoring.Ordered α size) (counted : ix.Counted) (small : ix.docCount ≤ size)
    {terms : List String} {tally : Tally α} (h : Tallied ix terms tally) (t : String) :
    ∃ tally', addTerm ix.entries (.integer ix.docCount) tally t = .ok tally' ∧ Tallied ix (terms ++ [t]) tally' := by
  have split {P : String → Prop} : (∃ s ∈ terms ++ [t], P s) ↔ (∃ s ∈ terms, P s) ∨ P t := by
    simp only [List.mem_append, List.mem_singleton, or_and_right, exists_or, exists_eq_left]
  rw [Ranking.addTerm]
  cases found : ix.entries.get? t with
  | none =>
    have absent : ix.docs t = [] := by rw [Index.docs, found]; rfl
    refine ⟨tally, rfl, fun d => ?_, h.nonneg, fun s hs present weighs => ?_⟩
    · rw [split, h.keys, absent]
      simp
    · rcases List.mem_append.1 hs with hs | hs
      · exact h.pos s hs present weighs
      · rw [List.mem_singleton.1 hs, found] at present
        cases present
  | some e =>
    have docs : ix.docs t = e.postings.map Posting.doc := by rw [Index.docs, found]; rfl
    have aggregate := counted.aggregate t e found
    obtain ⟨spread, -, -, weight, nonneg⟩ := ordered.exists_corpusWeight small aggregate
    generalize Scoring.square (Scoring.ln (Scalar.ofNat 1 + spread)) = w at weight nonneg
    obtain ⟨scores, added, keys⟩ := exists_addPostings w (counted.tf t e found) tally.scores
    refine ⟨⟨scores, tally.total + w⟩, ?_, fun d => ?_, ordered.add_nonneg h.nonneg nonneg,
      fun s hs present weighs => ?_⟩
    · rw [Option.filter_some, if_pos (decide_eq_true aggregate)]
      show corpusWeight _ _ >>= _ = _
      rw [bind_eq weight, bind_eq added]
      rfl
    · rw [split, keys, h.keys, docs]
    · rcases List.mem_append.1 hs with hs | hs
      · exact ordered.lt_of_lt_of_le (h.pos s hs present weighs) (ordered.le_add_right h.nonneg nonneg)
      · rw [List.mem_singleton.1 hs] at weighs
        exact ordered.lt_of_lt_of_le (nonneg.pos (weighs e found w weight)) (ordered.le_add_left h.nonneg nonneg)

/-- The run: the terms of a query are tallied. -/
theorem exists_tally (ordered : Scoring.Ordered α size) (counted : ix.Counted) (small : ix.docCount ≤ size)
    (terms : List String) :
    ∃ tally, terms.foldlM (addTerm ix.entries (.integer ix.docCount)) ⟨∅, 0⟩ = .ok tally ∧
      Tallied ix terms tally := by
  induction terms using List.reverseRecOn with
  | nil => exact ⟨_, rfl, tallied_start ordered⟩
  | append_singleton terms t ih =>
    obtain ⟨tally, run, tallied⟩ := ih
    obtain ⟨tally', step, tallied'⟩ := tallied.addTerm ordered counted small t
    exact ⟨tally', by rw [List.foldlM_append, bind_eq run, List.foldlM_cons, bind_eq step]; rfl, tallied'⟩

/-! ### Listing documents -/

theorem perm_bestFirst (hits : List (Hit α)) : (bestFirst hits).Perm hits := by
  rw [bestFirst]
  split
  · exact List.mergeSort_perm _ _
  · exact Sorting.perm_sort _ _

theorem normalize_cases {queryNorm : α} {norm : Int → Quantity α} {scored : Int × α} {listed : Option (Hit α)}
    (h : normalize queryNorm norm scored = .ok listed) :
    ((norm scored.1).isZero = true ∧ listed = none) ∨
    ((norm scored.1).isZero = false ∧ ∃ n, (norm scored.1).toScalar = .ok n ∧
      listed = some ⟨scored.1, scored.2 / (queryNorm * n)⟩) := by
  rw [normalize] at h
  cases zero : (norm scored.1).isZero with
  | true =>
    rw [zero] at h
    cases h
    exact .inl ⟨rfl, rfl⟩
  | false =>
    rw [zero] at h
    obtain ⟨n, number, h⟩ := exists_of_bind h
    obtain ⟨score, divided, h⟩ := exists_of_bind h
    cases h
    rw [quotient] at divided
    split at divided
    · cases divided
    · cases divided
      exact .inr ⟨rfl, n, number, rfl⟩

/-- Of scored documents those are listed whose norms are not zero. -/
theorem docs_of_normalize {queryNorm : α} {norm : Int → Quantity α} {scores : List (Int × α)}
    {listed : List (Option (Hit α))} (h : scores.mapM (normalize queryNorm norm) = .ok listed) :
    (listed.filterMap id).map Hit.doc = (scores.map Prod.fst).filter (fun d => !(norm d).isZero) := by
  induction scores generalizing listed with
  | nil =>
    cases h
    rfl
  | cons scored scores ih =>
    rw [List.mapM_cons] at h
    obtain ⟨first, normalized, h⟩ := exists_of_bind h
    obtain ⟨others, rest, h⟩ := exists_of_bind h
    cases h
    rcases normalize_cases normalized with ⟨zero, rfl⟩ | ⟨nonzero, n, -, rfl⟩
    · rw [List.filterMap_cons_none (by rfl), ih rest, List.map_cons, List.filter_cons_of_neg (by simp [zero])]
    · rw [List.filterMap_cons_some (by rfl), List.map_cons, ih rest, List.map_cons,
        List.filter_cons_of_pos (by simp [nonzero])]

/-- Ranking gives nothing, or the documents that are listed, best first. -/
theorem cases_of_rank {entries : Table String Entry} {norm : Int → Quantity α} {corpusSize : Quantity α}
    {terms : List String} {hits : List (Hit α)} (h : rank entries norm corpusSize terms = .ok hits) :
    hits = [] ∨ ∃ (tally : Tally α) (queryNorm : α) (listed : List (Option (Hit α))),
      tally.scores.toList.mapM (normalize queryNorm norm) = .ok listed ∧ hits = bestFirst (listed.filterMap id) := by
  rw [rank] at h
  obtain ⟨tally, -, h⟩ := exists_of_bind h
  dsimp only at h
  split at h
  · cases h
    exact .inl rfl
  · obtain ⟨listed, read, h⟩ := exists_of_bind h
    cases h
    exact .inr ⟨tally, _, listed, read, rfl⟩

/-- Ranking lists each document once, whatever the index. -/
theorem nodup_of_rank {entries : Table String Entry} {norm : Int → Quantity α} {corpusSize : Quantity α}
    {terms : List String} {hits : List (Hit α)} (h : rank entries norm corpusSize terms = .ok hits) :
    (hits.map Hit.doc).Nodup := by
  obtain rfl | ⟨tally, queryNorm, listed, read, rfl⟩ := cases_of_rank h
  · exact List.nodup_nil
  · have docs := (perm_bestFirst (listed.filterMap id)).map Hit.doc
    rw [docs_of_normalize read] at docs
    exact docs.nodup_iff.2 (tally.scores.nodup.filter _)

/-- Scored documents whose norms are not zero are all listed, if none of their scores cannot be divided. -/
theorem docs_of_listed {queryNorm : α} {norms : Table Int α} {scores : List (Int × α)} {hits : List (Option (Hit α))}
    (normed : ∀ scored ∈ scores, ∃ norm, norms.get? scored.1 = some norm ∧ (norm == 0) = false)
    (h : scores.mapM (normalize queryNorm (normIn norms)) = .ok hits) :
    (hits.filterMap id).map Hit.doc = scores.map Prod.fst := by
  rw [docs_of_normalize h, List.filter_eq_self]
  intro d mem
  obtain ⟨scored, tallied, rfl⟩ := List.mem_map.1 mem
  obtain ⟨norm, found, nonzero⟩ := normed scored tallied
  have stored : normIn norms scored.1 = .real norm := by rw [normIn, found]; rfl
  rw [stored, Quantity.isZero, nonzero]
  rfl

/-- The score of a document whose norm is at least one can be divided, for a query whose norm is positive. -/
theorem exists_normalize (ordered : Scoring.Ordered α size) {queryNorm norm : α}
    (query : Scalar.lt 0 queryNorm = true) (doc : Le (Scalar.ofNat 1) norm) {norms : Table Int α} {scored : Int × α}
    (found : norms.get? scored.1 = some norm) : ∃ listed, normalize queryNorm (normIn norms) scored = .ok listed := by
  have norm_pos := ordered.of_pos (ordered.pos_of_one_le doc)
  have divisor_pos := ordered.of_pos (ordered.lt_of_lt_of_le query (ordered.le_mul query doc))
  have stored : normIn norms scored.1 = .real norm := by rw [normIn, found]; rfl
  have divided : quotient scored.2 (queryNorm * norm) = .ok (scored.2 / (queryNorm * norm)) := by
    rw [quotient, divisor_pos.2]
    rfl
  refine ⟨some ⟨scored.1, scored.2 / (queryNorm * norm)⟩, ?_⟩
  rw [normalize, stored, Quantity.isZero, norm_pos.2]
  show quotient scored.2 (queryNorm * norm) >>= _ = _
  rw [bind_eq divided]
  rfl

/-- Scored documents with norms of at least one are all listed. -/
theorem exists_listed (ordered : Scoring.Ordered α size) {queryNorm : α} (query : Scalar.lt 0 queryNorm = true)
    {norms : Table Int α} {scores : List (Int × α)}
    (h : ∀ scored ∈ scores, ∃ norm, norms.get? scored.1 = some norm ∧ Le (Scalar.ofNat 1) norm) :
    ∃ hits, scores.mapM (normalize queryNorm (normIn norms)) = .ok hits ∧
      (hits.filterMap id).map Hit.doc = scores.map Prod.fst := by
  have divided : ∀ scored ∈ scores, ∃ listed, normalize queryNorm (normIn norms) scored = .ok listed := by
    intro scored mem
    obtain ⟨norm, found, one_le⟩ := h scored mem
    exact exists_normalize ordered query one_le found
  have normed : ∀ scored ∈ scores, ∃ norm, norms.get? scored.1 = some norm ∧ (norm == 0) = false := by
    intro scored mem
    obtain ⟨norm, found, one_le⟩ := h scored mem
    exact ⟨norm, found, (ordered.of_pos (ordered.pos_of_one_le one_le)).2⟩
  obtain ⟨hits, listed⟩ := exists_of_forall_mapM divided
  exact ⟨hits, listed, docs_of_listed normed listed⟩

/-- What ranking lists, where it lists anything at all, are the documents of the terms, unless one of these terms
weighs nothing. -/
theorem mem_rankIndex_iff (ordered : Scoring.Ordered α size) (counted : ix.Counted) (normed : ix.Normed)
    (small : ix.docCount ≤ size) {terms : List String} (weighs : ∀ t ∈ terms, Weighs ix t) {hits : List (Hit α)}
    (h : rankIndex ix terms = .ok hits) (d : Int) : d ∈ hits.map Hit.doc ↔ ∃ t ∈ terms, d ∈ ix.docs t := by
  obtain ⟨tally, run, tallied⟩ := exists_tally ordered counted small terms
  rw [← tallied.keys d]
  rw [rankIndex, rank, bind_eq run] at h
  cases vanishes : Scoring.sqrt tally.total == 0 with
  | true =>
    simp only [vanishes, if_true] at h
    cases h
    refine iff_of_false (by simp) fun scored => ?_
    -- the weight of a term that is found keeps the sum from vanishing
    obtain ⟨t, ht, posted⟩ := (tallied.keys d).1 scored
    obtain ⟨e, found, -⟩ := Index.exists_entry posted
    have total := tallied.pos t ht (by rw [found]; rfl) (weighs t ht)
    rw [(ordered.of_pos (ordered.sqrt_pos total)).2] at vanishes
    cases vanishes
  | false =>
    simp only [vanishes, Bool.false_eq_true, if_false] at h
    obtain ⟨listed, read, h⟩ := exists_of_bind h
    cases h
    have all : ∀ scored ∈ tally.scores.toList, ∃ norm, ix.norms.get? scored.1 = some norm ∧ (norm == 0) = false := by
      intro scored mem
      obtain ⟨t, -, posted⟩ := (tallied.keys scored.1).1 (List.mem_map_of_mem mem)
      exact normed t _ posted
    rw [((perm_bestFirst _).map Hit.doc).mem_iff, docs_of_listed all read]
    rfl

/-- What terms have tallied is listed, each document once, unless the weights of all terms vanish. -/
theorem exists_rankIndex (ordered : Scoring.Ordered α size) (rankable : ix.Rankable) (small : ix.docCount ≤ size)
    (terms : List String) :
    ∃ tally hits, terms.foldlM (addTerm ix.entries (.integer ix.docCount)) ⟨∅, 0⟩ = .ok tally ∧
      Tallied ix terms tally ∧ rankIndex ix terms = .ok hits ∧
      if Scoring.sqrt tally.total == 0 then hits = [] else (hits.map Hit.doc).Perm tally.scores.keys := by
  obtain ⟨tally, run, tallied⟩ := exists_tally ordered rankable.counted small terms
  cases vanishes : Scoring.sqrt tally.total == 0 with
  | true =>
    refine ⟨tally, [], run, tallied, ?_, by rw [if_pos vanishes]⟩
    rw [rankIndex, rank, bind_eq run]
    simp only [vanishes, if_true]
    rfl
  | false =>
    have query := (ordered.sqrt_nonneg tallied.nonneg).pos vanishes
    have normed : ∀ scored ∈ tally.scores.toList, ∃ norm, ix.norms.get? scored.1 = some norm ∧
        Le (Scalar.ofNat 1) norm := fun scored mem => tallied.exists_norm rankable (List.mem_map_of_mem mem)
    obtain ⟨hits, listed, docs⟩ := exists_listed ordered query normed
    refine ⟨tally, bestFirst (hits.filterMap id), run, tallied, ?_, ?_⟩
    · rw [rankIndex, rank, bind_eq run]
      simp only [vanishes, Bool.false_eq_true, if_false]
      rw [bind_eq listed]
      rfl
    · rw [if_neg (by rw [vanishes]; exact Bool.false_ne_true)]
      exact ((perm_bestFirst _).map Hit.doc).trans (.of_eq docs)

/-- Wherever ranking takes a logarithm or divides, it meets a positive number. -/
structure Safe (ix : Index α) (terms : List String) : Prop where
  aggregate : ∀ t e, ix.entries.get? t = some e → 0 < e.aggregate
  tf : ∀ t e, ix.entries.get? t = some e → ∀ p ∈ e.postings, 0 < p.tf
  spread : ∀ t e, ix.entries.get? t = some e →
    ∃ spread : α, Scoring.ratio? ix.docCount e.aggregate = some spread ∧
      Scalar.lt 0 (Scalar.ofNat 1 + spread) = true
  divisor : ∀ tally, terms.foldlM (addTerm ix.entries (.integer ix.docCount)) ⟨∅, 0⟩ = .ok tally →
    (Scoring.sqrt tally.total == 0) = false → ∀ d ∈ tally.scores.keys,
      ∃ norm, ix.norms.get? d = some norm ∧ Scalar.lt 0 (Scoring.sqrt tally.total * norm) = true

theorem safe_of_rankable (ordered : Scoring.Ordered α size) (rankable : ix.Rankable) (small : ix.docCount ≤ size)
    (terms : List String) : Safe ix terms where
  aggregate := rankable.aggregate
  tf := rankable.tf
  spread := by
    intro t e found
    obtain ⟨spread, quotient, positive, -⟩ := ordered.exists_corpusWeight small (rankable.aggregate t e found)
    exact ⟨spread, quotient, positive⟩
  divisor := by
    intro tally run nonzero d scored
    obtain ⟨tally', run', tallied⟩ := exists_tally ordered rankable.counted small terms
    rw [run] at run'
    cases run'
    obtain ⟨norm, found, one_le⟩ := tallied.exists_norm rankable scored
    have query := (ordered.sqrt_nonneg tallied.nonneg).pos nonzero
    exact ⟨norm, found, ordered.lt_of_lt_of_le query (ordered.le_mul query one_le)⟩

end Ranking
end Retrieval
