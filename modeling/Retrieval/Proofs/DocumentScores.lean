import Retrieval.Proofs.Comparison
import Retrieval.Proofs.ExactArithmetic
import Retrieval.Proofs.Ranking

/-!
# Scores of documents

Ranking goes through the terms of a query and adds to the scores of many documents at a time. For each document alone that
comes to one sum over its own postings, in the order of the terms and of the postings (`parts`): the additions to all
documents are one list (`gains`), a term and its postings put the next of them into the table (`puts_of_addTerm`), and
what the table then holds for a document are its own (`get?_puts`). So ranking lists exactly the documents that have a
posting and a norm that is not zero (`docs_of_normalize`), each once with its sum divided by the norms
(`exists_of_mem_listed`), and its order is the one of the scores and ids (`ordered_bestFirst`).
-/

set_option autoImplicit false

namespace Retrieval.Ranking

variable {α : Type}

/-- The entries of the terms of a query, in its order: those that are there and have a positive aggregate. -/
def found (entries : Table String Entry) (terms : List String) : List Entry :=
  terms.filterMap fun t => (entries.get? t).filter (0 < ·.aggregate)

/-- The additions to the score of one document by the postings of weighed entries. -/
def parts [Scoring α] (weighed : List (Entry × α)) (d : Int) : List α :=
  weighed.flatMap fun (e, w) => (e.postings.filter (·.doc = d)).map fun p => occurrenceWeight p.tf.toNat * w

/-- The additions to the scores of all documents, in the order in which ranking makes them. -/
def gains [Scoring α] (weighed : List (Entry × α)) : List (Int × α) :=
  weighed.flatMap fun (e, w) => e.postings.map fun p => (p.doc, occurrenceWeight p.tf.toNat * w)

theorem found_singleton (entries : Table String Entry) (t : String) :
    found entries [t] = ((entries.get? t).filter (0 < ·.aggregate)).toList := by
  cases there : (entries.get? t).filter (0 < ·.aggregate) <;> simp [found, there]

theorem found_cons (entries : Table String Entry) (t : String) (terms : List String) :
    found entries (t :: terms) = found entries [t] ++ found entries terms :=
  List.filterMap_append (l := [t])

theorem gains_append [Scoring α] (weighed weighed' : List (Entry × α)) :
    gains (weighed ++ weighed') = gains weighed ++ gains weighed' :=
  List.flatMap_append

/-- The additions to the score of a document are those of all additions that are its own. -/
theorem map_filter_gains [Scoring α] (weighed : List (Entry × α)) (d : Int) :
    ((gains weighed).filter (·.1 = d)).map Prod.snd = parts weighed d := by
  simp [gains, parts, List.filter_flatMap, List.map_flatMap, List.filter_map, Function.comp_def]

/-! ### Tables of sums -/

section Puts

variable [Zero α] [Add α]

/-- Adds to the score of a document, which is zero at first. -/
def put (scores : Table Int α) (gain : Int × α) : Table Int α :=
  scores.alter gain.1 fun score => score.getD 0 + gain.2

theorem get?_puts (l : List (Int × α)) (scores : Table Int α) (d : Int) :
    (l.foldl put scores).get? d =
      if d ∈ l.map Prod.fst then
        some (((l.filter (·.1 = d)).map Prod.snd).foldl (· + ·) ((scores.get? d).getD 0))
      else scores.get? d := by
  induction l generalizing scores with
  | nil => rfl
  | cons gain l ih =>
    rw [List.foldl_cons, ih, put, Table.get?_alter, List.map_cons]
    by_cases own : d = gain.1
    · subst own
      rw [if_pos rfl, if_pos (List.mem_cons_self ..), List.filter_cons_of_pos (by simp)]
      split
      · rfl
      · rename_i last
        have none_after : l.filter (·.1 = gain.1) = [] := by
          rw [List.filter_eq_nil_iff]
          intro other mem same
          exact last (List.mem_map.2 ⟨other, mem, by simpa using same⟩)
        rw [none_after]
        rfl
    · rw [if_neg own, List.filter_cons_of_neg (by simpa using Ne.symm own)]
      simp only [List.mem_cons, own, false_or]

end Puts

variable [Scoring α]

/-! ### Terms -/

theorem put_of_addPosting {weight : α} {scores later : Table Int α} {p : Posting}
    (h : addPosting weight scores p = .ok later) : later = put scores (p.doc, occurrenceWeight p.tf.toNat * weight) := by
  by_cases positive : 0 < p.tf
  · rw [addPosting_eq weight scores positive] at h
    cases h
    rfl
  · rw [addPosting, Quantity.weight, Quantity.logarithm, if_pos (Int.not_lt.1 positive)] at h
    cases h

theorem puts_of_addPostings {weight : α} {postings : List Posting} {scores later : Table Int α}
    (h : postings.foldlM (addPosting weight) scores = .ok later) :
    later = (postings.map fun p => (p.doc, occurrenceWeight p.tf.toNat * weight)).foldl put scores := by
  induction postings generalizing scores with
  | nil =>
    cases h
    rfl
  | cons p postings ih =>
    rw [List.foldlM_cons] at h
    obtain ⟨next, first, h⟩ := exists_of_bind h
    rw [ih h, put_of_addPosting first]
    rfl

/-- An entry with its corpus weight. -/
def weigh (corpusSize : Quantity α) (e : Entry) : Except ArithmeticError (Entry × α) :=
  (corpusWeight corpusSize (.integer e.aggregate)).map (e, ·)

theorem map_fst_of_weigh {corpusSize : Quantity α} {es : List Entry} {weighed : List (Entry × α)}
    (h : es.mapM (weigh corpusSize) = .ok weighed) : weighed.map Prod.fst = es := by
  induction es generalizing weighed with
  | nil =>
    cases h
    rfl
  | cons e es ih =>
    rw [List.mapM_cons] at h
    obtain ⟨first, weighs, h⟩ := exists_of_bind h
    obtain ⟨others, rest, h⟩ := exists_of_bind h
    cases h
    rw [weigh] at weighs
    cases weight : corpusWeight corpusSize (.integer e.aggregate) with
    | error d =>
      rw [weight] at weighs
      cases weighs
    | ok w =>
      rw [weight] at weighs
      cases weighs
      rw [List.map_cons, ih rest]

/-- The documents with additions are those with a posting. -/
theorem mem_gains_iff {weighed : List (Entry × α)} {d : Int} :
    d ∈ (gains weighed).map Prod.fst ↔ ∃ e ∈ weighed.map Prod.fst, ∃ p ∈ e.postings, p.doc = d := by
  simp only [gains, List.map_flatMap, List.mem_flatMap, List.mem_map, List.map_map, Function.comp_def]
  constructor
  · rintro ⟨x, hx, p, hp, rfl⟩
    exact ⟨x.1, ⟨x, hx, rfl⟩, p, hp, rfl⟩
  · rintro ⟨_, ⟨x, hx, rfl⟩, p, hp, rfl⟩
    exact ⟨x, hx, p, hp, rfl⟩

/-- The step: a term that is found puts its postings into the table and its weight into the sum. -/
theorem puts_of_addTerm {entries : Table String Entry} {corpusSize : Quantity α} {tally later : Tally α} {t : String}
    (h : addTerm entries corpusSize tally t = .ok later) :
    ∃ weighed, (found entries [t]).mapM (weigh corpusSize) = .ok weighed ∧
      later = ⟨(gains weighed).foldl put tally.scores, (weighed.map Prod.snd).foldl (· + ·) tally.total⟩ := by
  rw [addTerm] at h
  rw [found_singleton]
  cases there : (entries.get? t).filter (0 < ·.aggregate) with
  | none =>
    rw [there] at h
    cases h
    exact ⟨[], rfl, rfl⟩
  | some e =>
    rw [there] at h
    obtain ⟨weight, weighs, h⟩ := exists_of_bind h
    obtain ⟨scores, added, h⟩ := exists_of_bind h
    cases h
    refine ⟨[(e, weight)], ?_, ?_⟩
    · rw [Option.toList_some, List.mapM_cons, weigh, weighs]
      rfl
    · rw [puts_of_addPostings added, gains, List.flatMap_singleton]
      rfl

/-- The run: the terms of a query make one list of additions, and their weights one sum. -/
theorem puts_of_addTerms {entries : Table String Entry} {corpusSize : Quantity α} {terms : List String}
    {tally later : Tally α} (h : terms.foldlM (addTerm entries corpusSize) tally = .ok later) :
    ∃ weighed, (found entries terms).mapM (weigh corpusSize) = .ok weighed ∧
      later = ⟨(gains weighed).foldl put tally.scores, (weighed.map Prod.snd).foldl (· + ·) tally.total⟩ := by
  induction terms generalizing tally with
  | nil =>
    cases h
    exact ⟨[], rfl, rfl⟩
  | cons t terms ih =>
    rw [List.foldlM_cons] at h
    obtain ⟨next, first, h⟩ := exists_of_bind h
    obtain ⟨weighed, weighs, rfl⟩ := puts_of_addTerm first
    obtain ⟨others, weigh', rfl⟩ := ih h
    refine ⟨weighed ++ others, ?_, ?_⟩
    · rw [found_cons, List.mapM_append, bind_eq weighs, bind_eq weigh']
      rfl
    · rw [gains_append, List.map_append, List.foldl_append, List.foldl_append]

/-! ### Listing -/

/-- What is listed is the score of a document, divided by the norms. -/
theorem exists_of_mem_listed {queryNorm : α} {norm : Int → Quantity α} {scores : List (Int × α)}
    {listed : List (Option (Hit α))} (h : scores.mapM (normalize queryNorm norm) = .ok listed) {hit : Hit α}
    (mem : hit ∈ listed.filterMap id) :
    ∃ score n, (hit.doc, score) ∈ scores ∧ (norm hit.doc).toScalar = .ok n ∧ hit.score = score / (queryNorm * n) := by
  obtain ⟨hit', mem, rfl⟩ := List.mem_filterMap.1 mem
  obtain ⟨scored, scored_mem, normalized⟩ := mem_of_mapM h mem
  rcases normalize_cases normalized with ⟨-, missing⟩ | ⟨-, n, number, same⟩
  · cases missing
  · cases same
    exact ⟨scored.2, n, scored_mem, number, rfl⟩

/-! ### Order -/

/-- Documents are listed in descending order of their scores, and those with equal scores in ascending order of their
ids. -/
theorem ordered_bestFirst (compares : Scalar.Compares α) {hits : List (Hit α)}
    (all : ∀ hit ∈ hits, placed hit.score = true) :
    (bestFirst hits).Pairwise fun a b =>
      Scalar.lt b.score a.score = true ∨ (a.score == b.score) = true ∧ a.doc ≤ b.doc := by
  obtain ⟨κ, _, place, laws⟩ := compares
  let key (hit : Hit α) : κᵒᵈ ×ₗ ℤ := toLex (OrderDual.toDual (place hit.score), hit.doc)
  have key_le (a b : Hit α) : key a ≤ key b ↔
      place b.score < place a.score ∨ place a.score = place b.score ∧ a.doc ≤ b.doc := by
    rw [Prod.Lex.toLex_le_toLex]
    exact Iff.rfl
  -- on these documents the comparison is that of the keys
  have compared : ∀ a ∈ hits, ∀ b ∈ hits, (!before b a) = decide (key a ≤ key b) := by
    intro a ha b hb
    obtain ⟨lt, -⟩ := laws a.score b.score (all a ha) (all b hb)
    obtain ⟨-, eq⟩ := laws b.score a.score (all b hb) (all a ha)
    rw [Bool.eq_iff_iff, decide_eq_true_iff, key_le, before]
    by_cases same : (b.score == a.score) = true
    · have place_eq := eq.1 same
      rw [if_pos same, Bool.not_eq_true', decide_eq_false_iff_not, Int.not_lt]
      simp [place_eq]
    · have place_ne : place a.score ≠ place b.score := fun h => same (eq.2 h.symm)
      rw [if_neg same, Bool.not_eq_true', ← Bool.not_eq_true, lt, not_lt, le_iff_lt_or_eq]
      simp [place_ne, place_ne.symm]
  have sorted : (bestFirst hits).map key = (hits.map key).mergeSort fun a b => decide (a ≤ b) := by
    rw [bestFirst, if_pos (List.all_eq_true.2 all), List.map_mergeSort (s := fun a b => decide (a ≤ b)) compared]
  have pairwise : ((bestFirst hits).map key).Pairwise (· ≤ ·) := by
    rw [sorted]
    exact List.pairwise_mergeSort' (· ≤ ·) _
  refine (List.pairwise_map.1 pairwise).imp_of_mem fun {a b} ha hb le => ?_
  have mem {hit : Hit α} (h : hit ∈ bestFirst hits) := all hit ((perm_bestFirst hits).mem_iff.1 h)
  obtain ⟨lt, -⟩ := laws b.score a.score (mem hb) (mem ha)
  obtain ⟨-, eq⟩ := laws a.score b.score (mem ha) (mem hb)
  rw [lt, eq]
  exact (key_le a b).1 le

/-- What is tallied for a document is the sum of its own additions, if it has any. -/
theorem mem_tallied_iff {weighed : List (Entry × α)} {d : Int} {score : α} :
    (d, score) ∈ ((gains weighed).foldl put ∅).toList ↔
      d ∈ (gains weighed).map Prod.fst ∧ score = sum (parts weighed d) := by
  rw [Table.mem_toList_iff, get?_puts, map_filter_gains]
  split
  · rename_i own
    exact ⟨fun h => ⟨own, (Option.some.inj h).symm⟩, fun h => by rw [h.2]; rfl⟩
  · rename_i other
    exact ⟨fun h => (by cases h), fun h => absurd h.1 other⟩

/-- **Each document is scored on its own.** Where ranking ends without an error, the entries of the terms that are there
have weights, and the norm of the query is the root of their sum. If that is zero nothing is listed; otherwise exactly
the documents that have a posting in such an entry and a norm that is not zero are, each once. The score of a document is
the sum of the weights of its own postings, in the order of the terms and of the postings, divided by the norms, whatever
the arithmetic. As far as the scores can be compared they descend, and ids ascend among equal ones; floating-point
numbers can be compared. -/
theorem rank_by_document :
    (∀ (α : Type) [Scoring α] (entries : Table String Entry) (norm : Int → Quantity α) (corpusSize : Quantity α)
      (terms : List String) (hits : List (Hit α)), rank entries norm corpusSize terms = .ok hits →
        ∃ weighed, (found entries terms).mapM (weigh corpusSize) = .ok weighed ∧
          let queryNorm := Scoring.sqrt (sum (weighed.map Prod.snd))
          if queryNorm == 0 then hits = []
          else
            (hits.map Hit.doc).Nodup ∧
            (∀ d, d ∈ hits.map Hit.doc ↔
              (∃ e ∈ found entries terms, ∃ p ∈ e.postings, p.doc = d) ∧ (norm d).isZero = false) ∧
            (∀ hit ∈ hits, ∃ n, (norm hit.doc).toScalar = .ok n ∧
              hit.score = sum (parts weighed hit.doc) / (queryNorm * n)) ∧
            (Scalar.Compares α → (∀ hit ∈ hits, placed hit.score = true) →
              hits.Pairwise fun a b =>
                Scalar.lt b.score a.score = true ∨ (a.score == b.score) = true ∧ a.doc < b.doc)) ∧
    Scalar.Compares Float := by
  refine ⟨fun α _ entries norm corpusSize terms hits h => ?_, compares_float⟩
  rw [rank] at h
  obtain ⟨tally, run, h⟩ := exists_of_bind h
  obtain ⟨weighed, weighs, rfl⟩ := puts_of_addTerms run
  refine ⟨weighed, weighs, ?_⟩
  intro queryNorm
  have h : (if queryNorm == 0 then return [] else
      ((gains weighed).foldl put ∅).toList.mapM (normalize queryNorm norm) >>= fun listed =>
        return bestFirst (listed.filterMap id)) = Except.ok hits := h
  split
  · rename_i vanishes
    rw [if_pos vanishes] at h
    cases h
    rfl
  · rename_i nonzero
    rw [if_neg nonzero] at h
    obtain ⟨listed, read, h⟩ := exists_of_bind h
    cases h
    have same := perm_bestFirst (listed.filterMap id)
    have docs : ((bestFirst (listed.filterMap id)).map Hit.doc).Perm
        (((gains weighed).foldl put ∅).keys.filter fun d => !(norm d).isZero) :=
      (same.map Hit.doc).trans (.of_eq (docs_of_normalize read))
    have nodup : ((bestFirst (listed.filterMap id)).map Hit.doc).Nodup :=
      docs.nodup_iff.2 (((gains weighed).foldl put ∅).nodup.filter _)
    refine ⟨nodup, fun d => ?_, fun hit mem => ?_, fun compares all => ?_⟩
    · have tallied : d ∈ ((gains weighed).foldl put ∅).keys ↔ d ∈ (gains weighed).map Prod.fst := by
        rw [← Table.get?_isSome_iff, get?_puts]
        split <;> simp [*]
      rw [docs.mem_iff, List.mem_filter, tallied, mem_gains_iff, map_fst_of_weigh weighs, Bool.not_eq_true']
    · obtain ⟨score, n, tallied, number, divided⟩ := exists_of_mem_listed read (same.mem_iff.1 mem)
      rw [(mem_tallied_iff.1 tallied).2] at divided
      exact ⟨n, number, divided⟩
    · have ordered := ordered_bestFirst compares fun hit mem => all hit (same.mem_iff.2 mem)
      have distinct := List.pairwise_map.1 (List.nodup_iff_pairwise_ne.1 nodup)
      refine ordered.imp₂ (fun a b order ne => ?_) distinct
      exact order.imp_right fun tie => ⟨tie.1, lt_of_le_of_ne tie.2 ne⟩

/-- An index of three documents, two of which have the term. -/
noncomputable def sample : Index ℝ :=
  .make ⟨[("ab", ⟨3, [⟨1, 2⟩, ⟨4, 1⟩]⟩)], List.nodup_singleton _⟩ ⟨[(1, 2), (3, 1), (4, 1)], by decide⟩ ∅
    .occurrences none

theorem rankable_sample : sample.Rankable := by
  have only {t : String} {e : Entry} (there : sample.entries.get? t = some e) : e = ⟨3, [⟨1, 2⟩, ⟨4, 1⟩]⟩ := by
    have mem := Table.mem_of_lookup there
    exact (Prod.mk.inj (List.mem_singleton.1 mem)).2
  constructor
  case aggregate =>
    intro t e there
    rw [only there]
    decide
  case tf =>
    intro t e there
    rw [only there]
    decide
  case norm =>
    intro t e there p posted
    rw [only there] at posted
    have norms : sample.norms.get? 1 = some 2 ∧ sample.norms.get? 4 = some 1 := ⟨rfl, rfl⟩
    rcases List.mem_cons.1 posted with rfl | posted
    · exact ⟨2, norms.1, Exact.one_le_iff.2 one_le_two⟩
    · rw [List.mem_singleton.1 posted]
      exact ⟨1, norms.2, Exact.one_le_iff.2 le_rfl⟩

/-- A query that repeats a term and has one that is absent lists the two documents, and the first of them has the
greater score or the smaller id. -/
theorem rank_by_document_of_sample :
    ∃ hits, rankIndex sample ["ab", "an", "ab"] = .ok hits ∧ (∀ d, d ∈ hits.map Hit.doc ↔ d = 1 ∨ d = 4) ∧
      (hits.map Hit.doc).Nodup ∧ hits.Pairwise fun a b => b.score < a.score ∨ a.score = b.score ∧ a.doc < b.doc := by
  have ordered := Exact.ordered sample.docCount
  have compares : Scalar.Compares ℝ := ⟨ℝ, inferInstance, id, fun x y _ _ => ⟨Exact.lt_iff, beq_iff_eq⟩⟩
  have weighs : ∀ t ∈ ["ab", "an", "ab"], Weighs sample t := fun t _ e there w weight =>
    Exact.corpusWeight_ne_zero (by decide) (rankable_sample.aggregate t e there) weight
  obtain ⟨tally, hits, -, -, ranked, -⟩ := exists_rankIndex ordered rankable_sample le_rfl ["ab", "an", "ab"]
  have docs := mem_rankIndex_iff ordered rankable_sample.counted (rankable_sample.normed ordered) le_rfl weighs ranked
  have posted : sample.docs "ab" = [1, 4] ∧ sample.docs "an" = [] := ⟨rfl, rfl⟩
  have members : ∀ d, d ∈ hits.map Hit.doc ↔ d = 1 ∨ d = 4 := by
    intro d
    rw [docs]
    simp [posted]
  obtain ⟨weighed, -, listed⟩ := rank_by_document.1 ℝ _ _ _ _ hits ranked
  dsimp only at listed
  split at listed
  · subst listed
    exact absurd ((members 1).2 (.inl rfl)) (by simp)
  · obtain ⟨nodup, -, -, order⟩ := listed
    refine ⟨hits, ranked, members, nodup, (order compares fun hit _ => beq_iff_eq.2 rfl).imp fun {a b} h => ?_⟩
    rw [Exact.lt_iff, beq_iff_eq] at h
    exact h

end Retrieval.Ranking
