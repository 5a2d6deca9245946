import Retrieval.Proofs.Index.TermOrder

/-!
# Norms and postings

The norm of a document is computed once, from the counts of its own terms, while the postings of these terms are spread
over entries that grow with every later document. Still no count is lost: collected from all entries in the order of
their terms, the postings of a document are its counts (`Contents.occurrences_entries`). So the entries give the norms
back, whatever the arithmetic (`norms_of_postings`). An index that was taken earlier sees the norms of documents that come
later, but their postings only if it had a term; those of its own documents are given back in either case
(`Contents.recomputes_view`).
-/

set_option autoImplicit false

namespace Retrieval
open Json (Value)

/-- The numbers of occurrences in the postings of a document, from all entries in the order of their terms. -/
def occurrences (entries : Table String Entry) (doc : Int) : List Int :=
  (entries.keys.mergeSort fun a b => !decide (b < a)).flatMap fun t =>
    (((entries.get? t).elim [] Entry.postings).filter (·.doc = doc)).map Posting.tf

theorem occurrences_empty (doc : Int) : occurrences ∅ doc = [] := by
  simp [occurrences]

variable {α : Type} [Scoring α]

/-- A document has a norm, and it is the one that its postings give. -/
def Index.Recomputes (ix : Index α) (doc : Int) : Prop :=
  ∃ x, ix.norms.get? doc = some x ∧ Quantity.documentNorm ((occurrences ix.entries doc).map .integer) = .ok x

/-! ### Norms of counts -/

/-- Counts of at least one have a norm, however they are given. -/
theorem Quantity.documentNorm_natCast {tfs : List Nat} (h : ∀ tf ∈ tfs, 1 ≤ tf) :
    Quantity.documentNorm ((tfs.map fun (tf : Nat) => (tf : Int)).map .integer) =
      .ok (Retrieval.documentNorm tfs : α) := by
  have weight : ∀ tf ∈ tfs, Quantity.weight (.integer (tf : Int) : Quantity α) = .ok (occurrenceWeight tf) := by
    intro tf mem
    have positive := h tf mem
    rw [Quantity.weight, Quantity.logarithm, if_neg (by omega)]
    rfl
  have weights := mapM_eq_ok_map weight
  rw [Quantity.documentNorm, List.mapM_map, List.mapM_map]
  exact congrArg (Except.map euclideanNorm) weights

/-! ### The postings of a document -/

namespace Addition

variable {as : List Addition}

/-- Documents with ascending ids are told apart by their ids. -/
theorem filter_doc_eq (ascending : (as.map doc).Pairwise (· < ·)) {a : Addition} (mem : a ∈ as) :
    as.filter (·.doc = a.doc) = [a] := by
  obtain ⟨before, after, rfl⟩ := List.append_of_mem mem
  rw [List.map_append, List.map_cons, List.pairwise_append, List.pairwise_cons] at ascending
  obtain ⟨-, ⟨later, -⟩, earlier⟩ := ascending
  have none_before : before.filter (·.doc = a.doc) = [] := by
    rw [List.filter_eq_nil_iff]
    intro b hb same
    have := earlier b.doc (List.mem_map_of_mem hb) a.doc (List.mem_cons_self ..)
    simp only [decide_eq_true_eq] at same
    omega
  have none_after : after.filter (·.doc = a.doc) = [] := by
    rw [List.filter_eq_nil_iff]
    intro b hb same
    have := later b.doc (List.mem_map_of_mem hb)
    simp only [decide_eq_true_eq] at same
    omega
  rw [List.filter_append, List.filter_cons_of_pos (by simp), none_before, none_after, List.nil_append]

/-- Under a term a document has one posting, or none if it does not have the term. -/
theorem tf_postings (ascending : (as.map doc).Pairwise (· < ·)) {a : Addition} (mem : a ∈ as) (t : String) :
    ((postings as t).filter (·.doc = a.doc)).map Posting.tf =
      if t ∈ a.terms then [((a.terms.count t : Nat) : Int)] else [] := by
  have own : (as.filter (t ∈ ·.terms)).filter (·.doc = a.doc) = [a].filter (t ∈ ·.terms) := by
    rw [← filter_doc_eq ascending mem, List.filter_filter, List.filter_filter]
    exact List.filter_congr fun b _ => Bool.and_comm ..
  rw [postings, List.filter_map, List.map_map]
  show ((as.filter (t ∈ ·.terms)).filter (·.doc = a.doc)).map _ = _
  rw [own]
  by_cases occurs : t ∈ a.terms <;> simp [occurs]

end Addition

theorem termCounts_nil : termCounts [] = [] := by
  simp [termCounts, counts]

/-- Of ascending terms that include those of a document, the latter are the terms that it is counted by. -/
theorem filter_eq_map_fst_termCounts {ts terms : List String} (ascending : ts.Pairwise (· < ·))
    (all : ∀ t ∈ terms, t ∈ ts) : ts.filter (· ∈ terms) = (termCounts terms).map Prod.fst := by
  have kept : (ts.filter (· ∈ terms)).Pairwise (· < ·) := ascending.sublist List.filter_sublist
  have counted := ascending_termCounts terms
  have perm : (ts.filter (· ∈ terms)).Perm ((termCounts terms).map Prod.fst) := by
    rw [List.perm_ext_iff_of_nodup (kept.imp ne_of_lt) (counted.imp ne_of_lt)]
    intro t
    rw [mem_termCounts_iff, List.mem_filter, decide_eq_true_iff]
    exact and_iff_right_of_imp (all t)
  exact perm.eq_of_pairwise (fun _ _ _ _ lt gt => absurd lt (lt_asymm gt)) kept counted

theorem flatMap_ite_singleton (p : String → Prop) [DecidablePred p] (f : String → Int) (ts : List String) :
    (ts.flatMap fun t => if p t then [f t] else []) = (ts.filter (p ·)).map f := by
  induction ts with
  | nil => rfl
  | cons t ts ih => by_cases h : p t <;> simp [h, ih]

theorem map_count_termCounts (terms : List String) :
    ((termCounts terms).map Prod.fst).map (fun t => ((terms.count t : Nat) : Int)) =
      ((termCounts terms).map Prod.snd).map fun (tf : Nat) => (tf : Int) := by
  rw [termCounts, counts, List.map_map, List.map_map, List.map_map, List.map_map]
  refine List.map_congr_left fun t _ => ?_
  exact congrArg Nat.cast ((List.mergeSort_perm terms _).count_eq t).symm

namespace Accumulator
open Addition

variable {acc : Accumulator α} {as : List Addition}

/-- The postings of a document are its counts, in the order of the terms. -/
theorem Contents.occurrences_entries (h : Contents acc as) {a : Addition} (mem : a ∈ as) :
    occurrences acc.entries a.doc = ((termCounts a.terms).map Prod.snd).map fun (tf : Nat) => (tf : Int) := by
  let terms := acc.entries.keys.mergeSort fun a b => !decide (b < a)
  have ascending : terms.Pairwise (· < ·) := by
    have once : terms.Nodup := (List.mergeSort_perm _ _).nodup_iff.2 acc.entries.nodup
    exact ((Artifact.ascending_mergeSort _).and once).imp fun order => lt_of_le_of_ne order.1 order.2
  have all : ∀ t ∈ a.terms, t ∈ terms := fun t occurs =>
    List.mem_mergeSort.2 ((h.mem_terms_index none t).2 ⟨a, mem, occurs⟩)
  have posted (t : String) : (acc.entries.get? t).elim [] Entry.postings = postings as t := h.postings_index none t
  calc occurrences acc.entries a.doc
      = terms.flatMap fun t => if t ∈ a.terms then [((a.terms.count t : Nat) : Int)] else [] := by
        refine List.flatMap_congr fun t _ => ?_
        rw [posted, tf_postings h.ascending mem]
    _ = (terms.filter (· ∈ a.terms)).map fun t => ((a.terms.count t : Nat) : Int) := flatMap_ite_singleton ..
    _ = _ := by rw [filter_eq_map_fst_termCounts ascending all, map_count_termCounts]

/-- The entries of what was added give each document its norm back. -/
theorem Contents.documentNorm_occurrences (h : Contents acc as) {a : Addition} (mem : a ∈ as) :
    Quantity.documentNorm ((occurrences acc.entries a.doc).map .integer) =
      .ok (documentNorm ((termCounts a.terms).map Prod.snd) : α) := by
  rw [h.occurrences_entries mem]
  exact Quantity.documentNorm_natCast (List.forall_mem_map.2 fun _ => one_le_of_mem_termCounts)

/-- A document with a posting has a norm. -/
theorem Contents.mem_norms_of_posting (h : Contents acc as) (stopWords : Option (List Value)) {t : String} {d : Int}
    (posted : d ∈ (acc.index stopWords).docs t) : d ∈ acc.norms.keys := by
  rw [h.docs_index] at posted
  rw [h.docs]
  exact (List.filter_sublist.map doc).subset posted

/-! ### Indexes that were taken earlier -/

/-- The documents that are accepted later come behind those accepted before. -/
theorem exists_run_append (mode : AggregateMode) (as later : List Addition) :
    ∃ more, (run (α := α) mode (as ++ later)).2 = (run (α := α) mode as).2 ++ more := by
  induction later using List.reverseRecOn with
  | nil => exact ⟨[], by rw [List.append_nil, List.append_nil]⟩
  | append_singleton later a ih =>
    obtain ⟨more, split⟩ := ih
    rw [← List.append_assoc, run_append, offer]
    split
    · exact ⟨more ++ [a], by rw [split, List.append_assoc]⟩
    · exact ⟨more, split⟩

section Later

variable {acc' : Accumulator α} {more : List Addition} (h : Contents acc as)
include h

/-- An accumulator without entries holds documents without terms. -/
theorem Contents.terms_eq_nil (none : acc.entries.keys = []) {a : Addition} (mem : a ∈ as) : a.terms = [] := by
  rw [List.eq_nil_iff_forall_not_mem]
  intro t occurs
  have key : t ∈ acc.entries.keys := (h.mem_terms_index .none t).2 ⟨a, mem, occurs⟩
  rw [none] at key
  cases key

/-- An accumulator with entries holds a document. -/
theorem Contents.exists_mem (some : acc.entries.keys ≠ []) : ∃ a, a ∈ as := by
  obtain ⟨t, key⟩ := List.exists_mem_of_ne_nil _ some
  obtain ⟨a, mem, -⟩ := (h.mem_terms_index .none t).1 key
  exact ⟨a, mem⟩

/-- An index that has a document shows the norms that are there by now. -/
theorem Contents.norms_view {a : Addition} (mem : a ∈ as) (acc' : Accumulator α) (stopWords : Option (List Value)) :
    (acc'.view (acc.window stopWords)).norms = acc'.norms := by
  have key : a.doc ∈ acc.norms.keys := by
    rw [h.docs]
    exact List.mem_map_of_mem mem
  have some : acc.norms.isEmpty = false := by
    rw [← Bool.not_eq_true, Table.isEmpty_iff]
    exact List.ne_nil_of_mem key
  exact if_pos (by simp [window, some])

variable (h' : Contents acc' (as ++ more)) (stopWords : Option (List Value))
include h'

/-- The norms of the documents of an index are given back also when more documents have come in. -/
theorem Contents.recomputes_view {a : Addition} (mem : a ∈ as) :
    (acc'.view (acc.window stopWords)).Recomputes a.doc := by
  have here : a ∈ as ++ more := List.mem_append_left more mem
  refine ⟨_, h.norms_view mem acc' stopWords ▸ h'.norms a here, ?_⟩
  cases none : acc.entries.isEmpty with
  | false =>
    have entries : (acc'.view (acc.window stopWords)).entries = acc'.entries := if_pos (by simp [window, none])
    rw [entries]
    exact h'.documentNorm_occurrences here
  | true =>
    have entries : (acc'.view (acc.window stopWords)).entries = ∅ := if_neg (by simp [window, none])
    rw [entries, h.terms_eq_nil (Table.isEmpty_iff.1 none) mem, occurrences_empty, termCounts_nil]
    rfl

/-- A document with a posting has a norm also when more documents have come in. -/
theorem Contents.mem_norms_view {t : String} {d : Int} (posted : d ∈ (acc'.view (acc.window stopWords)).docs t) :
    d ∈ (acc'.view (acc.window stopWords)).norms.keys := by
  rw [Index.docs] at posted
  cases none : acc.entries.isEmpty with
  | false =>
    have entries : (acc'.view (acc.window stopWords)).entries = acc'.entries := if_pos (by simp [window, none])
    rw [entries] at posted
    obtain ⟨a, mem⟩ := h.exists_mem (mt Table.isEmpty_iff.2 (by simp [none]))
    rw [h.norms_view mem acc' stopWords]
    exact h'.mem_norms_of_posting stopWords posted
  | true =>
    have entries : (acc'.view (acc.window stopWords)).entries = ∅ := if_neg (by simp [window, none])
    rw [entries] at posted
    cases posted

end Later

/-- **Norms agree with postings.** The norm of each document is the one that its counts give, collected from all postings
lists in the order of the terms: so it can be computed anew from the entries alone, to the last digit, whatever the
arithmetic. A document without postings has the norm of no counts, and each document with a posting has a norm. For the
documents of an index all this stays as it is when more documents are added after it has been taken. -/
theorem norms_of_postings (mode : AggregateMode) (as later : List Addition) (stopWords : Option (List Value)) :
    let acc : Accumulator α := (run mode as).1
    let ix := acc.index stopWords
    let ix' := (run (α := α) mode (as ++ later)).1.view (acc.window stopWords)
    -- the index of what has been accepted
    ix.norms.keys = (run (α := α) mode as).2.map doc ∧
    (∀ d ∈ ix.norms.keys, ix.Recomputes d) ∧
    (∀ d ∈ ix.norms.keys, (∀ t, d ∉ ix.docs t) → ix.norms.get? d = some (documentNorm [])) ∧
    (∀ t, ∀ d ∈ ix.docs t, d ∈ ix.norms.keys) ∧
    -- the same index when more has been accepted
    (∀ d ∈ ix'.allDocs, ix'.Recomputes d) ∧
    ∀ t, ∀ d ∈ ix'.docs t, d ∈ ix'.norms.keys := by
  intro acc ix ix'
  obtain ⟨contents, -, -⟩ := contents_run (α := α) mode as
  obtain ⟨contents', -, -⟩ := contents_run (α := α) mode (as ++ later)
  obtain ⟨more, split⟩ := exists_run_append (α := α) mode as later
  rw [split] at contents'
  have docs : ix.norms.keys = (run (α := α) mode as).2.map doc := contents.docs
  refine ⟨docs, fun d key => ?_, fun d key none => ?_, fun t d => contents.mem_norms_of_posting stopWords,
    fun d known => ?_, fun t d => contents.mem_norms_view contents' stopWords⟩
  · rw [docs] at key
    obtain ⟨a, mem, rfl⟩ := List.mem_map.1 key
    exact ⟨_, contents.norms a mem, contents.documentNorm_occurrences mem⟩
  · rw [docs] at key
    obtain ⟨a, mem, rfl⟩ := List.mem_map.1 key
    have empty : a.terms = [] := by
      rw [List.eq_nil_iff_forall_not_mem]
      intro t occurs
      refine none t ?_
      rw [contents.docs_index]
      exact List.mem_map_of_mem (List.mem_filter.2 ⟨mem, by simpa using occurs⟩)
    have norm := contents.norms a mem
    rw [empty, termCounts_nil] at norm
    exact norm
  · have known : d ∈ (acc.index stopWords).allDocs := known
    rw [contents.allDocs_index] at known
    obtain ⟨a, mem, rfl⟩ := List.mem_map.1 known
    exact contents.recomputes_view contents' stopWords mem

end Accumulator
end Retrieval
