import Mathlib.Algebra.Ring.Int.Defs
import Mathlib.Data.List.Induction
import Retrieval.Index.Accumulator
import Retrieval.Proofs.Table

/-!
# What an accumulator holds

`Contents acc as` says that an accumulator holds exactly the documents `as`: each term that occurs in one of them
with its postings and aggregate, a norm for each document, the metadata of those that have some, and the last id. It
is kept by adding a later document (`Contents.add`), and a run in which refused documents are passed over ends with
the contents of the accepted ones (`contents_run`).
-/

set_option autoImplicit false

namespace Retrieval

/-! ### Counting the terms of a document -/

theorem nodup_eraseDups {α : Type} [BEq α] [LawfulBEq α] (xs : List α) : xs.eraseDups.Nodup := by
  induction h : xs.length using Nat.strongRecOn generalizing xs with
  | ind n ih =>
    cases xs with
    | nil => simp
    | cons x xs =>
      rw [List.eraseDups_cons, List.nodup_cons]
      constructor
      · simp [List.mem_eraseDups]
      · have := List.length_filter_le (fun y => !y == x) xs
        exact ih _ (by simp only [List.length_cons] at h; omega) _ rfl

theorem map_fst_counts (ts : List String) : (counts ts).map Prod.fst = ts.eraseDups := by
  simp [counts, Function.comp_def]

theorem lookup_counts (ts : List String) (t : String) :
    (counts ts).lookup t = if t ∈ ts then some (ts.count t) else none := by
  simp only [← List.mem_eraseDups (l := ts), counts]
  induction ts.eraseDups with
  | nil => rfl
  | cons s l ih =>
    rw [List.map_cons, Table.lookup_cons_eq, ih]
    by_cases h : t = s <;> simp [h]

theorem nodup_termCounts (terms : List String) : ((termCounts terms).map Prod.fst).Nodup := by
  rw [termCounts, map_fst_counts]
  exact nodup_eraseDups _

/-- Sorting the terms first does not change how often each of them occurs. -/
theorem lookup_termCounts (terms : List String) (t : String) :
    (termCounts terms).lookup t = if t ∈ terms then some (terms.count t) else none := by
  simp only [termCounts, lookup_counts, List.mem_mergeSort, (List.mergeSort_perm terms _).count_eq]

/-- Terms that are counted occur. -/
theorem one_le_of_mem_termCounts {terms : List String} {p : String × Nat} (h : p ∈ termCounts terms) : 1 ≤ p.2 := by
  obtain ⟨t, n⟩ := p
  have found := Table.lookup_of_mem (nodup_termCounts terms) h
  rw [lookup_termCounts] at found
  split at found
  · cases found
    exact List.count_pos_iff.2 ‹t ∈ terms›
  · cases found

/-! ### Documents as they are offered -/

/-- A document that is offered to an accumulator. -/
structure Addition where
  doc : Int
  terms : List String
  metadata : Option Metadata

namespace Addition

/-- The postings of a term in documents. -/
def postings (as : List Addition) (t : String) : List Posting :=
  (as.filter (t ∈ ·.terms)).map fun a => ⟨a.doc, (a.terms.count t : Nat)⟩

/-- Whether an id is greater than those of all documents. -/
def later (as : List Addition) (doc : Int) : Bool := as.all fun a => decide (a.doc < doc)

theorem later_iff {as : List Addition} {doc : Int} : later as doc = true ↔ ∀ a ∈ as, a.doc < doc := by
  simp [later]

theorem postings_append (as : List Addition) (a : Addition) (t : String) :
    postings (as ++ [a]) t = postings as t ++ if t ∈ a.terms then [⟨a.doc, (a.terms.count t : Nat)⟩] else [] := by
  by_cases h : t ∈ a.terms <;> simp [postings, List.filter_append, h]

theorem postings_eq_nil_iff {as : List Addition} {t : String} : postings as t = [] ↔ ¬ ∃ a ∈ as, t ∈ a.terms := by
  simp [postings]

/-- The postings of a term ascend, as far as the documents do. -/
theorem ascending_postings {as : List Addition} (h : (as.map doc).Pairwise (· < ·)) (t : String) :
    ((postings as t).map Posting.doc).Pairwise (· < ·) := by
  have : (postings as t).map Posting.doc = (as.filter (t ∈ ·.terms)).map doc := by
    simp [postings, Function.comp_def]
  rw [this]
  exact h.sublist (List.filter_sublist.map doc)

theorem one_le_tf {as : List Addition} {t : String} {p : Posting} (h : p ∈ postings as t) : 1 ≤ p.tf := by
  obtain ⟨a, ha, rfl⟩ := List.mem_map.1 h
  have : t ∈ a.terms := by simpa using (List.mem_filter.1 ha).2
  have := List.count_pos_iff.2 this
  show 1 ≤ ((a.terms.count t : Nat) : Int)
  omega

end Addition

namespace Accumulator
open Addition

variable {α : Type}

/-- What the aggregate of a term counts: its occurrences or its documents. -/
def total (mode : AggregateMode) (postings : List Posting) : Int :=
  match mode with
  | .occurrences => (postings.map Posting.tf).sum
  | .documents => postings.length

theorem total_append (mode : AggregateMode) (postings : List Posting) (doc : Int) (tf : Nat) :
    total mode (postings ++ [⟨doc, tf⟩]) = total mode postings + increment mode tf := by
  cases mode <;> simp [total, increment]

/-- The entry of a term in documents, none if it occurs in none of them. -/
def entryOf (mode : AggregateMode) (as : List Addition) (t : String) : Option Entry :=
  if postings as t = [] then none else some ⟨total mode (postings as t), postings as t⟩

theorem getD_entryOf (mode : AggregateMode) (as : List Addition) (t : String) :
    (entryOf mode as t).getD ⟨0, []⟩ = ⟨total mode (postings as t), postings as t⟩ := by
  rw [entryOf]
  split
  · rename_i h
    rw [h]
    cases mode <;> rfl
  · rfl

theorem entryOf_append_of_mem {mode : AggregateMode} {as : List Addition} {a : Addition} {t : String}
    (h : t ∈ a.terms) :
    entryOf mode (as ++ [a]) t = some (extendEntry mode a.doc (a.terms.count t) (entryOf mode as t)) := by
  have hp := postings_append as a t
  rw [if_pos h] at hp
  rw [extendEntry, getD_entryOf, entryOf, hp, if_neg (by simp), total_append]

theorem entryOf_append_of_not_mem {mode : AggregateMode} {as : List Addition} {a : Addition} {t : String}
    (h : t ∉ a.terms) : entryOf mode (as ++ [a]) t = entryOf mode as t := by
  have hp := postings_append as a t
  rw [if_neg h, List.append_nil] at hp
  rw [entryOf, hp, entryOf]

/-- What is found under a term after one more document: its entry with one more posting, if the term is counted. -/
theorem get?_extendEntries (mode : AggregateMode) (doc : Int) (counted : List (String × Nat))
    (h : (counted.map Prod.fst).Nodup) (entries : Table String Entry) (t : String) :
    (extendEntries mode doc entries counted).get? t =
      match counted.lookup t with
      | some tf => some (extendEntry mode doc tf (entries.get? t))
      | none => entries.get? t := by
  induction counted generalizing entries with
  | nil => rfl
  | cons p counted ih =>
    obtain ⟨s, tf⟩ := p
    obtain ⟨hs, hrest⟩ := List.nodup_cons.1 h
    have step := ih hrest (entries.alter s (extendEntry mode doc tf))
    rw [Table.get?_alter] at step
    rw [Table.lookup_cons_eq]
    refine Eq.trans step ?_
    by_cases e : t = s
    · have absent : counted.lookup s = none := (Table.lookup_eq_none_iff counted s).2 hs
      simp [e, absent]
    · simp [e]

/-- What an accumulator holds once the documents `as` have been added. -/
structure Contents [Scoring α] (acc : Accumulator α) (as : List Addition) : Prop where
  ascending : (as.map Addition.doc).Pairwise (· < ·)
  entries : ∀ t, acc.entries.get? t = entryOf acc.mode as t
  docs : acc.norms.keys = as.map Addition.doc
  norms : ∀ a ∈ as, acc.norms.get? a.doc = some (documentNorm ((termCounts a.terms).map Prod.snd))
  described : acc.metadata.keys = (as.filter (·.metadata.isSome)).map Addition.doc
  metadata : ∀ a ∈ as, acc.metadata.get? a.doc = a.metadata
  last : acc.last = as.getLast?.map Addition.doc

section Run

variable [Scoring α] {acc : Accumulator α} {as : List Addition}

/-- Nothing has been added to a new accumulator. -/
theorem contents_start (mode : AggregateMode) : Contents ({ mode } : Accumulator α) [] where
  ascending := List.Pairwise.nil
  entries _ := rfl
  docs := rfl
  norms := by simp
  described := rfl
  metadata := by simp
  last := rfl

/-- The last id decides whether a document comes later than all others. -/
theorem Contents.filter_last (h : Contents acc as) (doc : Int) :
    acc.last.filter (doc ≤ ·) = none ↔ later as doc = true := by
  rw [h.last, later_iff]
  have asc := h.ascending
  cases as using List.reverseRecOn with
  | nil => simp
  | append_singleton as b =>
    rw [List.map_append, List.pairwise_append] at asc
    have filtered : (some b.doc).filter (doc ≤ ·) = none ↔ b.doc < doc := by
      simp [Option.filter]
    rw [List.getLast?_concat, Option.map_some, filtered]
    constructor
    · intro hb a ha
      rcases List.mem_append.1 ha with ha | ha
      · have := asc.2.2 a.doc (List.mem_map_of_mem ha) b.doc (by simp)
        omega
      · obtain rfl : a = b := by simpa using ha
        omega
    · intro hall
      have := hall b (by simp)
      omega

/-- The step: a later document is taken in, with all that belongs to it. -/
theorem Contents.add (h : Contents acc as) {a : Addition} (hlater : later as a.doc = true) :
    ∃ acc', acc.add a.doc a.terms a.metadata = .ok acc' ∧ acc'.mode = acc.mode ∧ Contents acc' (as ++ [a]) := by
  have fresh : ∀ b ∈ as, b.doc ≠ a.doc := fun b hb => by
    have := later_iff.1 hlater b hb
    omega
  have new_norm : a.doc ∉ acc.norms.keys := by
    rw [h.docs]
    intro hmem
    obtain ⟨b, hb, e⟩ := List.mem_map.1 hmem
    exact fresh b hb e
  have new_metadata : a.doc ∉ acc.metadata.keys := by
    rw [h.described]
    intro hmem
    obtain ⟨b, hb, e⟩ := List.mem_map.1 hmem
    exact fresh b (List.mem_filter.1 hb).1 e
  rw [Accumulator.add, (h.filter_last a.doc).2 hlater]
  refine ⟨_, rfl, rfl, ?_⟩
  constructor
  case ascending =>
    rw [List.map_append, List.pairwise_append]
    refine ⟨h.ascending, List.pairwise_singleton _ _, fun d hd e he => ?_⟩
    obtain ⟨b, hb, rfl⟩ := List.mem_map.1 hd
    obtain rfl : e = a.doc := by simpa using he
    exact later_iff.1 hlater b hb
  case entries =>
    intro t
    show (extendEntries acc.mode a.doc acc.entries (termCounts a.terms)).get? t = _
    rw [get?_extendEntries _ _ _ (nodup_termCounts _), lookup_termCounts, h.entries]
    by_cases ht : t ∈ a.terms
    · rw [if_pos ht, entryOf_append_of_mem ht]
    · rw [if_neg ht, entryOf_append_of_not_mem ht]
  case docs =>
    show (acc.norms.insert _ _).keys = _
    rw [Table.keys_insert, if_neg new_norm, h.docs, List.map_append]
    rfl
  case norms =>
    intro b hb
    show (acc.norms.insert _ _).get? _ = _
    rw [Table.get?_insert]
    rcases List.mem_append.1 hb with hb | hb
    · rw [if_neg (fresh b hb), h.norms b hb]
    · obtain rfl : b = a := by simpa using hb
      rw [if_pos rfl]
  case described =>
    rw [List.filter_append, List.map_append, ← h.described]
    show (a.metadata.elim acc.metadata (acc.metadata.insert a.doc)).keys = _
    cases hm : a.metadata with
    | none => simp [hm]
    | some m => simp [hm, Table.keys_insert, new_metadata]
  case metadata =>
    intro b hb
    show (a.metadata.elim acc.metadata (acc.metadata.insert a.doc)).get? _ = _
    rcases List.mem_append.1 hb with hb | hb
    · cases a.metadata with
      | none => exact h.metadata b hb
      | some m => rw [Option.elim_some, Table.get?_insert, if_neg (fresh b hb), h.metadata b hb]
    · obtain rfl : b = a := by simpa using hb
      cases hm : b.metadata with
      | none => exact (Table.get?_eq_none_iff _ _).2 new_metadata
      | some m => rw [Option.elim_some, Table.get?_insert, if_pos rfl]
  case last => simp

/-- A document that does not come later is refused. -/
theorem Contents.add_refused (h : Contents acc as) {a : Addition} (hlater : later as a.doc = false) :
    ∃ e, acc.add a.doc a.terms a.metadata = .error e := by
  rw [Accumulator.add]
  cases hf : acc.last.filter (a.doc ≤ ·) with
  | none => simp [(h.filter_last a.doc).1 hf] at hlater
  | some previous => exact ⟨_, rfl⟩

/-- One document is offered: the accumulator, and the documents accepted so far, stay as they were if it is refused. -/
def offer (s : Accumulator α × List Addition) (a : Addition) : Accumulator α × List Addition :=
  match s.1.add a.doc a.terms a.metadata with
  | .ok acc => (acc, s.2 ++ [a])
  | .error _ => s

/-- A document that comes later than those accepted is taken in. -/
theorem Contents.offer_later (h : Contents acc as) {a : Addition} (hlater : later as a.doc = true) :
    ∃ acc', acc.add a.doc a.terms a.metadata = .ok acc' ∧ offer (acc, as) a = (acc', as ++ [a]) ∧
      acc'.mode = acc.mode ∧ Contents acc' (as ++ [a]) := by
  obtain ⟨acc', added, hmode, contents⟩ := h.add hlater
  exact ⟨acc', added, by rw [offer, added], hmode, contents⟩

/-- Of any other document nothing is left. -/
theorem Contents.offer_refused (h : Contents acc as) {a : Addition} (hlater : later as a.doc = false) :
    offer (acc, as) a = (acc, as) := by
  obtain ⟨e, refused⟩ := h.add_refused hlater
  rw [offer, refused]

/-- The accumulator after documents have been offered one after the other, and those that it accepted. -/
def run (mode : AggregateMode) (as : List Addition) : Accumulator α × List Addition := as.foldl offer ({ mode }, [])

theorem run_append (mode : AggregateMode) (as : List Addition) (a : Addition) :
    run (α := α) mode (as ++ [a]) = offer (run mode as) a := by
  rw [run, List.foldl_append]
  rfl

/-- Adds documents one after the other, none of which may be refused. -/
def addAll (mode : AggregateMode) (as : List Addition) : Except Corpus.FormatError (Accumulator α) :=
  as.foldlM (fun acc a => acc.add a.doc a.terms a.metadata) { mode }

theorem addAll_append (mode : AggregateMode) (as : List Addition) (a : Addition) :
    addAll (α := α) mode (as ++ [a]) = (addAll mode as).bind fun acc => acc.add a.doc a.terms a.metadata := by
  rw [addAll, List.foldlM_append]
  show Except.bind _ _ = _
  congr 1
  funext acc
  exact List.foldlM_cons.trans (bind_pure _)

/-- Where no document is refused, all are accepted. -/
theorem run_of_addAll {mode : AggregateMode} {as : List Addition} {acc : Accumulator α}
    (h : addAll mode as = .ok acc) : run mode as = (acc, as) := by
  induction as using List.reverseRecOn generalizing acc with
  | nil =>
    cases h
    rfl
  | append_singleton as a ih =>
    rw [addAll_append] at h
    cases before : addAll (α := α) mode as with
    | error e => simp [before, Except.bind] at h
    | ok acc' =>
      rw [before] at h
      have added : acc'.add a.doc a.terms a.metadata = .ok acc := h
      rw [run_append, ih before, offer, added]

/-- **The run.** An accumulator holds what it accepted, and is the one to which only that has been added. -/
theorem contents_run (mode : AggregateMode) (as : List Addition) :
    Contents (run (α := α) mode as).1 (run (α := α) mode as).2 ∧ (run (α := α) mode as).1.mode = mode ∧
      addAll mode (run (α := α) mode as).2 = .ok (run (α := α) mode as).1 := by
  induction as using List.reverseRecOn with
  | nil => exact ⟨contents_start mode, rfl, rfl⟩
  | append_singleton as a ih =>
    obtain ⟨contents, hmode, alone⟩ := ih
    rw [run_append]
    cases hlater : later (run (α := α) mode as).2 a.doc with
    | true =>
      obtain ⟨acc, added, taken, hmode', contents'⟩ := contents.offer_later hlater
      rw [taken, addAll_append, alone]
      exact ⟨contents', hmode'.trans hmode, added⟩
    | false =>
      rw [contents.offer_refused hlater]
      exact ⟨contents, hmode, alone⟩

/-- Documents in ascending order are all accepted. -/
theorem addAll_of_ascending (mode : AggregateMode) {as : List Addition} (h : (as.map doc).Pairwise (· < ·)) :
    ∃ acc : Accumulator α, addAll mode as = .ok acc ∧ acc.mode = mode ∧ Contents acc as := by
  induction as using List.reverseRecOn with
  | nil => exact ⟨{ mode }, rfl, rfl, contents_start mode⟩
  | append_singleton as a ih =>
    rw [List.map_append, List.pairwise_append] at h
    obtain ⟨acc, added, hmode, contents⟩ := ih h.1
    have hlater : later as a.doc = true :=
      later_iff.2 fun b hb => h.2.2 b.doc (List.mem_map_of_mem hb) a.doc (by simp)
    obtain ⟨acc', added', hmode', contents'⟩ := contents.add hlater
    exact ⟨acc', by rw [addAll_append, added]; exact added', hmode'.trans hmode, contents'⟩

end Run

end Accumulator
end Retrieval
