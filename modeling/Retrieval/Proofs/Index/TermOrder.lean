import Retrieval.Proofs.Persistence

/-!
# The order of the terms of an index

The terms of a document are sorted before they are counted, so that the counts depend only on how often each term occurs
(`termCounts_of_perm`), and come in the order of the terms (`ascending_termCounts`). A document puts its new terms behind
those that are there (`keys_extendEntries`). So the terms of an index come in the order of the first documents in which
they occur, and those of one document in the order of their code points (`ordered_of_addAll`); and documents with the
same terms have the same index, in whatever order and on whatever lines the terms stand (`addAll_congr`).
-/

set_option autoImplicit false

namespace Retrieval
open Json (Value)

/-! ### Counting the terms of a document -/

/-- Sorting forgets the order. -/
theorem mergeSort_of_perm {ts us : List String} (same : ts.Perm us) :
    (ts.mergeSort fun a b => !decide (b < a)) = us.mergeSort fun a b => !decide (b < a) := by
  apply List.Perm.eq_of_pairwise (fun a b _ _ => String.le_antisymm) (Artifact.ascending_mergeSort ts)
    (Artifact.ascending_mergeSort us)
  exact (List.mergeSort_perm ts _).trans (same.trans (List.mergeSort_perm us _).symm)

/-- The counts depend only on how often each term occurs. -/
theorem termCounts_of_perm {ts us : List String} (same : ts.Perm us) : termCounts ts = termCounts us := by
  rw [termCounts, termCounts, mergeSort_of_perm same]

theorem ascending_eraseDups {ts : List String} (h : ts.Pairwise (· ≤ ·)) : ts.eraseDups.Pairwise (· < ·) := by
  induction size : ts.length using Nat.strongRecOn generalizing ts with
  | ind n ih =>
    cases ts with
    | nil => exact List.Pairwise.nil
    | cons t ts =>
      obtain ⟨first, others⟩ := List.pairwise_cons.1 h
      have shorter := List.length_filter_le (fun s => !s == t) ts
      rw [List.length_cons] at size
      rw [List.eraseDups_cons, List.pairwise_cons]
      refine ⟨fun s mem => ?_, ih _ (by omega) (others.sublist List.filter_sublist) rfl⟩
      obtain ⟨mem, ne⟩ := List.mem_filter.1 (List.mem_eraseDups.1 mem)
      exact lt_of_le_of_ne (first s mem) fun e => by simp [e] at ne

/-- The terms of a document are counted in ascending order. -/
theorem ascending_termCounts (terms : List String) : ((termCounts terms).map Prod.fst).Pairwise (· < ·) := by
  rw [termCounts, map_fst_counts]
  exact ascending_eraseDups (Artifact.ascending_mergeSort terms)

theorem mem_termCounts_iff {terms : List String} {t : String} : t ∈ (termCounts terms).map Prod.fst ↔ t ∈ terms := by
  rw [termCounts, map_fst_counts, List.mem_eraseDups, List.mem_mergeSort]

/-! ### The order in which terms come -/

namespace Addition

/-- The first document in which a term occurs. -/
def first? (as : List Addition) (t : String) : Option Int := (as.find? (t ∈ ·.terms)).map doc

/-- Whether a term comes before another one: in an earlier document first, or in the same and with a smaller text. -/
def Before (as : List Addition) (s t : String) : Prop :=
  ∃ i j, first? as s = some i ∧ first? as t = some j ∧ (i < j ∨ i = j ∧ s < t)

theorem first?_append_of_some {as : List Addition} {t : String} {i : Int} (h : first? as t = some i) (a : Addition) :
    first? (as ++ [a]) t = some i := by
  obtain ⟨b, found, rfl⟩ := Option.map_eq_some_iff.1 h
  rw [first?, List.find?_append, found]
  rfl

theorem first?_append_of_none {as : List Addition} {t : String} (h : ¬ ∃ a ∈ as, t ∈ a.terms) {a : Addition}
    (mem : t ∈ a.terms) : first? (as ++ [a]) t = some a.doc := by
  have none_before : as.find? (t ∈ ·.terms) = none := by
    rw [List.find?_eq_none]
    exact fun b hb occurs => h ⟨b, hb, by simpa using occurs⟩
  rw [first?, List.find?_append, none_before]
  simp [mem]

theorem exists_first? {as : List Addition} {t : String} (h : ∃ a ∈ as, t ∈ a.terms) :
    ∃ a ∈ as, first? as t = some a.doc := by
  obtain ⟨a, ha, mem⟩ := h
  have some_there : (as.find? (t ∈ ·.terms)).isSome = true := by
    rw [List.find?_isSome]
    exact ⟨a, ha, by simpa using mem⟩
  obtain ⟨b, found⟩ := Option.isSome_iff_exists.1 some_there
  exact ⟨b, List.mem_of_find?_eq_some found, by rw [first?, found]; rfl⟩

end Addition

namespace Accumulator
open Addition

variable {α : Type}

/-- A document puts its new terms behind those that are there. -/
theorem keys_extendEntries (mode : AggregateMode) (doc : Int) {counted : List (String × Nat)}
    (once : (counted.map Prod.fst).Nodup) (entries : Table String Entry) :
    (extendEntries mode doc entries counted).keys =
      entries.keys ++ (counted.map Prod.fst).filter (· ∉ entries.keys) := by
  induction counted generalizing entries with
  | nil => simp [extendEntries]
  | cons p counted ih =>
    obtain ⟨s, tf⟩ := p
    obtain ⟨fresh, once⟩ := List.nodup_cons.1 once
    have step : extendEntries mode doc entries ((s, tf) :: counted) =
        extendEntries mode doc (entries.alter s (extendEntry mode doc tf)) counted := rfl
    rw [step, ih once, Table.keys_alter, List.map_cons]
    by_cases there : s ∈ entries.keys
    · rw [if_pos there, List.filter_cons_of_neg (by simpa using there)]
    · rw [if_neg there, List.filter_cons_of_pos (by simpa using there), List.append_assoc, List.singleton_append]
      congr 2
      apply List.filter_congr
      intro t mem
      have ne : t ≠ s := fun e => fresh (e ▸ mem)
      simp [ne]

variable [Scoring α]

theorem entries_of_add {acc acc' : Accumulator α} {a : Addition}
    (added : acc.add a.doc a.terms a.metadata = .ok acc') :
    acc'.entries = extendEntries acc.mode a.doc acc.entries (termCounts a.terms) := by
  rw [add] at added
  split at added
  · cases added
  · cases added
    rfl

/-- **The order of the terms.** They come in the order of the first documents in which they occur, and those of one
document in ascending order. -/
theorem ordered_of_addAll {mode : AggregateMode} {as : List Addition} {acc : Accumulator α}
    (h : addAll mode as = .ok acc) : acc.entries.keys.Pairwise (Before as) := by
  induction as using List.reverseRecOn generalizing acc with
  | nil =>
    cases h
    exact List.Pairwise.nil
  | append_singleton as a ih =>
    have later := (contents_run (α := α) mode (as ++ [a])).1.ascending
    rw [run_of_addAll h, List.map_append, List.pairwise_append] at later
    obtain ⟨acc', before, added⟩ := exists_of_bind (addAll_append (α := α) mode as a ▸ h)
    have contents := (contents_run (α := α) mode as).1
    rw [run_of_addAll before] at contents
    have occurs {t : String} : t ∈ acc'.entries.keys ↔ ∃ a ∈ as, t ∈ a.terms := contents.mem_terms_index none t
    rw [entries_of_add added, keys_extendEntries _ _ (nodup_termCounts a.terms), List.pairwise_append]
    have new {t : String} (ht : t ∈ ((termCounts a.terms).map Prod.fst).filter (· ∉ acc'.entries.keys)) :
        first? (as ++ [a]) t = some a.doc := by
      obtain ⟨mem, fresh⟩ := List.mem_filter.1 ht
      refine first?_append_of_none (fun h => ?_) (mem_termCounts_iff.1 mem)
      simp [occurs.2 h] at fresh
    refine ⟨(ih before).imp ?_, ?_, fun s hs t ht => ?_⟩
    · rintro s t ⟨i, j, hi, hj, order⟩
      exact ⟨i, j, first?_append_of_some hi a, first?_append_of_some hj a, order⟩
    · -- among the new terms the document decides nothing, and they ascend
      refine ((ascending_termCounts a.terms).sublist List.filter_sublist).imp_of_mem fun hs ht lt => ?_
      exact ⟨_, _, new hs, new ht, .inr ⟨rfl, lt⟩⟩
    · obtain ⟨b, hb, first⟩ := exists_first? (occurs.1 hs)
      exact ⟨_, _, first?_append_of_some first a, new ht,
        .inl (later.2.2 b.doc (List.mem_map_of_mem hb) a.doc (by simp))⟩

/-- Documents with the same ids, terms and metadata give the same accumulator, whatever the order of the terms. -/
theorem addAll_congr (mode : AggregateMode) {as bs : List Addition}
    (same : List.Forall₂ (fun a b => a.doc = b.doc ∧ a.metadata = b.metadata ∧ a.terms.Perm b.terms) as bs) :
    addAll (α := α) mode as = addAll mode bs := by
  rw [addAll, addAll]
  generalize ({ mode } : Accumulator α) = acc
  induction same generalizing acc with
  | nil => rfl
  | @cons a b as bs first _ ih =>
    obtain ⟨doc, metadata, terms⟩ := first
    have step : acc.add a.doc a.terms a.metadata = acc.add b.doc b.terms b.metadata := by
      rw [add, add, doc, metadata, termCounts_of_perm terms]
    rw [List.foldlM_cons, List.foldlM_cons, step]
    exact congrArg _ (funext ih)

end Accumulator

/-! ### The index of documents -/

/-- The first document in which a term occurs. -/
def firstDoc? (normalizer : Normalizer) (documents : List Source) (term : String) : Option Int :=
  (documents.find? fun d => term ∈ normalizer.termsOfLines d.lines).map Source.id

theorem first?_additions (normalizer : Normalizer) (documents : List Source) (term : String) :
    Addition.first? (documents.map (Source.addition normalizer)) term = firstDoc? normalizer documents term := by
  rw [Addition.first?, List.find?_map, Option.map_map]
  rfl

/-- The same words are stored in the same way, in whatever order and how often they are given. -/
theorem storedWords_congr {words words' : List String} (same : ∀ w, w ∈ words ↔ w ∈ words')
    (stem stem' : String → String) : storedWords (.ofWords words stem) = storedWords (.ofWords words' stem') := by
  have perm : words.eraseDups.Perm words'.eraseDups := by
    rw [List.perm_ext_iff_of_nodup (nodup_eraseDups words) (nodup_eraseDups words')]
    intro w
    rw [List.mem_eraseDups, List.mem_eraseDups, same]
  rw [storedWords_ofWords, storedWords_ofWords, mergeSort_of_perm perm]

variable {α : Type} [Scoring α]

/-- Documents with the same terms have the same index. -/
theorem buildIndex_congr (mode : AggregateMode) {words words' : List String} (same : ∀ w, w ∈ words ↔ w ∈ words')
    {stem stem' : String → String} {documents documents' : List Source}
    (alike : List.Forall₂ (fun d d' => d.id = d'.id ∧ d.metadata = d'.metadata ∧
      ((Normalizer.ofWords words stem).termsOfLines d.lines).Perm
        ((Normalizer.ofWords words' stem').termsOfLines d'.lines)) documents documents') :
    buildIndex (α := α) mode (.ofWords words stem) documents = buildIndex mode (.ofWords words' stem') documents' := by
  have additions := Accumulator.addAll_congr (α := α) mode
    (List.forall₂_map_left_iff.2 (List.forall₂_map_right_iff.2 alike) :
      List.Forall₂ (fun a b => a.doc = b.doc ∧ a.metadata = b.metadata ∧ a.terms.Perm b.terms)
        (documents.map (Source.addition (.ofWords words stem)))
        (documents'.map (Source.addition (.ofWords words' stem'))))
  rw [buildIndex_eq, buildIndex_eq, additions, storedWords_congr same stem stem']

/-- **An index is canonical.** Its terms are those of its documents, each once: they come in the order of the first
documents in which they occur, and those of one document in the order of their code points. What is built depends only on
the ids of the documents, what is known of them, how often each term occurs in each of them, the mode and the set of the
stop words: not on the order of the terms, on the lines that they stand on, or on the number of workers. It is the same
to the last digit of its norms, whatever the arithmetic, and so is the text under which it is stored. -/
theorem build_canonical (mode : AggregateMode) :
    (∀ (normalizer : Normalizer) (workers : Value) (documents : List Source) (ix : Index α),
      buildIndexWith mode normalizer workers documents = .ok ix →
        (∀ t, t ∈ ix.terms ↔ ∃ d ∈ documents, t ∈ normalizer.termsOfLines d.lines) ∧
        ix.terms.Pairwise fun s t => ∃ i j, firstDoc? normalizer documents s = some i ∧
          firstDoc? normalizer documents t = some j ∧ (i < j ∨ i = j ∧ s < t)) ∧
    ∀ (words words' : List String) (stem stem' : String → String) (workers workers' : Value)
      (documents documents' : List Source),
      (∀ w, w ∈ words ↔ w ∈ words') → workers.isNumber = true → workers'.isNumber = true →
      List.Forall₂ (fun d d' => d.id = d'.id ∧ d.metadata = d'.metadata ∧
        ((Normalizer.ofWords words stem).termsOfLines d.lines).Perm
          ((Normalizer.ofWords words' stem').termsOfLines d'.lines)) documents documents' →
      buildIndexWith (α := α) mode (.ofWords words stem) workers documents =
        buildIndexWith mode (.ofWords words' stem') workers' documents' ∧
      ∀ write : α → Value,
        (buildIndexWith mode (.ofWords words stem) workers documents).map (fun ix => (Artifact.ofIndex write ix).print) =
          (buildIndexWith mode (.ofWords words' stem') workers' documents').map
            fun ix => (Artifact.ofIndex write ix).print := by
  refine ⟨fun normalizer workers documents ix built => ⟨fun t => ?_, ?_⟩,
    fun words words' stem stem' workers workers' documents documents' same number number' alike => ?_⟩
  · obtain ⟨acc, rfl, -, contents⟩ := contents_of_build built
    rw [contents.mem_terms_index]
    simp [Source.addition]
  · obtain ⟨acc, added, rfl⟩ := addAll_of_build built
    refine (Accumulator.ordered_of_addAll added).imp ?_
    rintro s t ⟨i, j, hi, hj, order⟩
    rw [first?_additions] at hi hj
    exact ⟨i, j, hi, hj, order⟩
  · have equal : buildIndexWith (α := α) mode (.ofWords words stem) workers documents =
        buildIndexWith mode (.ofWords words' stem') workers' documents' := by
      rw [buildIndexWith, buildIndexWith, if_pos number, if_pos number', buildIndex_congr mode same alike]
    exact ⟨equal, fun write => by rw [equal]⟩

/-- Documents whose terms stand in another order and on other lines have the same index. -/
theorem build_canonical_of_other_lines :
    let title : Metadata := [(.string "title", .string "waves")]
    let documents : List Source := [⟨1, ["The shocks of", "waves"], some title⟩, ⟨4, ["flow"], none⟩]
    let documents' : List Source := [⟨1, ["wave", "", "shock"], some title⟩, ⟨4, ["of the", "flow"], none⟩]
    ∃ ix : Index Float,
      buildIndexWith .documents (.ofWords ["the", "of"] Stemmer.porter) (.integer 1) documents = .ok ix ∧
      buildIndexWith .documents (.ofWords ["of", "the", "of"] Stemmer.porter) (.integer 4) documents' = .ok ix ∧
      ∀ t ∈ ix.terms, firstDoc? (.ofWords ["the", "of"] Stemmer.porter) documents t ≠ none := by
  intro title documents documents'
  have first : Normalizer.termsOfLines (.ofWords ["the", "of"] Stemmer.porter) ["The shocks of", "waves"] =
      ["shock", "wave"] := by decide +kernel
  have first' : Normalizer.termsOfLines (.ofWords ["of", "the", "of"] Stemmer.porter) ["wave", "", "shock"] =
      ["wave", "shock"] := by decide +kernel
  have second : Normalizer.termsOfLines (.ofWords ["the", "of"] Stemmer.porter) ["flow"] = ["flow"] := by
    decide +kernel
  have second' : Normalizer.termsOfLines (.ofWords ["of", "the", "of"] Stemmer.porter) ["of the", "flow"] =
      ["flow"] := by decide +kernel
  have alike : List.Forall₂ (fun d d' => d.id = d'.id ∧ d.metadata = d'.metadata ∧
      ((Normalizer.ofWords ["the", "of"] Stemmer.porter).termsOfLines d.lines).Perm
        ((Normalizer.ofWords ["of", "the", "of"] Stemmer.porter).termsOfLines d'.lines)) documents documents' := by
    refine .cons ⟨rfl, rfl, ?_⟩ (.cons ⟨rfl, rfl, ?_⟩ .nil)
    · rw [first, first']
      exact List.Perm.swap ..
    · rw [second, second']
  have words : ∀ w, w ∈ ["the", "of"] ↔ w ∈ ["of", "the", "of"] := by
    simp only [List.mem_cons, List.not_mem_nil, or_false]
    tauto
  obtain ⟨order, equal⟩ := build_canonical (α := Float) .documents
  obtain ⟨same, -⟩ := equal _ _ _ _ (.integer 1) (.integer 4) _ _ words rfl rfl alike
  have ascending : (documents.map Source.id).Pairwise (· < ·) := by decide
  obtain ⟨acc, built, -⟩ := buildIndex_of_ascending (α := Float) .documents
    (.ofWords ["the", "of"] Stemmer.porter) ascending
  have number : (Value.integer 1).isNumber = true := rfl
  have built : buildIndexWith .documents (.ofWords ["the", "of"] Stemmer.porter) (.integer 1) documents =
      .ok (acc.index (some (storedWords (.ofWords ["the", "of"] Stemmer.porter)))) := by
    rw [buildIndexWith, if_pos number, built]
    rfl
  refine ⟨_, built, same.symm.trans built, fun t mem missing => ?_⟩
  obtain ⟨d, hd, occurs⟩ := ((order _ _ _ _ built).1 t).1 mem
  rw [firstDoc?, Option.map_eq_none_iff, List.find?_eq_none] at missing
  exact missing d hd (by simpa using occurs)

end Retrieval
