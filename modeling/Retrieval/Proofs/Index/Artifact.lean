import Mathlib
import Retrieval.Index.Artifact
import Retrieval.Proofs.Json.RoundTrip
import Retrieval.Proofs.Steps
import Retrieval.Proofs.Table

/-!
# Indexes and the values that describe them

An index is `Canonical` if it has the form in which indexes are read, and `Short` if its integers can be read at all.
Such an index is described by a value that can be read back from its text (`readable_ofIndex`), and is the index that
this value describes (`toIndex_ofIndex`).
-/

set_option autoImplicit false

namespace Retrieval
open Json (Value)
open Numeral (Short)

/-- Metadata as they are read from an object: texts stand as keys, each once in the metadata and in all values. -/
structure Metadata.Canonical (m : Metadata) : Prop where
  textual : ∀ p ∈ m, ∃ key, p.1 = .string key
  distinct : (Artifact.ofMetadata m).Distinct

namespace Index

/-- The form in which indexes are read: all that a stored index does not tell follows from what it tells. -/
structure Canonical (ix : Index Float) : Prop where
  allDocs : ix.allDocs = ascendingDocs ix.norms
  metadata : ∀ p ∈ ix.metadata.toList, p.2.Canonical
  stopWords : ∀ words ∈ ix.stopWords, ∃ texts : List String, words = texts.map .string ∧ texts.Pairwise (· ≤ ·)

/-- Whether all integers of an index are short: ids, counts and those in metadata. -/
structure Short (ix : Index Float) : Prop where
  aggregates : ∀ p ∈ ix.entries.toList, Numeral.Short p.2.aggregate
  postings : ∀ p ∈ ix.entries.toList, ∀ q ∈ p.2.postings, Numeral.Short q.doc ∧ Numeral.Short q.tf
  docs : ∀ doc ∈ ix.norms.keys, Numeral.Short doc
  described : ∀ doc ∈ ix.metadata.keys, Numeral.Short doc
  metadata : ∀ p ∈ ix.metadata.toList, (Artifact.ofMetadata p.2).Short

end Index

namespace Artifact

/-! ### The value of an index is readable -/

theorem distinct_integer (n : Int) : (Value.integer n).Distinct := Value.distinct_atom rfl

theorem distinct_ofPosting (p : Posting) : (ofPosting p).Distinct := by
  simp [ofPosting, distinct_integer]

theorem distinct_ofEntry (e : Entry) : (ofEntry e).Distinct := by
  simp [ofEntry, distinct_integer, distinct_ofPosting]

theorem distinct_ofDocTable {ν : Type} {write : ν → Value} {t : Table Int ν}
    (values : ∀ p ∈ t.toList, (write p.2).Distinct) : (ofDocTable write t).Distinct := by
  refine Value.distinct_object_iff.2 ⟨?_, ?_⟩
  · have nodup := t.nodup.map fun _ _ => @Int.repr_injective _ _
    simpa [Function.comp_def] using nodup
  · intro p mem
    obtain ⟨q, hq, rfl⟩ := List.mem_map.1 mem
    exact values q hq

/-- No object in the value of a canonical index has a key twice. -/
theorem distinct_ofIndex {ix : Index Float} (form : ix.Canonical) : (ofIndex .real ix).Distinct := by
  refine Value.distinct_object_iff.2 ⟨?_, ?_⟩
  · show ["index", "documentNorms", "documentMetadata", "aggregateMode", "stopWords"].Nodup
    decide
  · intro p mem
    simp only [List.mem_cons, List.not_mem_nil, or_false] at mem
    rcases mem with rfl | rfl | rfl | rfl | rfl
    · refine Value.distinct_object_iff.2 ⟨?_, ?_⟩
      · simpa [Function.comp_def] using ix.entries.nodup
      · intro p mem
        obtain ⟨q, -, rfl⟩ := List.mem_map.1 mem
        exact distinct_ofEntry q.2
    · exact distinct_ofDocTable fun p _ => Value.distinct_atom rfl
    · exact distinct_ofDocTable fun p hp => (form.metadata p hp).distinct
    · exact Value.distinct_atom rfl
    · cases hw : ix.stopWords with
      | none => exact Value.distinct_atom rfl
      | some words =>
        obtain ⟨texts, rfl, -⟩ := form.stopWords words hw
        exact Value.distinct_list_iff.2 fun v mem => by
          obtain ⟨text, -, rfl⟩ := List.mem_map.1 mem
          exact Value.distinct_atom rfl

theorem short_integer_iff {n : Int} : (Value.integer n).Short ↔ Short n := Value.short_atom_iff rfl

theorem short_ofEntry_iff {e : Entry} :
    (ofEntry e).Short ↔ Short e.aggregate ∧ ∀ q ∈ e.postings, Short q.doc ∧ Short q.tf := by
  simp [ofEntry, ofPosting, short_integer_iff]

theorem short_ofDocTable_iff {ν : Type} {write : ν → Value} {t : Table Int ν} :
    (ofDocTable write t).Short ↔ ∀ p ∈ t.toList, (write p.2).Short := by
  rw [ofDocTable, Value.short_object_iff, List.forall_mem_map]

/-- The integers in the value of a canonical index are those of its entries and of its metadata. -/
theorem short_ofIndex_iff {ix : Index Float} (form : ix.Canonical) :
    (ofIndex .real ix).Short ↔
      (∀ p ∈ ix.entries.toList, Short p.2.aggregate ∧ ∀ q ∈ p.2.postings, Short q.doc ∧ Short q.tf) ∧
        ∀ p ∈ ix.metadata.toList, (ofMetadata p.2).Short := by
  have text (s : String) : (Value.string s).Short := (Value.short_atom_iff rfl).2 trivial
  have real (x : Float) : (Value.real x).Short := (Value.short_atom_iff rfl).2 trivial
  have stopWords : (ix.stopWords.elim .null Value.list).Short := by
    cases hw : ix.stopWords with
    | none => exact (Value.short_atom_iff rfl).2 trivial
    | some words =>
      obtain ⟨texts, rfl, -⟩ := form.stopWords words hw
      exact Value.short_list_iff.2 fun v mem => by
        obtain ⟨s, -, rfl⟩ := List.mem_map.1 mem
        exact text s
  simp only [ofIndex, Value.short_object_iff, List.forall_mem_cons, List.not_mem_nil, false_imp_iff, implies_true,
    and_true, short_ofDocTable_iff, real, text, stopWords, true_and, List.forall_mem_map, short_ofEntry_iff]

/-- A canonical index with short integers is described by a value that can be read back from its text. -/
theorem readable_ofIndex {ix : Index Float} (form : ix.Canonical) (short : ix.Short) :
    (ofIndex .real ix).Readable where
  distinct := distinct_ofIndex form
  short := (short_ofIndex_iff form).2
    ⟨fun p mem => ⟨short.aggregates p mem, short.postings p mem⟩, short.metadata⟩

/-! ### An index is the one that its value describes -/

theorem entryOf_ofEntry (e : Entry) : entryOf (ofEntry e) = .ok e := by
  have postings : (e.postings.map ofPosting).mapM postingOf = .ok e.postings := mapM_map_eq fun _ _ => rfl
  show (do let ps ← (e.postings.map ofPosting).mapM postingOf; return Entry.mk e.aggregate ps) = _
  rw [bind_eq postings]
  rfl

theorem metadataOf_ofMetadata {m : Metadata} (textual : ∀ p ∈ m, ∃ key, p.1 = .string key) :
    metadataOf (ofMetadata m) = .ok m := by
  have keys : ∀ p ∈ m, (Value.string p.1.keyText, p.2) = p := by
    rintro ⟨k, v⟩ mem
    obtain ⟨key, rfl⟩ := textual _ mem
    rfl
  show Except.ok ((m.map fun p => (p.1.keyText, p.2)).map fun p : String × Value => (Value.string p.1, p.2)) = _
  rw [List.map_map]
  exact congrArg Except.ok ((List.map_congr_left keys).trans (List.map_id' m))

/-- A member of a table of documents: its key is an integer in the form of a text. -/
def docMember {ν : Type} (read : Value → Except ArtifactError ν) (p : String × Value) :
    Except ArtifactError (Int × ν) := do
  let doc ← integerOf (.string p.1)
  return (doc, ← read p.2)

/-- A member of the entries: a term with its entry. -/
def termMember (p : String × Value) : Except ArtifactError (String × Entry) := do
  return (p.1, ← entryOf p.2)

theorem docMember_toString {ν : Type} {read : Value → Except ArtifactError ν} {write : ν → Value} {p : Int × ν}
    (doc : Short p.1) (value : read (write p.2) = .ok p.2) : docMember read (toString p.1, write p.2) = .ok p := by
  have doc : integerOf (.string (toString p.1)) = .ok p.1 := by
    show (Numeral.readInteger _).mapError _ = _
    rw [mapError_eq_ok_iff]
    exact Numeral.readInteger_toString doc
  rw [docMember, bind_eq doc, bind_eq value]
  rfl

theorem docTable_ofDocTable {ν : Type} {read : Value → Except ArtifactError ν} {write : ν → Value} {t : Table Int ν}
    (docs : ∀ doc ∈ t.keys, Short doc) (values : ∀ p ∈ t.toList, read (write p.2) = .ok p.2) :
    docTable read (ofDocTable write t) = .ok t := by
  have members : (t.toList.map fun p => (toString p.1, write p.2)).mapM (docMember read) = .ok t.toList :=
    mapM_map_eq fun p mem => docMember_toString (docs p.1 (List.mem_map_of_mem mem)) (values p mem)
  show List.mapM (docMember read) _ >>= (fun entries => .ok (Table.ofList entries)) = _
  rw [bind_eq members, Table.ofList_toList]

/-- The documents of a table that can be read are short. -/
theorem short_of_docTable {ν : Type} {read : Value → Except ArtifactError ν} {write : ν → Value} {t t' : Table Int ν}
    (h : docTable read (ofDocTable write t) = .ok t') : ∀ doc ∈ t.keys, Short doc := by
  obtain ⟨members, object, h⟩ := exists_of_bind h
  cases object
  obtain ⟨entries, all, -⟩ := exists_of_bind h
  intro doc mem
  obtain ⟨p, hp, rfl⟩ := List.mem_map.1 mem
  obtain ⟨entry, one⟩ := exists_of_mem_mapM all (List.mem_map_of_mem hp)
  obtain ⟨n, key, -⟩ := exists_of_bind one
  exact Numeral.short_of_readInteger (mapError_eq_ok_iff.1 key)

theorem modeOf_name (mode : AggregateMode) : modeOf (.string mode.name) = .ok mode := by
  cases mode with
  | occurrences => rfl
  | documents => rfl

/-- Texts are sorted as such. -/
theorem sortedValues_strings (texts : List String) :
    sortedValues (texts.map .string) = .ok ((texts.mergeSort fun a b => !decide (b < a)).map .string) := by
  have read : (texts.map Value.string).mapM Value.text? = some texts := by
    induction texts with
    | nil => rfl
    | cons text texts ih =>
      rw [List.map_cons, List.mapM_cons, ih]
      rfl
  rw [sortedValues, read]

theorem not_decide_lt_iff {a b : String} : (!decide (b < a)) = true ↔ a ≤ b := by
  rw [Bool.not_eq_true', decide_eq_false_iff_not]
  exact Iff.rfl

theorem mergeSort_of_ascending {texts : List String} (h : texts.Pairwise (· ≤ ·)) :
    (texts.mergeSort fun a b => !decide (b < a)) = texts := by
  apply List.mergeSort_of_pairwise
  exact h.imp not_decide_lt_iff.2

theorem ascending_mergeSort (texts : List String) :
    (texts.mergeSort fun a b => !decide (b < a)).Pairwise (· ≤ ·) := by
  have trans : ∀ a b c : String, (!decide (b < a)) = true → (!decide (c < b)) = true → (!decide (c < a)) = true := by
    intro a b c hab hbc
    exact not_decide_lt_iff.2 (String.le_trans (not_decide_lt_iff.1 hab) (not_decide_lt_iff.1 hbc))
  have total : ∀ a b : String, (!decide (b < a) || !decide (a < b)) = true := by
    intro a b
    rw [Bool.or_eq_true, not_decide_lt_iff, not_decide_lt_iff]
    exact String.le_total a b
  exact (List.pairwise_mergeSort trans total texts).imp not_decide_lt_iff.1

theorem stopWordsOf_strings (texts : List String) : stopWordsOf (.list (texts.map .string)) =
    .ok (some ((texts.mergeSort fun a b => !decide (b < a)).map .string)) := by
  show (do let vs ← sortedValues (texts.map .string); return some vs) = _
  rw [bind_eq (sortedValues_strings texts)]
  rfl

/-- Only an object has members. -/
theorem eq_of_membersOf {v : Value} {members : List (String × Value)} (h : membersOf v = .ok members) :
    v = .object members := by
  unfold membersOf at h
  split at h
  · cases h
    rfl
  · cases h

/-- What describes an index is an object. -/
theorem exists_of_toIndex {v : Value} {ix : Index Float} (h : toIndex v = .ok ix) : ∃ data, v = .object data := by
  obtain ⟨data, whole, -⟩ := exists_of_bind h
  exact ⟨data, eq_of_membersOf (mapError_eq_ok_iff.1 whole)⟩

/-- An index is described part by part. -/
theorem toIndex_object_iff {data : List (String × Value)} {ix : Index Float} :
    toIndex (.object data) = .ok ix ↔ ∃ index documentNorms terms norms metadata mode stopWords,
      part data "index" = .ok (.object index) ∧ index.mapM termMember = .ok terms ∧
      part data "documentNorms" = .ok documentNorms ∧ docTable realOf documentNorms = .ok norms ∧
      docTable metadataOf ((data.lookup "documentMetadata").getD (.object [])) = .ok metadata ∧
      modeOf ((data.lookup "aggregateMode").getD (.string AggregateMode.occurrences.name)) = .ok mode ∧
      stopWordsOf ((data.lookup "stopWords").getD .null) = .ok stopWords ∧
      ix = .make (.ofList terms) norms metadata mode stopWords := by
  constructor
  · intro h
    obtain ⟨_, whole, h⟩ := exists_of_bind h
    cases whole
    obtain ⟨index, found, h⟩ := exists_of_bind h
    obtain ⟨members, object, h⟩ := exists_of_bind h
    obtain ⟨terms, entries, h⟩ := exists_of_bind h
    obtain ⟨documentNorms, normed, h⟩ := exists_of_bind h
    obtain ⟨norms, numbers, h⟩ := exists_of_bind h
    obtain ⟨metadata, described, h⟩ := exists_of_bind h
    obtain ⟨mode, counted, h⟩ := exists_of_bind h
    obtain ⟨stopWords, stopped, h⟩ := exists_of_bind h
    cases h
    rw [eq_of_membersOf object] at found
    exact ⟨_, _, _, _, _, _, _, found, entries, normed, numbers, described, counted, stopped, rfl⟩
  · rintro ⟨index, documentNorms, terms, norms, metadata, mode, stopWords, found, entries, normed, numbers, described,
      counted, stopped, rfl⟩
    refine (bind_eq found _).trans ?_
    refine (bind_eq entries _).trans ?_
    refine (bind_eq normed _).trans ?_
    rw [bind_eq numbers, bind_eq described, bind_eq counted, bind_eq stopped]
    rfl

/-- A canonical index with short integers is the index that its value describes. -/
theorem toIndex_ofIndex {ix : Index Float} (form : ix.Canonical) (short : ix.Short) :
    toIndex (ofIndex .real ix) = .ok ix := by
  have entries : (ix.entries.toList.map fun p => (p.1, ofEntry p.2)).mapM termMember = .ok ix.entries.toList := by
    apply mapM_map_eq
    intro p _
    rw [termMember, bind_eq (entryOf_ofEntry p.2)]
    rfl
  have norms : docTable realOf (ofDocTable .real ix.norms) = .ok ix.norms :=
    docTable_ofDocTable short.docs fun _ _ => rfl
  have metadata : docTable metadataOf (ofDocTable ofMetadata ix.metadata) = .ok ix.metadata :=
    docTable_ofDocTable short.described fun p hp => metadataOf_ofMetadata (form.metadata p hp).textual
  have stopWords : stopWordsOf (ix.stopWords.elim .null .list) = .ok ix.stopWords := by
    cases hw : ix.stopWords with
    | none => rfl
    | some words =>
      obtain ⟨texts, rfl, ascending⟩ := form.stopWords words hw
      show stopWordsOf (.list (texts.map .string)) = _
      rw [stopWordsOf_strings, mergeSort_of_ascending ascending]
  refine toIndex_object_iff.2
    ⟨_, _, _, _, _, _, _, rfl, entries, rfl, norms, metadata, modeOf_name ix.mode, stopWords, ?_⟩
  rw [Table.ofList_toList, Index.make, ← form.allDocs]

/-- A canonical index whose value is read back from its text, and then describes an index, has short integers. -/
theorem short_of_toIndex {ix ix' : Index Float} (form : ix.Canonical) (short : (ofIndex .real ix).Short)
    (h : toIndex (ofIndex .real ix) = .ok ix') : ix.Short := by
  obtain ⟨index, documentNorms, terms, norms, metadata, mode, stopWords, -, -, normed, numbers, described, -⟩ :=
    toIndex_object_iff.1 h
  cases normed
  obtain ⟨entries, fields⟩ := (short_ofIndex_iff form).1 short
  exact {
    aggregates := fun p mem => (entries p mem).1
    postings := fun p mem => (entries p mem).2
    docs := short_of_docTable numbers
    described := short_of_docTable described
    metadata := fields }

/-! ### Indexes that are read have canonical form -/

/-- The members of an artifact whose metadata are objects and whose stop words are texts, if there are any. -/
structure Textual (data : List (String × Value)) : Prop where
  metadata : ∀ docs, data.lookup "documentMetadata" = some (.object docs) → ∀ p ∈ docs, ∃ fields, p.2 = .object fields
  stopWords : ∀ v, data.lookup "stopWords" = some v →
    v = .null ∨ ∃ words : List String, v = .list (words.map .string)

/-- The members of such an artifact in which no object has a key twice. -/
structure Plain (data : List (String × Value)) : Prop extends Textual data where
  distinct : (Value.object data).Distinct

/-- The values of a table of documents are read from members of an object. -/
theorem mem_of_docTable {ν : Type} {read : Value → Except ArtifactError ν} {v : Value} {t : Table Int ν}
    (h : docTable read v = .ok t) {p : Int × ν} (mem : p ∈ t.toList) :
    ∃ members, v = .object members ∧ ∃ q ∈ members, read q.2 = .ok p.2 := by
  obtain ⟨members, object, h⟩ := exists_of_bind h
  obtain ⟨entries, all, h⟩ := exists_of_bind h
  cases h
  obtain ⟨q, hq, one⟩ := mem_of_mapM all (Table.mem_of_mem_ofList mem)
  obtain ⟨doc, -, one⟩ := exists_of_bind one
  obtain ⟨value, value_eq, one⟩ := exists_of_bind one
  cases one
  exact ⟨members, eq_of_membersOf object, q, hq, value_eq⟩

theorem ofMetadata_strings (fields : List (String × Value)) :
    ofMetadata (fields.map fun p => (.string p.1, p.2)) = .object fields := by
  simp [ofMetadata, Function.comp_def, Value.keyText]

theorem canonical_object {fields : List (String × Value)} (distinct : (Value.object fields).Distinct) :
    Metadata.Canonical (fields.map fun p => (.string p.1, p.2)) where
  textual := by
    intro p mem
    obtain ⟨q, -, rfl⟩ := List.mem_map.1 mem
    exact ⟨q.1, rfl⟩
  distinct := by
    rw [ofMetadata_strings]
    exact distinct

/-- What a plain artifact describes has canonical form. -/
theorem canonical_of_toIndex {data : List (String × Value)} {ix : Index Float} (plain : Plain data)
    (h : toIndex (.object data) = .ok ix) : ix.Canonical := by
  obtain ⟨_, _, terms, norms, metadata, mode, stopWords, -, -, -, -, described, -, stopped, rfl⟩ :=
    toIndex_object_iff.1 h
  constructor
  case allDocs => rfl
  case metadata =>
    intro p mem
    obtain ⟨docs, found, q, hq, read⟩ := mem_of_docTable described mem
    cases present : data.lookup "documentMetadata" with
    | none =>
      rw [present] at found
      cases found
      cases hq
    | some v =>
      rw [present] at found
      obtain rfl : v = .object docs := found
      obtain ⟨key, value⟩ := q
      obtain ⟨fields, rfl⟩ : ∃ fields, value = .object fields := plain.metadata docs present _ hq
      have value_eq : (fields.map fun p => (Value.string p.1, p.2)) = p.2 := Except.ok.inj read
      rw [← value_eq]
      have docs_distinct := (Value.distinct_object_iff.1 plain.distinct).2 _ (Table.mem_of_lookup present)
      exact canonical_object ((Value.distinct_object_iff.1 docs_distinct).2 _ hq)
  case stopWords =>
    intro words hw
    obtain rfl : stopWords = some words := hw
    cases present : data.lookup "stopWords" with
    | none =>
      rw [present] at stopped
      cases stopped
    | some v =>
      rw [present] at stopped
      rcases plain.stopWords v present with rfl | ⟨texts, rfl⟩
      · cases stopped
      · have sorted := stopWordsOf_strings texts
        rw [Option.getD_some, sorted] at stopped
        cases stopped
        exact ⟨_, rfl, ascending_mergeSort texts⟩

end Artifact
end Retrieval
