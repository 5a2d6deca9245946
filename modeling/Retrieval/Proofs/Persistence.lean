import Mathlib
import Retrieval.Proofs.Gzip.Packing
import Retrieval.Proofs.Index.Artifact
import Retrieval.Proofs.Index.Documents
import Retrieval.Proofs.Json.Keys

/-!
# Stored indexes are loaded as they were

An index is stored as a text, compressed or not. The text starts with a brace, so that it bears no mark of compression;
what was packed is unpacked; and the value that is read from the text describes the index. What is loaded is therefore
the index itself, wherever it comes from: built from documents, described by an artifact, or loaded (`Obtained`).
-/

set_option autoImplicit false

namespace Retrieval
open Json (Value)

/-! ### The data under which an index is stored -/

theorem fromUTF8?_toUTF8 (s : String) : String.fromUTF8? s.toUTF8 = some s := by
  have valid : s.toUTF8.IsValidUTF8 := s.isValidUTF8
  rw [String.fromUTF8?, dif_pos valid]
  rfl

/-- The text of an object starts with a brace, and so bears no mark of compression. -/
theorem isCompressed_object (members : List (String × Value)) :
    Gzip.isCompressed (Value.object members).print.toUTF8 = false := by
  have brace : "\x7b".toByteArray.toList = [0x7B] := by
    rw [Gzip.toList_eq]
    rfl
  have first : ∃ rest, (Value.object members).print.toUTF8.toList = 0x7B :: rest := by
    refine ⟨((Json.commaSeparated (Value.printMembers members) ++ "\x7d").toByteArray).toList, ?_⟩
    show ("\x7b" ++ _ ++ "\x7d").toUTF8.toList = _
    rw [String.toUTF8_eq_toByteArray, String.append_assoc, String.toByteArray_append, Gzip.toList_append, brace]
    rfl
  obtain ⟨rest, first⟩ := first
  rw [Gzip.isCompressed, Gzip.byteAt_eq, first]
  rfl

/-- Behind the stored data is the text of the index, compressed or not. -/
theorem unpackStored_save (ix : Index Float) (c : Compression) : unpackStored (ix.save c) = .ok ix.text.toUTF8 := by
  cases c with
  | none =>
    have plain : Gzip.isCompressed (ix.save .none) = false := isCompressed_object _
    rw [unpackStored, plain]
    rfl
  | gzip =>
    have packed : Gzip.isCompressed (ix.save .gzip) = true := Gzip.isCompressed_pack _
    rw [unpackStored, packed]
    exact Gzip.unpack_pack _

theorem storedText_of_unpackStored {ix : Index Float} {data : ByteArray} (h : unpackStored data = .ok ix.text.toUTF8) :
    storedText data = .ok ix.text := by
  rw [storedText, bind_eq (mapError_eq_ok_iff.2 h), fromUTF8?_toUTF8]
  rfl

/-- Data behind which is the text of an index are loaded as the index. -/
theorem Index.load_of_unpackStored {ix : Index Float} (form : ix.Canonical) (short : ix.Short) {data : ByteArray}
    (h : unpackStored data = .ok ix.text.toUTF8) : Index.load data = .ok ix := by
  have text := storedText_of_unpackStored h
  have read : Json.read ix.text = .ok (Artifact.ofIndex .real ix) :=
    Json.read_print (Artifact.readable_ofIndex form short)
  rw [load, bind_eq text, bind_eq (mapError_eq_ok_iff.2 read), mapError_eq_ok_iff]
  exact Artifact.toIndex_ofIndex form short

/-- What is loaded from the data behind which is the text of an index is the index, if anything is. -/
theorem Index.eq_of_load {ix loaded : Index Float} (form : ix.Canonical) {data : ByteArray}
    (h : unpackStored data = .ok ix.text.toUTF8) (load : Index.load data = .ok loaded) : loaded = ix := by
  have text := storedText_of_unpackStored h
  have again := load
  rw [Index.load, bind_eq text] at load
  obtain ⟨v, read, described⟩ := exists_of_bind load
  rw [mapError_eq_ok_iff] at read described
  have same : v = Artifact.ofIndex .real ix := Json.eq_of_read_print (Artifact.distinct_ofIndex form) read
  rw [same] at described
  have short := Artifact.short_of_toIndex form (Json.short_of_read read) described
  rw [Index.load_of_unpackStored form short h] at again
  cases again
  rfl

/-! ### Where indexes come from -/

/-- Texts are stored once each, in ascending order. -/
theorem storedWords_ofWords (words : List String) (stem : String → String) :
    storedWords (.ofWords words stem) = (words.eraseDups.mergeSort fun a b => !decide (b < a)).map .string := by
  have once : (words.map Value.string).eraseDupsBy Value.same = words.eraseDups.map .string := by
    induction h : words.length using Nat.strongRecOn generalizing words with
    | ind n ih =>
      cases words with
      | nil => rfl
      | cons word words =>
        have shorter := List.length_filter_le (fun w => !w == word) words
        rw [List.length_cons] at h
        have others := ih _ (by omega) (words.filter fun w => !w == word) rfl
        have repeated : ((fun v => decide (Value.same v (.string word) = false)) ∘ Value.string) =
            fun w => !w == word := by
          funext w
          simp [Value.same]
        rw [List.map_cons, List.eraseDupsBy_cons, List.eraseDups_cons, List.map_cons, ← others, List.filter_map,
          repeated]
  show (Artifact.sortedValues ((words.map Value.string).eraseDupsBy Value.same)).toOption.getD _ = _
  rw [once, Artifact.sortedValues_strings]
  rfl

/-- Metadata that are texts under distinct names. -/
def Metadata.Textual (m : Metadata) : Prop :=
  ∃ fields : List (String × String), (fields.map Prod.fst).Nodup ∧ m = fields.map fun p => (.string p.1, .string p.2)

theorem Metadata.Textual.canonical {m : Metadata} (h : m.Textual) : m.Canonical := by
  obtain ⟨fields, distinct, rfl⟩ := h
  have object : (Value.object (fields.map fun p => (p.1, .string p.2))).Distinct := by
    refine Value.distinct_object_iff.2 ⟨?_, ?_⟩
    · simpa [Function.comp_def] using distinct
    · intro p mem
      obtain ⟨q, -, rfl⟩ := List.mem_map.1 mem
      exact Value.distinct_atom rfl
  have canonical := Artifact.canonical_object object
  rw [List.map_map] at canonical
  exact canonical

/-- An index that is built has canonical form. -/
theorem canonical_of_build {mode : AggregateMode} {words : List String} {stem : String → String} {workers : Value}
    {documents : List Source} {ix : Index Float} (textual : ∀ d ∈ documents, ∀ m ∈ d.metadata, m.Textual)
    (h : buildIndexWith mode (.ofWords words stem) workers documents = .ok ix) : ix.Canonical := by
  obtain ⟨acc, rfl, -, contents⟩ := contents_of_build h
  constructor
  case allDocs => rfl
  case metadata =>
    intro p mem
    have found : acc.metadata.get? p.1 = some p.2 := (Table.mem_toList_iff _ _ _).1 mem
    have present : p.1 ∈ acc.metadata.keys := List.mem_map_of_mem mem
    rw [contents.described] at present
    obtain ⟨a, ha, doc⟩ := List.mem_map.1 present
    have ha := (List.mem_filter.1 ha).1
    rw [← doc, contents.metadata a ha] at found
    obtain ⟨d, hd, rfl⟩ := List.mem_map.1 ha
    exact (textual d hd p.2 found).canonical
  case stopWords =>
    intro stored hw
    cases hw
    exact ⟨_, storedWords_ofWords words stem, Artifact.ascending_mergeSort _⟩

theorem textual_metadata (d : Corpus.Document) : d.metadata.Textual :=
  ⟨[("title", d.title), ("authors", d.authors)], by simp, rfl⟩

/-- So has an index that is built from a collection. -/
theorem canonical_of_documents {mode : AggregateMode} {words : List String} {stem : String → String} {workers : Value}
    {documents : List Corpus.Document} {ix : Index Float}
    (h : buildIndexWith mode (.ofWords words stem) workers (documents.map Source.ofDocument) = .ok ix) :
    ix.Canonical := by
  refine canonical_of_build (fun d hd m hm => ?_) h
  obtain ⟨d, -, rfl⟩ := List.mem_map.1 hd
  cases hm
  exact textual_metadata d

/-- Whether the artifact in a file has objects as metadata and texts as stop words. -/
def Artifact.TextualIn (file : ByteArray) : Prop :=
  ∀ text data, storedText file = .ok text → Json.read text = .ok (.object data) → Artifact.Textual data

/-- How an index comes about: it is built from documents whose metadata are texts, it is described by an artifact whose
metadata are objects and whose stop words are texts, or it is loaded from a file with such an artifact, in whose text a
key may come again. -/
inductive Index.Obtained : Index Float → Prop where
  | built {mode : AggregateMode} {words : List String} {stem : String → String} {workers : Value}
      {documents : List Source} {ix : Index Float} (textual : ∀ d ∈ documents, ∀ m ∈ d.metadata, m.Textual)
      (built : buildIndexWith mode (.ofWords words stem) workers documents = .ok ix) : Obtained ix
  | described {data : List (String × Value)} {ix : Index Float} (plain : Artifact.Plain data)
      (read : Artifact.toIndex (.object data) = .ok ix) : Obtained ix
  | loaded {file : ByteArray} {ix : Index Float} (load : Index.load file = .ok ix)
      (textual : Artifact.TextualIn file) : Obtained ix

/-- An index that is loaded from a file has canonical form, for no object that is read from a text has a key twice. -/
theorem Index.canonical_of_load {file : ByteArray} {ix : Index Float} (load : Index.load file = .ok ix)
    (textual : Artifact.TextualIn file) : ix.Canonical := by
  obtain ⟨text, stored, load⟩ := exists_of_bind load
  obtain ⟨v, read, described⟩ := exists_of_bind load
  rw [mapError_eq_ok_iff] at read described
  obtain ⟨data, rfl⟩ := Artifact.exists_of_toIndex described
  exact Artifact.canonical_of_toIndex ⟨textual text data stored read, Json.distinct_of_read read⟩ described

theorem Index.Obtained.canonical {ix : Index Float} (h : ix.Obtained) : ix.Canonical := by
  cases h with
  | built textual built => exact canonical_of_build textual built
  | described plain read => exact Artifact.canonical_of_toIndex plain read
  | loaded load textual => exact Index.canonical_of_load load textual

/-- **Persistence is lossless.** An index that is built, read from an artifact or loaded, with short integers, is loaded
from the data under which it is stored, compressed or not, as it was: with the same entries in the same order, norms,
metadata, mode, stop words and documents. So it is stored again under the same text. Whatever packs the text may do it
in another way, and what is not packed is never taken for packed. -/
theorem Index.load_save {ix : Index Float} (obtained : ix.Obtained) (short : ix.Short) (c : Compression) :
    Index.load (ix.save c) = .ok ix ∧
    (∀ loaded, Index.load (ix.save c) = .ok loaded → loaded.text = ix.text) ∧
    (∀ data, unpackStored data = .ok ix.text.toUTF8 → Index.load data = .ok ix) ∧
    Gzip.isCompressed (ix.save .none) = false := by
  have load : ∀ data, unpackStored data = .ok ix.text.toUTF8 → Index.load data = .ok ix :=
    fun _ => Index.load_of_unpackStored obtained.canonical short
  have loaded := load _ (unpackStored_save ix c)
  refine ⟨loaded, fun ix' same => ?_, load, isCompressed_object _⟩
  rw [loaded] at same
  cases same
  rfl

/-- An artifact whose keys, counts and stop words stand in other forms than those in which they are stored. -/
theorem Index.load_save_of_artifact :
    let three : Float := .ofBits 0x4008000000000000
    let data : List (String × Value) := [
      ("index", .object [("cab", .list [.real three, .list [.list [.integer 10, .bool true], .string "12"]]),
        ("ab", .list [.integer 0, .list []])]),
      ("documentNorms", .object [("1_0", .real three), ("01", .integer 2)]),
      ("documentMetadata", .object [("01", .object [("title", .string "a"), ("year", .integer 1958)])]),
      ("stopWords", .list [.string "the", .string "a"])]
    let ix : Index Float := .make ⟨[("cab", ⟨3, [⟨10, 1⟩, ⟨1, 2⟩]⟩), ("ab", ⟨0, []⟩)], by decide⟩
      ⟨[(10, three), (1, Numeral.nearestInt 2)], by decide⟩
      ⟨[(1, [(.string "title", .string "a"), (.string "year", .integer 1958)])], by decide⟩
      .occurrences (some [.string "a", .string "the"])
    Artifact.Plain data ∧ Artifact.toIndex (.object data) = .ok ix ∧ ix.Short ∧
      Index.load (ix.save .gzip) = .ok ix ∧
      (∀ loaded, Index.load (ix.save .gzip) = .ok loaded → loaded.text = ix.text) ∧
      (∀ data, unpackStored data = .ok ix.text.toUTF8 → Index.load data = .ok ix) ∧
      Gzip.isCompressed (ix.save .none) = false := by
  intro three data ix
  have plain : Artifact.Plain data := by
    refine ⟨⟨?metadata, ?stopWords⟩, ?distinct⟩
    case distinct =>
      simp only [data, Value.distinct_object_iff, Value.distinct_list_iff, List.forall_mem_cons]
      and_intros
      all_goals first | decide | exact Value.distinct_atom rfl | simp
    case metadata =>
      intro docs found p mem
      cases found
      rw [List.mem_singleton.1 mem]
      exact ⟨_, rfl⟩
    case stopWords =>
      intro v found
      cases found
      exact .inr ⟨["the", "a"], rfl⟩
  have stopped : Artifact.stopWordsOf (.list [.string "the", .string "a"]) = .ok ix.stopWords := by
    have order : (["the", "a"].mergeSort fun a b : String => !decide (b < a)) = ["a", "the"] := by cbv
    have sorted := Artifact.stopWordsOf_strings ["the", "a"]
    rw [order] at sorted
    exact sorted
  have entries : [("cab", Value.list [.real (.ofBits 0x4008000000000000),
      .list [.list [.integer 10, .bool true], .string "12"]]), ("ab", .list [.integer 0, .list []])].mapM
      Artifact.termMember = .ok [("cab", ⟨3, [⟨10, 1⟩, ⟨1, 2⟩]⟩), ("ab", ⟨0, []⟩)] := by rfl
  have read : Artifact.toIndex (.object data) = .ok ix := by
    refine Artifact.toIndex_object_iff.2 ⟨_, _, ix.entries.toList, ix.norms, ix.metadata, .occurrences, ix.stopWords,
      rfl, entries, rfl, ?_, ?_, rfl, stopped, rfl⟩
    · rfl
    · rfl
  have short : ix.Short := by
    constructor
    case aggregates => decide +kernel
    case postings => decide +kernel
    case docs => decide +kernel
    case described => decide +kernel
    case metadata =>
      intro p mem
      rw [List.mem_singleton.1 mem]
      have year : Numeral.Short 1958 := by decide +kernel
      simp only [Artifact.ofMetadata, Value.short_object_iff, List.map_cons, List.forall_mem_cons]
      and_intros
      · exact (Value.short_atom_iff rfl).2 trivial
      · exact (Value.short_atom_iff rfl).2 year
      · simp
  exact ⟨plain, read, short, Index.load_save (.described plain read) short .gzip⟩

end Retrieval
