import Retrieval.Proofs.Command.Building
import Retrieval.Proofs.Corpus.Documents

/-!
# Building is all or nothing

A command that builds an index ends in one of few ways. It refuses its settings or its stop words before anything else
(`run_build_refused`); it then reads its collection, and a collection that does not have the form of one ends it with
status one (`run_build_malformed`). Documents that are read ascend, so that an index of them is always built
(`exists_buildIndex`), and it is stored as a whole or not at all (`run_build_documents`).
-/

set_option autoImplicit false

namespace Retrieval
open Json (Value)

/-- The documents of a collection ascend, so that the index of them takes in each. -/
theorem exists_buildIndex {α : Type} [Scoring α] {text : String} {documents : List Corpus.Document}
    (read : Corpus.readCollection text = .ok documents) (mode : AggregateMode) (normalizer : Normalizer) :
    ∃ ix : Index α, buildIndex mode normalizer (documents.map Source.ofDocument) = .ok ix := by
  obtain ⟨-, -, ascending⟩ := Corpus.readCollection_ok_iff.1 read
  have ascending : ((documents.map Source.ofDocument).map Source.id).Pairwise (· < ·) := by
    rw [List.map_map]
    exact ascending
  obtain ⟨acc, built, -⟩ := buildIndex_of_ascending (α := α) mode normalizer ascending
  exact ⟨_, built⟩

/-- All documents of a collection are in its index, in the order of the collection and with their metadata. -/
theorem documents_of_buildIndex {α : Type} [Scoring α] {mode : AggregateMode} {normalizer : Normalizer}
    {documents : List Corpus.Document} {ix : Index α}
    (built : buildIndex mode normalizer (documents.map Source.ofDocument) = .ok ix) :
    ix.allDocs = documents.map Corpus.Document.id ∧ ix.metadata.keys = documents.map Corpus.Document.id ∧
      ∀ d ∈ documents, ix.metadata.get? d.id = some d.metadata := by
  have built : buildIndexWith mode normalizer (.integer 1) (documents.map Source.ofDocument) = .ok ix := by
    have number : (Value.integer 1).isNumber = true := rfl
    rw [buildIndexWith, if_pos number, built]
    rfl
  obtain ⟨acc, rfl, -, contents⟩ := contents_of_build built
  have ids : ((documents.map Source.ofDocument).map (Source.addition normalizer)).map Addition.doc =
      documents.map Corpus.Document.id := by
    rw [List.map_map, List.map_map]
    rfl
  have described : ∀ a ∈ (documents.map Source.ofDocument).map (Source.addition normalizer),
      a.metadata.isSome = true := by
    intro a mem
    rw [List.map_map] at mem
    obtain ⟨d, -, rfl⟩ := List.mem_map.1 mem
    rfl
  refine ⟨by rw [contents.allDocs_index, ids], ?_, fun d mem => ?_⟩
  · show acc.metadata.keys = _
    rw [contents.described, List.filter_eq_self.2 described, ids]
  · exact contents.metadata _ (List.mem_map_of_mem (List.mem_map_of_mem mem))

theorem isCompressed_save (ix : Index Float) (c : Compression) :
    Gzip.isCompressed (ix.save c) = true ↔ c = .gzip := by
  cases c with
  | none =>
    have plain : Gzip.isCompressed (ix.save .none) = false := isCompressed_object _
    simp [plain]
  | gzip =>
    have packed : Gzip.isCompressed (ix.save .gzip) = true := Gzip.isCompressed_pack _
    simp [packed]

namespace Command

/-- A number stays one if it is changed to one. -/
theorem isNumber_changedBy {given number : Value} (h : given.isNumber = true) (h' : number.isNumber = true) :
    (changedBy (some given) number).isNumber = true := by
  unfold changedBy
  split
  · exact h'
  · exact h'
  · exact h'
  · rename_i same
    cases same
    exact h

section Endings

variable {files : Files} {version stopWords collection output : String} {workers : Value} {around : Surroundings}

/-- What a command is given to build an index from can be read: its settings, its stop words and its documents. -/
structure Reads (files : Files) (version stopWords collection : String) (settings : Settings) (words : List String)
    (documents : List Corpus.Document) : Prop where
  settings : Settings.ofVersion? version = some settings
  words : ∃ text, files.readText stopWords = .ok text ∧ readStopWords text = words
  documents : ∃ text, files.readText collection = .ok text ∧ Corpus.readCollection text = .ok documents

theorem workspaceOn_build {settings : Settings} {text : String} (accepted : Settings.ofVersion? version = some settings)
    (given : files.readText stopWords = .ok text) :
    workspaceOn files ⟨some version, some stopWords⟩ none (some workers) none =
      .ok ⟨{ settings with workers := changedBy (some workers) settings.workers },
        some (.ofWords (readStopWords text) Stemmer.porter), none⟩ :=
  workspaceOn_some none (some workers) none (settingsFor_eq none _ none rfl accepted) rfl given

/-- A command does nothing if it refuses its settings or its stop words. -/
theorem run_build_refused
    (refused : ¬ ∃ settings text, Settings.ofVersion? version = some settings ∧ files.readText stopWords = .ok text) :
    ∃ e, (Request.build ⟨some version, some stopWords⟩ (some collection) (some output) workers).on around files =
      (.error e, { files }) := by
  cases opened : workspaceOn files ⟨some version, some stopWords⟩ none (some workers) none with
  | error e =>
    have failed : (openWorkspace ⟨some version, some stopWords⟩ none (some workers) none).run { files } =
        (.error e, { files }) := by
      rw [run_openWorkspace, opened]
    exact ⟨e, by rw [Request.on, Request.action, runBuild, run_bind_error failed]⟩
  | ok w =>
    obtain ⟨settings, read, opened⟩ := exists_of_bind opened
    obtain ⟨text, given, -⟩ := exists_of_bind opened
    rw [mapError_eq_ok_iff] at given read
    obtain ⟨base, accepted, -⟩ := exists_of_bind read
    have accepted : Settings.ofVersion version = .ok base := accepted
    rw [Settings.ofVersion] at accepted
    cases found : Settings.ofVersion? version with
    | none =>
      rw [found] at accepted
      cases accepted
    | some base => exact absurd ⟨base, text, found, given⟩ refused

theorem documentsOf_malformed {content : String} {e : Corpus.FormatError} (read : files.readText collection = .ok content)
    (malformed : Corpus.readCollection content = .error (.format e)) :
    Workspace.documentsOf files collection = .error (.corpus (.format e)) := by
  rw [Workspace.documentsOf, bind_eq (mapError_eq_ok_iff.2 read), malformed]
  rfl

theorem documentsOf_ok {content : String} {documents : List Corpus.Document}
    (read : files.readText collection = .ok content) (wellFormed : Corpus.readCollection content = .ok documents) :
    Workspace.documentsOf files collection = .ok (documents.map Source.ofDocument) := by
  rw [Workspace.documentsOf, bind_eq (mapError_eq_ok_iff.2 read), bind_eq (mapError_eq_ok_iff.2 wellFormed)]
  rfl

section Accepted

variable {settings : Settings} {text : String} (accepted : Settings.ofVersion? version = some settings)
  (given : files.readText stopWords = .ok text)
include accepted given

/-- A collection that cannot be read, other than for its form, is a failure. -/
theorem run_build_unread {e : Failure} (failed : Workspace.documentsOf files collection = .error e)
    (other : ∀ d, e ≠ .corpus (.format d)) :
    (Request.build ⟨some version, some stopWords⟩ (some collection) (some output) workers).on around files =
      (.error e, { files }) := by
  have documents : documentsFor files (some collection) = .error e := failed
  rw [run_build (workspaceOn_build accepted given) rfl, documents]
  cases e with
  | corpus e =>
    cases e with
    | format d => exact absurd rfl (other d)
    | integer d => rfl
  | _ => rfl

/-- A collection that does not have the form of one makes the status one. -/
theorem run_build_malformed {content : String} {e : Corpus.FormatError} (read : files.readText collection = .ok content)
    (malformed : Corpus.readCollection content = .error (.format e)) :
    (Request.build ⟨some version, some stopWords⟩ (some collection) (some output) workers).on around files =
      (.ok 1, { files, notices := [abortNotice e] }) := by
  have documents : documentsFor files (some collection) = .error (.corpus (.format e)) :=
    documentsOf_malformed read malformed
  rw [run_build (workspaceOn_build accepted given) rfl, documents]
  rfl

/-- Documents that are read have an index, which is stored if it has terms. -/
theorem run_build_documents {content : String} {documents : List Corpus.Document} {ix : Index Float}
    (read : files.readText collection = .ok content) (wellFormed : Corpus.readCollection content = .ok documents)
    (built : buildIndex settings.aggregateMode (.ofWords (readStopWords text) Stemmer.porter)
      (documents.map Source.ofDocument) = .ok ix) :
    (Request.build ⟨some version, some stopWords⟩ (some collection) (some output) workers).on around files =
      if (changedBy (some workers) settings.workers).isNumber then
        if 0 < ix.termCount then
          let stored := (Files.store output (ix.save settings.compression)).run files
          ((stored.1.mapError Failure.file).map fun _ => 0, { files := stored.2 })
        else (.error .noIndex, { files })
      else (.error (.settings (.notANumber "workers")), { files }) := by
  have sources : documentsFor files (some collection) = .ok (documents.map Source.ofDocument) :=
    documentsOf_ok read wellFormed
  rw [run_build (workspaceOn_build accepted given) rfl, bind_eq sources]
  by_cases number : (changedBy (some workers) settings.workers).isNumber = true
  · rw [buildIndexWith, if_pos number, if_pos number, built]
    rfl
  · rw [buildIndexWith, if_neg number, if_neg number]

end Accepted

/-- How a command ends that accepts its settings and its stop words, where files can be written. -/
inductive Ends (files : Files) (collection output : String) (workers : Value) (settings : Settings)
    (normalizer : Normalizer) : Except Failure Nat × World → Prop where
  | unread {e : Failure} : Workspace.documentsOf files collection = .error e → (∀ d, e ≠ .corpus (.format d)) →
      Ends files collection output workers settings normalizer (.error e, { files })
  | malformed {content : String} {e : Corpus.FormatError} : files.readText collection = .ok content →
      Corpus.readCollection content = .error (.format e) →
      Ends files collection output workers settings normalizer (.ok 1, { files, notices := [abortNotice e] })
  | useless {content : String} {documents : List Corpus.Document} {ix : Index Float} (e : Failure) :
      files.readText collection = .ok content → Corpus.readCollection content = .ok documents →
      buildIndex settings.aggregateMode normalizer (documents.map Source.ofDocument) = .ok ix →
      ¬ (workers.isNumber = true ∧ 0 < ix.termCount) →
      Ends files collection output workers settings normalizer (.error e, { files })
  | stored {content : String} {documents : List Corpus.Document} {ix : Index Float} {later : Files} :
      files.readText collection = .ok content → Corpus.readCollection content = .ok documents →
      buildIndex settings.aggregateMode normalizer (documents.map Source.ofDocument) = .ok ix → 0 < ix.termCount →
      (Files.store output (ix.save settings.compression)).run files = (.ok (), later) →
      Ends files collection output workers settings normalizer (.ok 0, { files := later })

theorem ends_build {settings : Settings} {text : String} (accepted : Settings.ofVersion? version = some settings)
    (given : files.readText stopWords = .ok text)
    (writable : ∀ data, ∃ later, (Files.store output data).run files = (.ok (), later)) :
    Ends files collection output workers settings (.ofWords (readStopWords text) Stemmer.porter)
      ((Request.build ⟨some version, some stopWords⟩ (some collection) (some output) workers).on around files) := by
  cases read : files.readText collection with
  | error e =>
    have unread : Workspace.documentsOf files collection = .error (.file e) := by
      rw [Workspace.documentsOf, read]
      rfl
    rw [run_build_unread accepted given unread (by simp)]
    exact .unread unread (by simp)
  | ok content =>
    cases form : Corpus.readCollection content with
    | error e =>
      cases e with
      | format d =>
        rw [run_build_malformed accepted given read form]
        exact .malformed read form
      | integer d =>
        have unread : Workspace.documentsOf files collection = .error (.corpus (.integer d)) := by
          rw [Workspace.documentsOf, bind_eq (mapError_eq_ok_iff.2 read), form]
          rfl
        rw [run_build_unread accepted given unread (by simp)]
        exact .unread unread (by simp)
    | ok documents =>
      obtain ⟨ix, built⟩ := exists_buildIndex (α := Float) form settings.aggregateMode
        (.ofWords (readStopWords text) Stemmer.porter)
      rw [run_build_documents accepted given read form built]
      split
      · split
        · rename_i terms
          obtain ⟨later, store⟩ := writable (ix.save settings.compression)
          rw [store]
          exact .stored read form built terms store
        · rename_i none_there
          exact .useless _ read form built fun h => none_there h.2
      · rename_i no_number
        refine .useless _ read form built fun h => no_number ?_
        exact isNumber_changedBy h.1 (by rw [Settings.eq_ofModes_of_ofVersion? accepted]; rfl)

section Ends

variable {settings : Settings} {normalizer : Normalizer} {ended : Except Failure Nat × World}

theorem not_malformed {content : String} {documents : List Corpus.Document}
    (read : files.readText collection = .ok content) (wellFormed : Corpus.readCollection content = .ok documents) :
    ¬ ∃ content e, files.readText collection = .ok content ∧ Corpus.readCollection content = .error (.format e) := by
  rintro ⟨content, e, read', malformed⟩
  rw [read] at read'
  cases read'
  rw [wellFormed] at malformed
  cases malformed

/-- The status is one exactly if the collection does not have the form of one. -/
theorem Ends.status_one_iff (ends : Ends files collection output workers settings normalizer ended) :
    ended.1 = .ok 1 ↔
      ∃ content e, files.readText collection = .ok content ∧ Corpus.readCollection content = .error (.format e) := by
  cases ends with
  | unread failed other =>
    refine iff_of_false (by simp) ?_
    rintro ⟨content, d, read, malformed⟩
    rw [documentsOf_malformed read malformed] at failed
    cases failed
    exact other d rfl
  | malformed read malformed => exact iff_of_true rfl ⟨_, _, read, malformed⟩
  | useless e read wellFormed => exact iff_of_false (by simp) (not_malformed read wellFormed)
  | stored read wellFormed => exact iff_of_false (by simp) (not_malformed read wellFormed)

/-- The status is zero if documents with terms can be read. -/
theorem Ends.status_zero (ends : Ends files collection output workers settings normalizer ended)
    {documents : List Corpus.Document} {ix : Index Float} (number : workers.isNumber = true)
    (reads : ∃ text, files.readText collection = .ok text ∧ Corpus.readCollection text = .ok documents)
    (built : buildIndex settings.aggregateMode normalizer (documents.map Source.ofDocument) = .ok ix)
    (terms : 0 < ix.termCount) : ended.1 = .ok 0 := by
  obtain ⟨content, read, wellFormed⟩ := reads
  cases ends with
  | unread failed other =>
    rw [documentsOf_ok read wellFormed] at failed
    cases failed
  | malformed read' malformed => exact absurd ⟨_, _, read', malformed⟩ (not_malformed read wellFormed)
  | useless e read' wellFormed' built' none_there =>
    rw [read] at read'
    cases read'
    rw [wellFormed] at wellFormed'
    cases wellFormed'
    rw [built] at built'
    cases built'
    exact absurd ⟨number, terms⟩ none_there
  | stored => rfl

/-- Either an index of the documents is stored, or all files are as they were. -/
theorem Ends.all_or_nothing (ends : Ends files collection output workers settings normalizer ended) :
    (ended.1 = .ok 0 ∧ ∃ documents ix,
      (∃ text, files.readText collection = .ok text ∧ Corpus.readCollection text = .ok documents) ∧
      buildIndex settings.aggregateMode normalizer (documents.map Source.ofDocument) = .ok ix ∧ 0 < ix.termCount ∧
      ended.2.files.read output = .ok (ix.save settings.compression)) ∨
    ((ended.1 = .ok 1 ∨ ∃ e, ended.1 = .error e) ∧ ended.2.files = files) := by
  cases ends with
  | unread failed other => exact .inr ⟨.inr ⟨_, rfl⟩, rfl⟩
  | malformed read malformed => exact .inr ⟨.inl rfl, rfl⟩
  | useless e read wellFormed built none_there => exact .inr ⟨.inr ⟨_, rfl⟩, rfl⟩
  | stored read wellFormed built terms store =>
    exact .inl ⟨rfl, _, _, ⟨_, read, wellFormed⟩, built, terms, Files.read_of_store store⟩

end Ends

end Endings

/-- **Building is all or nothing.** Where files can be written, a command that builds an index with given stop words
either ends with status zero, and then the output holds the index of the documents of the collection, in the compression
of the version, with each of them in the order of the collection and with what is known of it; or it ends with status one
or fails, and then all files are as they were. It ends with status zero wherever all that it is given can be read and
some document has a term. With a valid version and stop words that can be read it ends with status one exactly if the
collection does not have the form of one; for the documents of a collection are never refused by the index. -/
theorem build_all_or_nothing (files : Files) (version stopWords collection output : String) (workers : Value)
    (around : Surroundings)
    (writable : ∀ data, ∃ later, (Files.store output data).run files = (.ok (), later)) :
    let outcome := (Request.build ⟨some version, some stopWords⟩ (some collection) (some output) workers).on around files
    -- all or nothing
    ((outcome.1 = .ok 0 ∧ ∃ settings words documents ix,
        Reads files version stopWords collection settings words documents ∧
        buildIndex settings.aggregateMode (.ofWords words Stemmer.porter) (documents.map Source.ofDocument) = .ok ix ∧
        outcome.2.files.read output = .ok (ix.save settings.compression) ∧
        (Gzip.isCompressed (ix.save settings.compression) = true ↔ settings.compression = .gzip) ∧
        storedText (ix.save settings.compression) = .ok ix.text ∧ 0 < ix.termCount ∧
        ix.allDocs = documents.map Corpus.Document.id ∧ ix.metadata.keys = documents.map Corpus.Document.id ∧
        ∀ d ∈ documents, ix.metadata.get? d.id = some d.metadata) ∨
      ((outcome.1 = .ok 1 ∨ ∃ e, outcome.1 = .error e) ∧ outcome.2.files = files)) ∧
    -- which of the two
    (∀ settings words documents (ix : Index Float),
      Reads files version stopWords collection settings words documents → workers.isNumber = true →
      buildIndex settings.aggregateMode (.ofWords words Stemmer.porter) (documents.map Source.ofDocument) = .ok ix →
      0 < ix.termCount → outcome.1 = .ok 0) ∧
    (∀ settings text, Settings.ofVersion? version = some settings → files.readText stopWords = .ok text →
      (outcome.1 = .ok 1 ↔
        ∃ content e, files.readText collection = .ok content ∧
          Corpus.readCollection content = .error (.format e))) ∧
    -- documents that are read are indexed
    ∀ content documents, Corpus.readCollection content = .ok documents → ∀ mode normalizer,
      ∃ ix : Index Float, buildIndex mode normalizer (documents.map Source.ofDocument) = .ok ix := by
  intro outcome
  have indexed {content : String} {documents : List Corpus.Document}
      (read : Corpus.readCollection content = .ok documents) :=
    exists_buildIndex (α := Float) read
  by_cases ready : ∃ settings text, Settings.ofVersion? version = some settings ∧ files.readText stopWords = .ok text
  · obtain ⟨settings, text, accepted, given⟩ := ready
    have ends : Ends files collection output workers settings _ outcome := ends_build accepted given writable
    refine ⟨ends.all_or_nothing.imp_left ?_, fun settings' words documents ix reads number built terms => ?_,
      fun _ _ _ _ => ends.status_one_iff, @indexed⟩
    · rintro ⟨zero, documents, ix, reads, built, terms, stored⟩
      obtain ⟨all, ascending, known⟩ := documents_of_buildIndex built
      exact ⟨zero, settings, _, documents, ix, ⟨accepted, ⟨text, given, rfl⟩, reads⟩, built, stored,
        isCompressed_save ix _, storedText_of_unpackStored (unpackStored_save ix _), terms, all, ascending, known⟩
    · obtain ⟨accepted', ⟨text', given', rfl⟩, documents⟩ := reads
      rw [accepted'] at accepted
      rw [given'] at given
      cases accepted
      cases given
      exact ends.status_zero number documents built terms
  · obtain ⟨e, refused⟩ : ∃ e, outcome = (.error e, { files }) := run_build_refused ready
    refine ⟨.inr ?_, fun settings words documents ix reads => ?_, fun settings text accepted given => ?_, @indexed⟩
    · rw [refused]
      exact ⟨.inr ⟨e, rfl⟩, rfl⟩
    · obtain ⟨text, given, -⟩ := reads.words
      exact absurd ⟨settings, text, reads.settings, given⟩ ready
    · exact absurd ⟨settings, text, accepted, given⟩ ready

/-- A collection whose second document is out of order leaves the index that was stored before. -/
theorem build_all_or_nothing_of_unordered :
    let files : Files := ⟨[(⟨false, ["documents"]⟩, .file ".I 2\n.W\nab\n.I 1\n.W\nab\n".toUTF8),
      (⟨false, ["words"]⟩, .file "".toUTF8), (⟨false, ["ix.json"]⟩, .file "before".toUTF8)], by decide⟩
    let outcome := (Request.build ⟨some "CranIndex-v1.12B", some "words"⟩ (some "documents") (some "ix.json")
      (.integer 4)).on {} files
    outcome.1 = .ok 1 ∧ outcome.2.files.read "ix.json" = .ok "before".toUTF8 := by
  intro files outcome
  have collection : files.readText "documents" = .ok ".I 2\n.W\nab\n.I 1\n.W\nab\n" := by
    have read : files.read "documents" = .ok ".I 2\n.W\nab\n.I 1\n.W\nab\n".toUTF8 := rfl
    exact Files.readText_of_read read (by cbv)
  have unordered : Corpus.readCollection ".I 2\n.W\nab\n.I 1\n.W\nab\n" =
      .error (.format ⟨.documentOutOfOrder 1 2, some 4⟩) := by
    cbv
  have words : files.readText "words" = .ok "" := by
    have read : files.read "words" = .ok "".toUTF8 := rfl
    exact Files.readText_of_read read rfl
  have version : Settings.ofVersion? "CranIndex-v1.12B" =
      some { aggregateMode := .occurrences, compression := .gzip, queryMode := .boolean } :=
    rfl
  obtain ⟨all_or_nothing, -, status, -⟩ := build_all_or_nothing files "CranIndex-v1.12B" "words" "documents" "ix.json"
    (.integer 4) {} fun data => ⟨_, rfl⟩
  have one : outcome.1 = .ok 1 := (status _ _ version words).2 ⟨_, _, collection, unordered⟩
  rcases all_or_nothing with ⟨zero, -⟩ | ⟨-, same⟩
  · exact absurd (one.symm.trans zero) (by simp)
  · refine ⟨one, ?_⟩
    show Files.read _ "ix.json" = _
    rw [same]
    rfl

end Command
end Retrieval
