import Retrieval.Proofs.Command.Opening
import Retrieval.Proofs.Files

/-!
# Building an index by a command

A command that builds an index reads its settings, its stop words and its collection, and stores what it has built. What
becomes of it is one case analysis (`run_build`), and it ends with status zero only if each step succeeds and the index
has terms (`exists_of_build`).
-/

set_option autoImplicit false

namespace Retrieval
open Json (Value)

/-- The text of a file is what its bytes hold, if it has no line ends of another form. -/
theorem Files.readText_of_read {files : Files} {path text : String} (read : files.read path = .ok text.toUTF8)
    (unified : Text.unifyNewlines text.toList = text.toList) : files.readText path = .ok text := by
  rw [Files.readText, bind_eq read, Files.textOf, fromUTF8?_toUTF8]
  show Except.ok (String.ofList (Text.unifyNewlines text.toList)) = _
  rw [unified, String.ofList_toList]

namespace Command

/-! ### The steps -/

/-- The documents of a command: those of its collection, and none without one. -/
def documentsFor (files : Files) (collection : Option String) : Except Failure (List Source) :=
  collection.elim (.ok []) (Workspace.documentsOf files)

/-- The documents of a command come from a collection. -/
theorem exists_of_documentsFor {files : Files} {collection : Option String} {sources : List Source}
    (h : documentsFor files collection = .ok sources) :
    ∃ documents : List Corpus.Document, sources = documents.map Source.ofDocument := by
  cases collection with
  | none =>
    cases h
    exact ⟨[], rfl⟩
  | some path =>
    obtain ⟨text, -, h⟩ := exists_of_bind h
    obtain ⟨documents, -, h⟩ := exists_of_bind h
    cases h
    exact ⟨documents, rfl⟩

/-- What a workspace with a normaliser builds. -/
theorem buildFrom_eq {w : Workspace} {n : Normalizer} (given : w.normalizer = some n)
    (documents : Except Failure (List Source)) :
    w.buildFrom documents =
      match documents >>= buildIndexWith w.settings.aggregateMode n w.settings.workers with
      | .error e => w.unchanged e
      | .ok ix => { workspace := { w with index := some ix }, result := .ok ix } := by
  obtain ⟨settings, normalizer, index⟩ := w
  cases given
  cases documents with
  | error e => rfl
  | ok sources => rfl

theorem run_saveIndex (w : Workspace) (output : String) (world : World) :
    (saveIndex w (some output)).run world =
      match w.ready with
      | .error e => (.error e, world)
      | .ok ix =>
        let stored := (Files.store output (ix.save w.settings.compression)).run world.files
        (stored.1.mapError .file, { world with files := stored.2 }) := by
  rw [saveIndex, run_bind, run_ofExcept]
  cases ready : w.ready with
  | error e => rfl
  | ok ix =>
    show (needed (some output) >>= _ : Action Unit).run world = _
    rw [run_bind_ok (run_needed output world), run_bind_ok (run_get world), Workspace.save_eq ready]
    dsimp only
    cases (Files.store output (ix.save w.settings.compression)).run world.files with
    | mk r later => cases r <;> rfl

/-! ### The command -/

section Built

variable {files : Files} {common : Common} {collection : Option String} {output : String} {workers : Value}
  {around : Surroundings}

/-- What a command does that builds and stores an index. -/
theorem run_build {w : Workspace} {n : Normalizer}
    (opened : workspaceOn files common none (some workers) none = .ok w) (given : w.normalizer = some n) :
    (Request.build common collection (some output) workers).on around files =
      match documentsFor files collection >>= buildIndexWith w.settings.aggregateMode n w.settings.workers with
      | .error (.corpus (.format e)) => (.ok 1, { files, notices := [abortNotice e] })
      | .error e => (.error e, { files })
      | .ok ix =>
        if 0 < ix.termCount then
          let stored := (Files.store output (ix.save w.settings.compression)).run files
          ((stored.1.mapError Failure.file).map fun _ => 0, { files := stored.2 })
        else (.error .noIndex, { files }) := by
  have outcome : collection.elim (w.buildFrom (.ok [])) (w.build files) =
      w.buildFrom (documentsFor files collection) := by
    cases collection <;> rfl
  have workspace : (openWorkspace common none (some workers) none).run { files } = (.ok w, { files }) := by
    rw [run_openWorkspace, opened]
  rw [Request.on, Request.action, runBuild, run_bind_ok workspace, run_bind_ok (run_get _)]
  dsimp only
  rw [outcome, buildFrom_eq given]
  cases built : documentsFor files collection >>=
      buildIndexWith (α := Float) w.settings.aggregateMode n w.settings.workers with
  | error e =>
    cases e with
    | corpus e => cases e <;> rfl
    | _ => rfl
  | ok ix =>
    show (saveIndex { w with index := some ix } (some output) >>= fun _ => pure 0 : Action Nat).run { files } = _
    rw [run_bind, run_saveIndex]
    dsimp only
    by_cases terms : 0 < ix.termCount
    · have ready : Workspace.ready { w with index := some ix } = .ok ix := Workspace.ready_eq_ok rfl terms
      rw [ready, if_pos terms]
      dsimp only
      cases (Files.store output (ix.save w.settings.compression)).run files with
      | mk r later => cases r <;> rfl
    · have refused : Workspace.ready { w with index := some ix } = .error .noIndex := by
        rw [Workspace.ready, Option.filter_some, decide_eq_false terms]
        rfl
      rw [refused, if_neg terms]

/-- What a command has done that built an index with given stop words. -/
theorem exists_of_build {version : Option String} {stopWords : String} {world : World}
    (h : (Request.build ⟨version, some stopWords⟩ collection (some output) workers).on around files = (.ok 0, world)) :
    ∃ (settings : Settings) (text : String) (documents : List Corpus.Document) (ix : Index Float),
      files.readText stopWords = .ok text ∧
      buildIndexWith settings.aggregateMode (.ofWords (readStopWords text) Stemmer.porter) settings.workers
        (documents.map Source.ofDocument) = .ok ix ∧
      0 < ix.termCount ∧ (Files.store output (ix.save settings.compression)).run files = (.ok (), world.files) := by
  cases opened : workspaceOn files ⟨version, some stopWords⟩ none (some workers) none with
  | error e =>
    have failed : (openWorkspace ⟨version, some stopWords⟩ none (some workers) none).run { files } =
        (.error e, { files }) := by
      rw [run_openWorkspace, opened]
    rw [Request.on, Request.action, runBuild, run_bind_error failed] at h
    cases h
  | ok w =>
    obtain ⟨settings, -, read⟩ := exists_of_bind opened
    obtain ⟨text, given, read⟩ := exists_of_bind read
    rw [mapError_eq_ok_iff] at given
    cases read
    rw [run_build opened rfl] at h
    cases built : documentsFor files collection >>= buildIndexWith (α := Float) settings.aggregateMode
        (.ofWords (readStopWords text) Stemmer.porter) settings.workers with
    | error e =>
      rw [built] at h
      cases e with
      | corpus e => cases e <;> cases h
      | _ => cases h
    | ok ix =>
      rw [built] at h
      obtain ⟨sources, read, built⟩ := exists_of_bind built
      obtain ⟨documents, rfl⟩ := exists_of_documentsFor read
      dsimp only at h
      split at h
      · rename_i terms
        refine ⟨settings, text, documents, ix, given, built, terms, ?_⟩
        cases stored : (Files.store output (ix.save settings.compression)).run files with
        | mk r later =>
          rw [stored] at h
          cases r with
          | error e => cases h
          | ok u =>
            cases h
            rfl
      · cases h

end Built
end Command

/-! ### An index of one document -/

/-- A document with one term. -/
def Corpus.Document.tiny : Corpus.Document := ⟨1, "", "", ["ab"]⟩

/-- The index of a document with one term, which stores stop words. -/
def Index.tiny (words : List String) : Index Float :=
  .make ⟨[("ab", ⟨1, [⟨1, 1⟩]⟩)], List.nodup_singleton _⟩ ⟨[(1, documentNorm [1])], List.nodup_singleton _⟩
    ⟨[(1, Corpus.Document.tiny.metadata)], List.nodup_singleton _⟩ .occurrences
    (some (storedWords (.ofWords words Stemmer.porter)))

theorem built_tiny (words : List String) (kept : "ab" ∉ words) :
    buildIndexWith .occurrences (.ofWords words Stemmer.porter) (.integer 1)
      ([Corpus.Document.tiny].map Source.ofDocument) = .ok (.tiny words) := by
  have number : (Value.integer 1).isNumber = true := rfl
  have tokens : textTokens "ab" = ["ab"] := by cbv
  have keeps : Normalizer.keeps (.ofWords words Stemmer.porter) "ab" = true := by
    have stops : Normalizer.stops (.ofWords words Stemmer.porter) "ab" = false := by
      rw [← Bool.not_eq_true, Normalizer.stops_iff, Normalizer.ofWords]
      simpa using kept
    rw [Normalizer.keeps, stops]
    rfl
  have stem : Stemmer.porter "ab" = "ab" := by decide +kernel
  have terms : Normalizer.termsOfLines (.ofWords words Stemmer.porter) ["ab"] = ["ab"] := by
    rw [Normalizer.termsOfLines, List.flatMap_singleton, Normalizer.terms, tokens, List.filter_singleton, keeps]
    exact congrArg (fun term => [term]) stem
  have addition : (Source.ofDocument .tiny).addition (.ofWords words Stemmer.porter) =
      ⟨1, ["ab"], some Corpus.Document.tiny.metadata⟩ := by
    rw [Source.addition]
    exact congrArg (Addition.mk 1 · (some Corpus.Document.tiny.metadata)) terms
  have counts : termCounts ["ab"] = [("ab", 1)] := by cbv
  rw [buildIndexWith, if_pos number, buildIndex_eq, List.map_singleton, List.map_singleton, addition,
    Accumulator.addAll, List.foldlM_cons, Accumulator.add, counts]
  rfl

end Retrieval
