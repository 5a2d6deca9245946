import Retrieval.Command.Run
import Retrieval.Proofs.Settings
import Retrieval.Proofs.StopWords

/-!
# Opening an index for a command

A command first reads its settings and stop words, then loads its index. What comes of it depends on the files alone
and prints nothing (`opened`), so a command that searches an index is what it does with the searcher, after the notices
of the load (`run_withSearcher`). Opening succeeds on every index that can be searched (`Opens`).
-/

set_option autoImplicit false

namespace Retrieval.Command
open Json (Value)

/-! ### Runs of actions -/

section Actions

variable {α : Type}

theorem run_ofExcept {ε : Type} (failure : ε → Failure) (r : Except ε α) (world : World) :
    (ofExcept failure r).run world = (r.mapError failure, world) := by
  cases r with
  | ok a => rfl
  | error e => rfl

theorem run_notice (n : Notice) (world : World) :
    (notice n).run world = (.ok (), { world with notices := world.notices ++ [n] }) := rfl

theorem run_needed (path : String) (world : World) : (needed (some path)).run world = (.ok path, world) := rfl

theorem run_get (world : World) : (get : Action World).run world = (.ok world, world) := rfl

theorem run_notices (ns : List Notice) (world : World) :
    (ns.forM notice : Action Unit).run world = (.ok (), { world with notices := world.notices ++ ns }) := by
  induction ns generalizing world with
  | nil =>
    show (Except.ok (), world) = _
    rw [List.append_nil]
  | cons n ns ih =>
    show (notice n >>= fun _ => ns.forM notice : Action Unit).run world = _
    rw [run_bind_ok (run_notice n world), ih, List.append_assoc]
    rfl

theorem run_printReport (page : Page Unit) (world : World) :
    (printReport page).run world =
      (page.print.2.elim (.ok ()) fun e => .error (.report e),
        { world with printed := world.printed ++ page.print.1 }) := by
  rw [printReport]
  cases page.print with
  | mk text error =>
    cases error with
    | none => rfl
    | some e => rfl

end Actions

/-- How a command ends on files, and what it leaves behind. -/
def Request.on (request : Request) (around : Surroundings) (files : Files) : Except Failure Nat × World :=
  (request.action around).run { files }

/-! ### The searcher of a command -/

section Opened

variable (files : Files) (common : Common) (topK workers threshold : Option Value)

/-- The workspace of a command on files. -/
def workspaceOn : Except Failure Workspace := do
  let settings ← (settingsFor common topK workers threshold).mapError .settings
  match common.stopWords with
  | none => return ⟨settings, none, none⟩
  | some path =>
    let text ← (files.readText path).mapError .file
    return ⟨settings, some (.ofWords (readStopWords text) Stemmer.porter), none⟩

/-- The searcher of a workspace on an index that is stored in files, and the notices of the load. -/
def searcherOn (w : Workspace) : Option String → Except Failure (Searcher Float) × List Notice
  | none => (.error (.file .noPath), [])
  | some path => ((w.load files path).result >>= fun _ => (w.load files path).workspace.searcher,
      (w.load files path).notices)

/-- The searcher of a command on an index that is stored in files, and the notices of opening it. -/
def opened (index : Option String) : Except Failure (Searcher Float) × List Notice :=
  match workspaceOn files common topK workers threshold with
  | .error e => (.error e, [])
  | .ok w => searcherOn files w index

theorem run_openWorkspace (world : World) :
    (openWorkspace common topK workers threshold).run world =
      (workspaceOn world.files common topK workers threshold, world) := by
  rw [openWorkspace, run_bind, run_ofExcept, workspaceOn]
  cases settingsFor common topK workers threshold with
  | error e => rfl
  | ok settings =>
    cases common.stopWords with
    | none => rfl
    | some path =>
      show (get >>= fun world => ofExcept Failure.file (world.files.readText path) >>= _ :
        Action Workspace).run world = _
      rw [run_bind_ok (run_get world), run_bind, run_ofExcept]
      show _ = ((world.files.readText path).mapError Failure.file >>= _, world)
      cases (world.files.readText path).mapError Failure.file with
      | error e => rfl
      | ok text => rfl

theorem run_openSearcher (w : Workspace) (index : Option String) (world : World) :
    (openSearcher w index).run world =
      ((searcherOn world.files w index).1,
        { world with notices := world.notices ++ (searcherOn world.files w index).2 }) := by
  cases index with
  | none =>
    show (Except.error (Failure.file .noPath), world) = _
    rw [searcherOn, List.append_nil]
  | some path =>
    rw [openSearcher, run_bind_ok (run_needed path world), run_bind_ok (run_get world), run_bind_ok (run_notices ..),
      run_bind, run_ofExcept, searcherOn]
    cases (w.load world.files path).result with
    | error e => rfl
    | ok ix =>
      show (ofExcept id (w.load world.files path).workspace.searcher).run _ = _
      rw [run_ofExcept]
      show ((w.load world.files path).workspace.searcher.mapError id, _) = _
      cases (w.load world.files path).workspace.searcher <;> rfl

/-- A command that searches an index is what it does with the searcher. -/
theorem run_withSearcher {β : Type} (index : Option String) (k : Searcher Float → Action β) :
    (do let s ← openSearcher (← openWorkspace common topK workers threshold) index; k s : Action β).run { files } =
      match opened files common topK workers threshold index with
      | (.ok s, notices) => (k s).run { files, notices }
      | (.error e, notices) => (.error e, { files, notices }) := by
  rw [run_bind, run_openWorkspace, opened]
  cases workspaceOn files common topK workers threshold with
  | error e => rfl
  | ok w =>
    simp only [run_bind, run_openSearcher, List.nil_append]
    cases searcherOn files w index with
    | mk r notices => cases r <;> rfl

/-! ### Indexes that can be searched -/

/-- A command accepts what it is given: its version is that of settings, and its file of stop words can be read, if it
has one. -/
structure Common.Accepted : Prop where
  version : ∃ text settings, common.version = some text ∧ Settings.ofVersion? text = some settings
  given : ∀ file ∈ common.stopWords, ∃ text, files.readText file = .ok text

/-- A command can search the index that is stored under a path: it is loaded, has terms, and stores stop words of use,
or none where a file is given. -/
structure Opens (path : String) (ix : Index Float) : Prop extends common.Accepted files where
  loaded : ∃ data, files.read path = .ok data ∧ Index.load data = .ok ix
  terms : 0 < ix.termCount
  plain : Workspace.compound ix = false
  words : common.stopWords.isSome = true ∨ ix.stopWords.isSome = true

variable {files common}

theorem settingsFor_eq {text : String} {settings : Settings} (version : common.version = some text)
    (read : Settings.ofVersion? text = some settings) :
    settingsFor common topK workers threshold =
      .ok { settings with
        topK := changedBy topK settings.topK
        workers := changedBy workers settings.workers
        threshold := threshold.getD settings.threshold } := by
  rw [settingsFor, version, Option.elim_some, Settings.ofVersion, read]
  rfl

theorem workspaceOn_none {settings : Settings} (read : settingsFor common topK workers threshold = .ok settings)
    (none_given : common.stopWords = none) :
    workspaceOn files common topK workers threshold = .ok ⟨settings, none, none⟩ := by
  rw [workspaceOn, read, none_given]
  rfl

theorem workspaceOn_some {settings : Settings} {file text : String}
    (read : settingsFor common topK workers threshold = .ok settings) (one_given : common.stopWords = some file)
    (given : files.readText file = .ok text) :
    workspaceOn files common topK workers threshold =
      .ok ⟨settings, some (.ofWords (readStopWords text) Stemmer.porter), none⟩ := by
  simp only [workspaceOn, read, one_given, given]
  rfl

/-- The searcher on a loaded index, for a workspace that has a normaliser or can take that of the index. -/
theorem searcherOn_eq {w : Workspace} {path : String} {data : ByteArray} {ix : Index Float} {n : Normalizer}
    (read : files.read path = .ok data) (loaded : Index.load data = .ok ix) (terms : 0 < ix.termCount)
    (plain : Workspace.compound ix = false) (kept : w.normalizer.or (Workspace.taken w.settings ix) = some n) :
    searcherOn files w (some path) =
      (.ok ⟨ix, n, w.settings.topK, w.settings.queryMode, w.settings.threshold⟩,
        Workspace.mismatch w.normalizer ix) := by
  have adopted := Workspace.load_plain read loaded plain kept
  have ready : Workspace.ready ⟨w.settings, some n, some ix⟩ = .ok ix := Workspace.ready_eq_ok rfl terms
  rw [searcherOn, adopted]
  show (Workspace.searcher ⟨w.settings, some n, some ix⟩, _) = _
  rw [Workspace.searcher, ready]
  rfl

/-- Opening an index that can be searched succeeds, and queries are stemmed as documents are. -/
theorem Opens.opened {path : String} {ix : Index Float} (h : Opens files common path ix) :
    ∃ settings n notices, settingsFor common topK workers threshold = .ok settings ∧
      Command.opened files common topK workers threshold (some path) =
        (.ok ⟨ix, n, settings.topK, settings.queryMode, settings.threshold⟩, notices) ∧
      n.stem = Stemmer.porter := by
  obtain ⟨text, base, version, accepted⟩ := h.version
  obtain ⟨data, read, loaded⟩ := h.loaded
  have settings := settingsFor_eq topK workers threshold version accepted
  cases file : common.stopWords with
  | none =>
    obtain ⟨words, stored⟩ := Option.isSome_iff_exists.1 (h.words.resolve_left (by rw [file]; decide))
    refine ⟨_, ⟨words, Stemmer.porter⟩, Workspace.mismatch none ix, settings, ?_, rfl⟩
    rw [Command.opened, workspaceOn_none _ _ _ settings file]
    exact searcherOn_eq read loaded h.terms h.plain (by rw [Workspace.taken, stored]; rfl)
  | some file' =>
    obtain ⟨words, given⟩ := h.given file' file
    refine ⟨_, .ofWords (readStopWords words) Stemmer.porter,
      Workspace.mismatch (some (.ofWords (readStopWords words) Stemmer.porter)) ix, settings, ?_, rfl⟩
    rw [Command.opened, workspaceOn_some _ _ _ settings file given]
    exact searcherOn_eq read loaded h.terms h.plain rfl

/-- The stop words of an index in canonical form are texts. -/
theorem compound_of_canonical {ix : Index Float} (form : ix.Canonical) : Workspace.compound ix = false := by
  rw [Workspace.compound]
  cases stored : ix.stopWords with
  | none => rfl
  | some words =>
    obtain ⟨texts, rfl, -⟩ := form.stopWords words stored
    simp [Value.isAtom]

/-- An index that is stored in canonical form with its stop words can be searched, if it has terms. -/
theorem opens_of_stored {path : String} {ix : Index Float} {c : Compression} (accepted : common.Accepted files)
    (stored : files.read path = .ok (ix.save c)) (form : ix.Canonical) (short : ix.Short) (terms : 0 < ix.termCount)
    (words : ix.stopWords.isSome = true) : Opens files common path ix where
  toAccepted := accepted
  loaded := ⟨_, stored, Index.load_of_unpackStored form short (unpackStored_save ix c)⟩
  terms := terms
  plain := compound_of_canonical form
  words := .inr words

end Opened

end Retrieval.Command
