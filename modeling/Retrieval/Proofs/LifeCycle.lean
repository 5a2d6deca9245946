import Retrieval.Proofs.Steps
import Retrieval.Workspace

/-!
# The index a workspace works on

A run is a list of calls on one workspace: builds and loads, which may fail, and uses of the index. The index after a
run is that of the latest call that had one to put in place (`index_after`). It is used if it has terms, and an index
without terms is refused as if there were none (`noIndex_iff_of_calls`), although it comes from a call that succeeded
(`noIndex_of_build_empty`).
-/

set_option autoImplicit false

namespace Retrieval.Workspace

/-- A call on a workspace, with the files as they are then. -/
inductive Call where
  | build (files : Files) (path : String)
  | buildFrom (documents : List Source)
  | load (files : Files) (path : String)
  | save (files : Files) (path : String)
  | searcher

namespace Call

/-- What a build or a load leaves behind; the other calls change nothing. -/
def outcome? (w : Workspace) : Call → Option Outcome
  | build files path => some (w.build files path)
  | buildFrom documents => some (w.buildFrom (.ok documents))
  | load files path => some (w.load files path)
  | save _ _ | searcher => none

/-- The workspace after a call. -/
def next (w : Workspace) (c : Call) : Workspace := (c.outcome? w).elim w Outcome.workspace

/-- The index of a build or a load that succeeds. -/
def success? (w : Workspace) (c : Call) : Option (Index Float) := (c.outcome? w).bind (·.result.toOption)

/-- The index that a call puts in place: what a build gives, or what a file holds, even if its stop words are of no
use. -/
def found? (w : Workspace) : Call → Option (Index Float)
  | load files path => (files.read path).toOption.bind fun data => (Index.load data).toOption
  | c => c.success? w

end Call

/-- The workspace after a run. -/
def after (w : Workspace) (calls : List Call) : Workspace := calls.foldl Call.next w

/-- What the latest call of a run gives that gives something. -/
def latest? (gives : Workspace → Call → Option (Index Float)) : Workspace → List Call → Option (Index Float)
  | _, [] => none
  | w, c :: calls => (latest? gives (c.next w) calls).or (gives w c)

/-- Every call of a run that puts an index in place succeeds. -/
def Smooth (w : Workspace) (calls : List Call) : Prop :=
  ∀ before c later, calls = before ++ c :: later → ∀ ix, c.found? (w.after before) = some ix →
    c.success? (w.after before) = some ix

/-! ### One call -/

/-- An outcome keeps the settings, has the index that was found in place of the one before, and has a normaliser if
there was one or the operation succeeded. -/
structure Follows (w : Workspace) (found : Option (Index Float)) (o : Outcome) : Prop where
  settings : o.workspace.settings = w.settings
  index : o.workspace.index = found.or w.index
  success : ∀ ix, o.result = .ok ix → found = some ix ∧ o.workspace.normalizer.isSome = true
  normalizer : w.normalizer.isSome = true → o.workspace.normalizer.isSome = true

theorem follows_unchanged (w : Workspace) (e : Failure) : w.Follows none (w.unchanged e) where
  settings := rfl
  index := rfl
  success := by rintro ix ⟨⟩
  normalizer := id

theorem follows_buildFrom (w : Workspace) (documents : Except Failure (List Source)) :
    w.Follows (w.buildFrom documents).result.toOption (w.buildFrom documents) := by
  rw [buildFrom]
  cases w.normalizer.or w.settings.fallback with
  | none => exact w.follows_unchanged _
  | some normalizer =>
    cases documents with
    | error e => exact ⟨rfl, rfl, by rintro ix ⟨⟩, fun _ => rfl⟩
    | ok documents =>
      cases built : buildIndexWith (α := Float) w.settings.aggregateMode normalizer w.settings.workers documents with
      | error e =>
        simp only [built]
        exact ⟨rfl, rfl, by rintro ix ⟨⟩, fun _ => rfl⟩
      | ok ix =>
        simp only [built]
        refine ⟨rfl, rfl, ?_, fun _ => rfl⟩
        rintro _ ⟨⟩
        exact ⟨rfl, rfl⟩

theorem follows_adopt (w : Workspace) (ix : Index Float) : w.Follows (some ix) (w.adopt ix) := by
  obtain ⟨settings, normalizer, before⟩ := w
  have refused (e : Failure) :
      Follows ⟨settings, normalizer, before⟩ (some ix) ⟨⟨settings, normalizer, some ix⟩, .error e, []⟩ :=
    ⟨rfl, rfl, by rintro _ ⟨⟩, id⟩
  have taken (normalizer' : Normalizer) (notices : List Notice) :
      Follows ⟨settings, normalizer, before⟩ (some ix) ⟨⟨settings, some normalizer', some ix⟩, .ok ix, notices⟩ :=
    ⟨rfl, rfl, by rintro _ ⟨⟩; exact ⟨rfl, rfl⟩, fun _ => rfl⟩
  rw [adopt]
  cases normalizer with
  | none =>
    cases stored : ix.stopWords with
    | none =>
      cases fallback : settings.fallback with
      | none => simpa only [fallback] using refused .noStopWords
      | some normalizer => simpa only [fallback] using taken normalizer []
    | some words =>
      dsimp only
      split
      · exact refused .compoundStopWord
      · exact taken ⟨words, Stemmer.porter⟩ []
  | some normalizer =>
    cases stored : ix.stopWords with
    | none => exact taken normalizer []
    | some words =>
      dsimp only
      split
      · exact refused .compoundStopWord
      · exact taken normalizer _

/-- A call puts in place the index that it finds, and nothing else. -/
theorem follows_outcome {w : Workspace} {c : Call} {o : Outcome} (h : c.outcome? w = some o) :
    w.Follows (c.found? w) o := by
  cases c with
  | build files path | buildFrom documents =>
    cases h
    exact w.follows_buildFrom _
  | load files path =>
    cases h
    rw [Call.found?, load]
    cases files.read path with
    | error e => exact w.follows_unchanged (.file e)
    | ok data =>
      cases loaded : Index.load data with
      | error e => simpa only [Except.toOption, Option.bind_some, loaded] using w.follows_unchanged (.load e)
      | ok ix => simpa only [Except.toOption, Option.bind_some, loaded] using w.follows_adopt ix
  | save | searcher => cases h

theorem found?_of_outcome?_none {w : Workspace} {c : Call} (h : c.outcome? w = none) : c.found? w = none := by
  cases c with
  | build | buildFrom | load => cases h
  | save | searcher => rfl

/-- The index of a call that succeeds is put in place, and there is a normaliser then. -/
theorem Call.found?_of_success? {w : Workspace} {c : Call} {ix : Index Float} (h : c.success? w = some ix) :
    c.found? w = some ix ∧ (c.next w).normalizer.isSome = true := by
  obtain ⟨o, left, result⟩ := Option.bind_eq_some_iff.1 h
  have ok : o.result = .ok ix := by
    cases read : o.result with
    | error e =>
      rw [read] at result
      cases result
    | ok ix' =>
      rw [read] at result
      cases result
      rfl
  rw [next, left]
  exact (follows_outcome left).success ix ok

theorem index_next (w : Workspace) (c : Call) : (c.next w).index = (c.found? w).or w.index := by
  rw [Call.next]
  cases left : c.outcome? w with
  | none => rw [found?_of_outcome?_none left]; rfl
  | some o => exact (follows_outcome left).index

theorem settings_next (w : Workspace) (c : Call) : (c.next w).settings = w.settings := by
  rw [Call.next]
  cases left : c.outcome? w with
  | none => rfl
  | some o => exact (follows_outcome left).settings

theorem normalizer_next {w : Workspace} {c : Call} (h : w.normalizer.isSome = true ∨ (c.success? w).isSome = true) :
    (c.next w).normalizer.isSome = true := by
  rcases h with present | success
  · rw [Call.next]
    cases left : c.outcome? w with
    | none => exact present
    | some o => exact (follows_outcome left).normalizer present
  · obtain ⟨ix, h⟩ := Option.isSome_iff_exists.1 success
    exact (Call.found?_of_success? h).2

/-! ### Runs -/

/-- The index after a run is that of the latest call that put one in place. -/
theorem index_after (w : Workspace) (calls : List Call) :
    (w.after calls).index = (latest? Call.found? w calls).or w.index := by
  induction calls generalizing w with
  | nil => rfl
  | cons c calls ih =>
    rw [after, List.foldl_cons, ← after, ih, index_next, latest?, Option.or_assoc]

theorem settings_after (w : Workspace) (calls : List Call) : (w.after calls).settings = w.settings := by
  induction calls generalizing w with
  | nil => rfl
  | cons c calls ih => rw [after, List.foldl_cons, ← after, ih, settings_next]

/-- After a call that succeeds there is a normaliser, whatever comes later. -/
theorem normalizer_after {w : Workspace} {calls : List Call}
    (h : w.normalizer.isSome = true ∨ (latest? Call.success? w calls).isSome = true) :
    (w.after calls).normalizer.isSome = true := by
  induction calls generalizing w with
  | nil => simpa [latest?, after] using h
  | cons c calls ih =>
    rw [after, List.foldl_cons, ← after]
    apply ih
    rw [latest?, Option.isSome_or, Bool.or_eq_true] at h
    rcases h with present | later | now
    · exact .inl (normalizer_next (.inl present))
    · exact .inr later
    · exact .inl (normalizer_next (.inr now))

/-- Where every call that puts an index in place succeeds, the latest index is that of the latest success. -/
theorem Smooth.latest?_eq {w : Workspace} {calls : List Call} (h : w.Smooth calls) :
    latest? Call.found? w calls = latest? Call.success? w calls := by
  induction calls generalizing w with
  | nil => rfl
  | cons c calls ih =>
    have now : c.found? w = c.success? w := by
      refine Option.ext fun ix => ?_
      exact ⟨h [] c calls rfl ix, fun success => (Call.found?_of_success? success).1⟩
    have later : (c.next w).Smooth calls := by
      rintro before c' rest rfl
      exact h (c :: before) c' rest rfl
    rw [latest?, latest?, ih later, now]

/-! ### Using the index -/

/-- An index with terms is there to be used, and otherwise there is none. -/
theorem ready_cases (w : Workspace) :
    w.ready = .error .noIndex ∧ (∀ ix ∈ w.index, ix.termCount = 0) ∨
      ∃ ix, w.ready = .ok ix ∧ w.index = some ix ∧ 0 < ix.termCount := by
  rw [ready]
  cases w.index with
  | none => exact .inl ⟨rfl, by rintro _ ⟨⟩⟩
  | some ix =>
    rcases Nat.eq_zero_or_pos ix.termCount with bare | terms
    · refine .inl ⟨?_, by rintro _ ⟨⟩; exact bare⟩
      rw [Option.filter_some, if_neg (by simp [bare])]
      rfl
    · refine .inr ⟨ix, ?_, rfl, terms⟩
      rw [Option.filter_some, if_pos (by simp [terms])]
      rfl

theorem ready_eq_ok {w : Workspace} {ix : Index Float} (present : w.index = some ix) (terms : 0 < ix.termCount) :
    w.ready = .ok ix := by
  rw [ready, present, Option.filter_some, if_pos (decide_eq_true terms)]
  rfl

theorem save_eq {w : Workspace} {ix : Index Float} (used : w.ready = .ok ix) (files : Files) (path : String) :
    w.save files path =
      Prod.map (Except.mapError Failure.file) id ((Files.store path (ix.save w.settings.compression)).run files) := by
  rw [save, used]
  rfl

/-- Storing an index does not fail for want of one. -/
theorem save_noIndex_iff {w : Workspace} {files : Files} {path : String} :
    (w.save files path).1 = .error .noIndex ↔ ∀ ix ∈ w.index, ix.termCount = 0 := by
  rcases w.ready_cases with ⟨refused, bare⟩ | ⟨ix, used, present, terms⟩
  · rw [save, refused]
    exact iff_of_true rfl bare
  · rw [save_eq used, Prod.map_fst]
    refine iff_of_false ?_ fun bare => Nat.ne_of_gt terms (bare ix present)
    cases ((Files.store path (ix.save w.settings.compression)).run files).1 with
    | error e => rintro ⟨⟩
    | ok done => rintro ⟨⟩

theorem searcher_noIndex_iff {w : Workspace} :
    w.searcher = .error .noIndex ↔ ∀ ix ∈ w.index, ix.termCount = 0 := by
  rw [searcher]
  rcases w.ready_cases with ⟨refused, bare⟩ | ⟨ix, used, present, terms⟩
  · rw [refused]
    exact iff_of_true rfl bare
  · rw [used]
    refine iff_of_false (fun failed => ?_) fun bare => Nat.ne_of_gt terms (bare ix present)
    cases given : w.normalizer with
    | none =>
      rw [given] at failed
      cases failed
    | some normalizer =>
      rw [given] at failed
      cases failed

/-- **What a run leaves to be used.** The index after a run is that of its latest call that put one in place. If there
is none, or it has no terms, saving and searching fail for want of an index. Otherwise it is the one that is saved, and
the one that is searched if some call has succeeded. Where every call that put an index in place succeeded, it is that
of the latest success. -/
theorem noIndex_iff_of_calls (settings : Settings) (normalizer : Option Normalizer) (calls : List Call) :
    let start : Workspace := ⟨settings, normalizer, none⟩
    let w := start.after calls
    let held := latest? Call.found? start calls
    (∀ files path, (w.save files path).1 = .error .noIndex ↔ ∀ ix ∈ held, ix.termCount = 0) ∧
    (w.searcher = .error .noIndex ↔ ∀ ix ∈ held, ix.termCount = 0) ∧
    (∀ ix ∈ held, 0 < ix.termCount →
      (∀ files path, w.save files path =
        Prod.map (Except.mapError Failure.file) id ((Files.store path (ix.save settings.compression)).run files)) ∧
      ((latest? Call.success? start calls).isSome = true → ∃ s, w.searcher = .ok s ∧ s.index = ix)) ∧
    (start.Smooth calls → held = latest? Call.success? start calls) := by
  intro start w held
  have index : w.index = held := by rw [index_after, Option.or_none]
  rw [← index]
  refine ⟨fun _ _ => save_noIndex_iff, searcher_noIndex_iff, fun ix present terms => ⟨fun files path => ?_, ?_⟩, ?_⟩
  · have settings : w.settings = settings := settings_after start calls
    rw [save_eq (ready_eq_ok present terms), settings]
  · intro success
    obtain ⟨normalizer, given⟩ := Option.isSome_iff_exists.1 (normalizer_after (.inr success))
    have given : w.normalizer = some normalizer := given
    rw [searcher, ready_eq_ok present terms, given]
    exact ⟨_, rfl, rfl⟩
  · intro smooth
    rw [index]
    exact smooth.latest?_eq

/-- Building the index of no documents succeeds, and the index is refused as if it had not been built. -/
theorem noIndex_of_build_empty :
    let start : Workspace := ⟨{}, some ⟨[], id⟩, none⟩
    let calls := [Call.buildFrom []]
    (latest? Call.success? start calls).isSome = true ∧
      ((start.after calls).save Table.empty "index.json").1 = .error .noIndex ∧
      (start.after calls).searcher = .error .noIndex := by
  exact ⟨rfl, rfl, rfl⟩

end Retrieval.Workspace
