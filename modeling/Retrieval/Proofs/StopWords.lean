import Retrieval.Proofs.LifeCycle
import Retrieval.Proofs.Persistence

/-!
# Stop words of an index and of its queries

What a normaliser does depends on its stop words only as a set (`terms_congr`), and two lists are taken for the same
words if they are the same set (`sameWords_of_mem_iff`). A workspace without a normaliser takes one from the first index
that it loads. It keeps that one, so the stop words of an index that is loaded later are those of its queries only if
they are the same words (`stopWords_after_loads`); where they are not, a notice says so, and the words of the first
index stay in use (`stopWords_of_first_load`).
-/

set_option autoImplicit false

namespace Retrieval
open Json (Value)

/-! ### The same words -/

theorem same_string_iff {s : String} {v : Value} : Value.same (.string s) v = true ↔ v = .string s := by
  cases v with
  | string t =>
    simp only [Value.same, beq_iff_eq, Value.string.injEq]
    exact eq_comm
  | _ => simp [Value.same]

theorem Number.same_self (n : Value.Number) : n.same n = true := by
  cases n with
  | unordered => rfl
  | infinite negative => simp [Value.Number.same]
  | fraction num den => simp [Value.Number.same]

theorem same_self {v : Value} (atom : v.isAtom = true) : Value.same v v = true := by
  cases v with
  | null => simp [Value.same]
  | bool b => simp [Value.same, Value.number?, Number.same_self]
  | integer n => simp [Value.same, Value.number?, Number.same_self]
  | real x => simp [Value.same, Value.number?, Number.same_self]
  | string s => simp [Value.same]
  | list | object => cases atom

theorem allIn_of_subset {xs ys : List Value} (atoms : ∀ v ∈ xs, v.isAtom = true) (sub : xs ⊆ ys) :
    allIn xs ys = true :=
  List.all_eq_true.2 fun v hv => List.any_eq_true.2 ⟨v, sub hv, same_self (atoms v hv)⟩

/-- Lists with the same members are the same words. -/
theorem sameWords_of_mem_iff {xs ys : List Value} (atoms : ∀ v ∈ xs, v.isAtom = true) (h : ∀ v, v ∈ xs ↔ v ∈ ys) :
    sameWords xs ys = true := by
  rw [sameWords, allIn_of_subset atoms fun v => (h v).1,
    allIn_of_subset (fun v hv => atoms v ((h v).2 hv)) fun v => (h v).2]
  rfl

theorem string_mem_of_allIn {xs ys : List Value} (h : allIn xs ys = true) {s : String} (mem : .string s ∈ xs) :
    .string s ∈ ys := by
  obtain ⟨v, hv, same⟩ := List.any_eq_true.1 (List.all_eq_true.1 h _ mem)
  rw [same_string_iff] at same
  exact same ▸ hv

/-- The same words have the same texts among them. -/
theorem string_mem_iff_of_sameWords {xs ys : List Value} (h : sameWords xs ys = true) (s : String) :
    .string s ∈ xs ↔ .string s ∈ ys := by
  rw [sameWords, Bool.and_eq_true] at h
  exact ⟨string_mem_of_allIn h.1, string_mem_of_allIn h.2⟩

namespace Normalizer

theorem stops_iff {n : Normalizer} {token : String} : n.stops token = true ↔ .string token ∈ n.stopWords := by
  rw [stops, List.any_eq_true]
  constructor
  · rintro ⟨v, hv, same⟩
    exact same_string_iff.1 same ▸ hv
  · exact fun h => ⟨_, h, same_self rfl⟩

/-- Normalisers with one stemmer and the same texts for stop words give the same terms. -/
theorem terms_congr {m n : Normalizer} (stem : m.stem = n.stem)
    (words : ∀ token, .string token ∈ m.stopWords ↔ .string token ∈ n.stopWords) : m.terms = n.terms := by
  have keeps : m.keeps = n.keeps := by
    funext token
    rw [keeps, keeps, Bool.eq_iff_iff.2 (stops_iff.trans ((words token).trans stops_iff.symm))]
  funext text
  rw [terms, terms, keeps, stem]

end Normalizer

/-! ### An index of one document -/

namespace Index

/-- The index of one document with one term, which stores one stop word. -/
def single (term stopWord : String) : Index Float :=
  .make ⟨[(term, ⟨1, [⟨1, 1⟩]⟩)], List.nodup_singleton _⟩ ⟨[(1, .ofBits 0x3FF0000000000000)], List.nodup_singleton _⟩ ∅
    .occurrences (some [.string stopWord])

theorem canonical_single (term stopWord : String) : (single term stopWord).Canonical := by
  constructor
  case allDocs => rfl
  case metadata => intro p mem; cases mem
  case stopWords =>
    intro words hw
    cases hw
    exact ⟨[stopWord], rfl, List.pairwise_singleton ..⟩

/-- The integers of an index of one document are short if its metadata are. -/
theorem short_of_one {term : String} {norm : Float} {metadata : Table Int Metadata} {mode : AggregateMode}
    {stopWords : Option (List Value)} (described : ∀ p ∈ metadata.toList, p.1 = 1 ∧ (Artifact.ofMetadata p.2).Short) :
    Short (.make ⟨[(term, ⟨1, [⟨1, 1⟩]⟩)], List.nodup_singleton _⟩ ⟨[(1, norm)], List.nodup_singleton _⟩ metadata mode
      stopWords) := by
  have one : Numeral.Short 1 := by decide +kernel
  constructor
  case aggregates =>
    intro p mem
    rw [List.mem_singleton.1 mem]
    exact one
  case postings =>
    intro p mem q posted
    rw [List.mem_singleton.1 mem] at posted
    rw [List.mem_singleton.1 posted]
    exact ⟨one, one⟩
  case docs =>
    intro doc mem
    rw [List.mem_singleton.1 mem]
    exact one
  case described =>
    intro doc mem
    obtain ⟨p, hp, rfl⟩ := List.mem_map.1 mem
    rw [(described p hp).1]
    exact one
  case metadata => exact fun p mem => (described p mem).2

theorem short_single (term stopWord : String) : (single term stopWord).Short := short_of_one fun p mem => by cases mem

theorem load_single (term stopWord : String) (c : Compression) :
    Index.load ((single term stopWord).save c) = .ok (single term stopWord) :=
  load_of_unpackStored (canonical_single ..) (short_single ..) (unpackStored_save ..)

end Index

namespace Workspace

/-! ### One load -/

/-- The normaliser that a workspace without one takes from an index. -/
def taken (settings : Settings) (ix : Index Float) : Option Normalizer :=
  (ix.stopWords.map fun words => ⟨words, Stemmer.porter⟩).or settings.fallback

/-- The notices of a load: one if there is a normaliser and its stop words are not those of the index. -/
def mismatch (normalizer : Option Normalizer) (ix : Index Float) : List Notice :=
  match normalizer, ix.stopWords with
  | some n, some words => if sameWords words n.stopWords then [] else [stopWordNotice words]
  | _, _ => []

theorem mismatch_eq_nil_iff {n : Normalizer} {ix : Index Float} {words : List Value} (h : ix.stopWords = some words) :
    mismatch (some n) ix = [] ↔ sameWords words n.stopWords = true := by
  simp only [mismatch, h]
  cases sameWords words n.stopWords <;> simp

/-- Whether a stop word of an index is a list or an object, which no normaliser can have. -/
def compound (ix : Index Float) : Bool := ix.stopWords.any fun words => words.any (!·.isAtom)

/-- What adopting an index does: the workspace keeps the normaliser that it has, and otherwise takes that of the index.
It fails if there is none to take, or if the stop words of the index are of no use. -/
theorem adopt_eq (w : Workspace) (ix : Index Float) :
    w.adopt ix =
      if compound ix then { workspace := { w with index := some ix }, result := .error .compoundStopWord }
      else
        match w.normalizer.or (taken w.settings ix) with
        | none => { workspace := { w with index := some ix }, result := .error .noStopWords }
        | some n =>
          { workspace := ⟨w.settings, some n, some ix⟩, result := .ok ix, notices := mismatch w.normalizer ix } := by
  obtain ⟨settings, normalizer, before⟩ := w
  unfold mismatch taken compound
  rw [adopt]
  cases stored : ix.stopWords with
  | none =>
    cases normalizer with
    | none =>
      cases fallback : settings.fallback with
      | none => simp
      | some n => simp
    | some n => simp
  | some words =>
    cases normalizer with
    | none => simp
    | some n => simp

/-- A load that succeeds leaves the normaliser that there was, or that of the index, and one of them there is. -/
theorem adopt_ok {w : Workspace} {ix ix' : Index Float} (h : (w.adopt ix).result = .ok ix') :
    (w.adopt ix).workspace.normalizer = w.normalizer.or (taken w.settings ix) ∧
      (w.adopt ix).notices = mismatch w.normalizer ix ∧ (w.normalizer.or (taken w.settings ix)).isSome = true := by
  rw [adopt_eq] at h ⊢
  split at h
  · cases h
  · rename_i plain
    rw [if_neg plain]
    cases kept : w.normalizer.or (taken w.settings ix) with
    | none =>
      rw [kept] at h
      cases h
    | some n => exact ⟨rfl, rfl, rfl⟩

/-- A load that fails leaves the normaliser as it is. -/
theorem adopt_error {w : Workspace} {ix : Index Float} {e : Failure} (h : (w.adopt ix).result = .error e) :
    (w.adopt ix).workspace.normalizer = w.normalizer := by
  rw [adopt_eq] at h ⊢
  split at h
  · rename_i refused
    rw [if_pos refused]
  · rename_i plain
    rw [if_neg plain]
    cases kept : w.normalizer.or (taken w.settings ix) with
    | none => rfl
    | some n =>
      rw [kept] at h
      cases h

theorem success?_load (w : Workspace) (files : Files) (path : String) :
    (Call.load files path).success? w = (w.load files path).result.toOption := rfl

theorem next_load (w : Workspace) (files : Files) (path : String) :
    (Call.load files path).next w = (w.load files path).workspace := rfl

theorem after_load (w : Workspace) (files : Files) (path : String) :
    w.after [.load files path] = (w.load files path).workspace := rfl

theorem load_eq {w : Workspace} {files : Files} {path : String} {data : ByteArray} {ix : Index Float}
    (read : files.read path = .ok data) (loaded : Index.load data = .ok ix) : w.load files path = w.adopt ix := by
  rw [load, read]
  simp only [loaded]

/-- A load of an index succeeds if its stop words are of use and there is a normaliser, or one to be taken. -/
theorem load_plain {w : Workspace} {files : Files} {path : String} {data : ByteArray} {ix : Index Float}
    {n : Normalizer} (read : files.read path = .ok data) (loaded : Index.load data = .ok ix)
    (plain : compound ix = false) (kept : w.normalizer.or (taken w.settings ix) = some n) :
    w.load files path =
      { workspace := ⟨w.settings, some n, some ix⟩, result := .ok ix, notices := mismatch w.normalizer ix } := by
  rw [load_eq read loaded, adopt_eq, plain, kept]
  rfl

/-- What a load does that succeeds: it adopts the index that the file holds. -/
theorem load_ok {w : Workspace} {files : Files} {path : String} {ix : Index Float}
    (h : (w.load files path).result = .ok ix) : w.load files path = w.adopt ix ∧ (w.adopt ix).result = .ok ix := by
  rw [load] at h ⊢
  cases read : files.read path with
  | error e =>
    rw [read] at h
    cases h
  | ok data =>
    cases loaded : Index.load data with
    | error e =>
      simp only [read, loaded] at h
      cases h
    | ok ix' =>
      simp only [read, loaded] at h ⊢
      obtain ⟨same, -⟩ := (follows_adopt w ix').success ix h
      cases same
      exact ⟨rfl, h⟩

theorem load_error {w : Workspace} {files : Files} {path : String} {e : Failure}
    (h : (w.load files path).result = .error e) : (w.load files path).workspace.normalizer = w.normalizer := by
  rw [load] at h ⊢
  cases read : files.read path with
  | error e => rfl
  | ok data =>
    cases loaded : Index.load data with
    | error e => simp only [loaded, unchanged]
    | ok ix =>
      simp only [read, loaded] at h ⊢
      exact adopt_error h

/-! ### Runs of loads -/

/-- Whether a call is a load. -/
def Call.IsLoad : Call → Prop
  | load _ _ => True
  | _ => False

/-- The index of the first call of a run that succeeds. -/
def firstSuccess? : Workspace → List Call → Option (Index Float)
  | _, [] => none
  | w, c :: calls => (c.success? w).or (firstSuccess? (c.next w) calls)

/-- The step: a load leaves the normaliser that there was, or that of its index if it succeeds. -/
theorem normalizer_next_of_load {w : Workspace} {c : Call} (load : c.IsLoad) :
    (c.next w).normalizer = w.normalizer.or ((c.success? w).bind (taken w.settings)) := by
  cases c with
  | load files path =>
    rw [next_load, success?_load]
    cases result : (w.load files path).result with
    | error e =>
      rw [load_error result]
      simp [Except.toOption]
    | ok ix =>
      obtain ⟨adopted, ok⟩ := load_ok result
      rw [adopted, (adopt_ok ok).1]
      rfl
  | _ => cases load

/-- The run: after loads there is the normaliser that there was, or that of the first index that was loaded. -/
theorem normalizer_after_loads {w : Workspace} {calls : List Call} (loads : ∀ c ∈ calls, c.IsLoad) :
    (w.after calls).normalizer = w.normalizer.or ((firstSuccess? w calls).bind (taken w.settings)) := by
  induction calls generalizing w with
  | nil => simp [after, firstSuccess?]
  | cons c calls ih =>
    obtain ⟨load, loads⟩ := List.forall_mem_cons.1 loads
    rw [after, List.foldl_cons, ← after, ih loads, settings_next, normalizer_next_of_load load, firstSuccess?]
    cases success : c.success? w with
    | none => simp
    | some ix =>
      -- a load that succeeds leaves a normaliser, so that nothing is taken later
      have kept := normalizer_next (w := w) (c := c) (.inr (by rw [success]; rfl))
      rw [normalizer_next_of_load load, success] at kept
      obtain ⟨n, kept⟩ := Option.isSome_iff_exists.1 kept
      rw [Option.some_or, kept]
      rfl

/-- The stop words of an index that is loaded are of use. -/
theorem atoms_of_adopt {w : Workspace} {ix : Index Float} {words : List Value} (h : (w.adopt ix).result = .ok ix)
    (stored : ix.stopWords = some words) : ∀ v ∈ words, v.isAtom = true := by
  rw [adopt_eq] at h
  split at h
  · cases h
  · rename_i plain
    rw [compound, stored, Option.any_some, List.any_eq_true] at plain
    intro v hv
    by_contra other
    exact plain ⟨v, hv, by simpa using other⟩

/-- A load that finds an index adopts it. -/
theorem adopt_of_success? {w : Workspace} {files : Files} {path : String} {ix : Index Float}
    (success : (Call.load files path).success? w = some ix) :
    w.load files path = w.adopt ix ∧ (w.adopt ix).result = .ok ix := by
  rw [success?_load] at success
  cases result : (w.load files path).result with
  | error e =>
    rw [result] at success
    cases success
  | ok ix' =>
    rw [result] at success
    cases success
    exact load_ok result

/-- A load leaves no notice exactly if the index stores the words that are kept. -/
theorem notices_adopt_eq_nil_iff {w : Workspace} {ix : Index Float} {words kept : List Value} {stem : String → String}
    (adopted : (w.adopt ix).result = .ok ix) (stored : ix.stopWords = some words)
    (keeps : w.normalizer.or (taken w.settings ix) = some ⟨kept, stem⟩) :
    (w.adopt ix).notices = [] ↔ sameWords words kept = true := by
  rw [(adopt_ok adopted).2.1]
  cases given : w.normalizer with
  | none =>
    rw [given, Option.none_or, taken, stored] at keeps
    cases keeps
    exact iff_of_true rfl (sameWords_of_mem_iff (atoms_of_adopt adopted stored) fun _ => Iff.rfl)
  | some n =>
    rw [given, Option.some_or] at keeps
    cases keeps
    exact mismatch_eq_nil_iff stored

/-- **The stop words of the index that was loaded first stay in use.** After a run of loads on a workspace without a
normaliser, one more index is loaded. It is the index of the workspace then, and its queries are filtered with the stop
words of the index that was loaded first, or with its own if it is the first. The load leaves no notice exactly if these
are its own words, and then just the words that it stores are stopped. -/
theorem stopWords_after_loads {settings : Settings} {before : List Call} {files : Files} {path : String}
    {ix : Index Float} {words : List Value} (loads : ∀ c ∈ before, c.IsLoad)
    (success : (Call.load files path).success? (after ⟨settings, none, none⟩ before) = some ix)
    (stored : ix.stopWords = some words)
    (all_stored : ∀ first ∈ firstSuccess? ⟨settings, none, none⟩ before, first.stopWords.isSome = true) :
    let start : Workspace := ⟨settings, none, none⟩
    let w := start.after (before ++ [.load files path])
    ∃ kept, ((firstSuccess? start before).getD ix).stopWords = some kept ∧
      w.index = some ix ∧ w.normalizer = some ⟨kept, Stemmer.porter⟩ ∧
      (0 < ix.termCount → ∃ s, w.searcher = .ok s ∧ s.index = ix ∧ s.normalizer = ⟨kept, Stemmer.porter⟩) ∧
      (((start.after before).load files path).notices = [] ↔ sameWords words kept = true) ∧
      (sameWords words kept = true → ∀ token, Normalizer.stops ⟨kept, Stemmer.porter⟩ token = true ↔
        .string token ∈ words) := by
  intro start w
  have last : w = (Call.load files path).next (start.after before) := List.foldl_append ..
  obtain ⟨adopted, ok⟩ := adopt_of_success? success
  obtain ⟨kept, first⟩ : ∃ kept, ((firstSuccess? start before).getD ix).stopWords = some kept := by
    cases h : firstSuccess? start before with
    | none => exact ⟨words, stored⟩
    | some ix₀ => exact Option.isSome_iff_exists.1 (all_stored ix₀ h)
  have keeps : (start.after before).normalizer.or (taken (start.after before).settings ix) =
      some ⟨kept, Stemmer.porter⟩ := by
    have takes : taken settings ((firstSuccess? start before).getD ix) = some ⟨kept, Stemmer.porter⟩ := by
      rw [taken, first]
      rfl
    rw [settings_after, normalizer_after_loads loads]
    cases found : firstSuccess? start before with
    | none =>
      rw [found] at takes
      exact takes
    | some ix₀ =>
      rw [found, Option.getD_some] at takes
      show (taken settings ix₀).or _ = _
      rw [takes]
      rfl
  have index : w.index = some ix := by
    rw [last, index_next, (Call.found?_of_success? success).1]
    rfl
  have given : w.normalizer = some ⟨kept, Stemmer.porter⟩ := by
    rw [last, next_load, adopted, (adopt_ok ok).1, keeps]
  refine ⟨kept, first, index, given, fun terms => ?_, ?_, fun same token => ?_⟩
  · rw [searcher, ready_eq_ok index terms, given]
    exact ⟨_, rfl, rfl, rfl⟩
  · rw [adopted]
    exact notices_adopt_eq_nil_iff ok stored keeps
  · rw [Normalizer.stops_iff]
    exact (string_mem_iff_of_sameWords same token).symm

/-- Two indexes with the same stop words are loaded, and no notice is left. -/
theorem stopWords_after_loads_of_same_words :
    let files : Files := ⟨[(⟨false, ["a.json"]⟩, .file ((Index.single "dog" "the").save .none)),
      (⟨false, ["b.json"]⟩, .file ((Index.single "cat" "the").save .none))], by decide⟩
    let w := after ⟨{}, none, none⟩ [.load files "a.json"]
    (Call.load files "b.json").success? w = some (.single "cat" "the") ∧ (w.load files "b.json").notices = [] := by
  intro files w
  have first : w = ⟨{}, some ⟨[.string "the"], Stemmer.porter⟩, some (.single "dog" "the")⟩ :=
    (after_load ..).trans (congrArg Outcome.workspace (load_plain rfl (Index.load_single ..) rfl rfl))
  have second : w.load files "b.json" = _ := load_plain rfl (Index.load_single ..) rfl (by rw [first]; rfl)
  have success : (Call.load files "b.json").success? w = some (.single "cat" "the") := by
    rw [success?_load, second]
    rfl
  have loads : ∀ c ∈ [Call.load files "a.json"], c.IsLoad := by simp [Call.IsLoad]
  have stored : firstSuccess? ⟨{}, none, none⟩ [.load files "a.json"] = some (.single "dog" "the") := by
    rw [firstSuccess?, success?_load, load_plain rfl (Index.load_single ..) rfl rfl]
    rfl
  have all_stored : ∀ first ∈ firstSuccess? ⟨{}, none, none⟩ [.load files "a.json"], first.stopWords.isSome = true := by
    intro first mem
    rw [stored] at mem
    cases mem
    rfl
  obtain ⟨kept, words, -, -, -, silent, -⟩ := stopWords_after_loads loads success rfl all_stored
  rw [stored] at words
  cases words
  have atoms : ∀ v ∈ [Value.string "the"], v.isAtom = true := List.forall_mem_singleton.2 rfl
  exact ⟨success, silent.2 (sameWords_of_mem_iff atoms fun _ => Iff.rfl)⟩

/-- Two indexes are loaded one after the other, and the queries of the second are filtered with the stop words of the
first. -/
theorem stopWords_of_first_load :
    let files : Files := ⟨[(⟨false, ["a.json"]⟩, .file ((Index.single "dog" "the").save .none)),
      (⟨false, ["b.json"]⟩, .file ((Index.single "dog" "cat").save .none))], by decide⟩
    let w := after ⟨{}, none, none⟩ [.load files "a.json"]
    (Call.load files "b.json").success? w = some (.single "dog" "cat") ∧
      ∃ s, ((Call.load files "b.json").next w).searcher = .ok s ∧ s.index = .single "dog" "cat" ∧
        s.normalizer.stops "cat" = false ∧ s.normalizer.stops "the" = true := by
  intro files w
  have first : w = ⟨{}, some ⟨[.string "the"], Stemmer.porter⟩, some (.single "dog" "the")⟩ :=
    (after_load ..).trans (congrArg Outcome.workspace (load_plain rfl (Index.load_single ..) rfl rfl))
  have second : w.load files "b.json" = _ := load_plain rfl (Index.load_single ..) rfl (by rw [first]; rfl)
  have ready : ready ⟨{}, some ⟨[.string "the"], Stemmer.porter⟩, some (.single "dog" "cat")⟩ =
      .ok (.single "dog" "cat") := ready_eq_ok rfl Nat.one_pos
  constructor
  · rw [success?_load, second]
    rfl
  · rw [next_load, second, first, searcher, ready]
    refine ⟨_, rfl, rfl, ?_, ?_⟩
    · rw [← Bool.not_eq_true, Normalizer.stops_iff]
      simp
    · rw [Normalizer.stops_iff]
      simp

end Workspace
end Retrieval
