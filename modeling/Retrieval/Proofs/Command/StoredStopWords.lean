import Retrieval.Proofs.Command.Building

/-!
# Stop words that are stored with an index

The stop words of a file are stored with the index that is built with them, in ascending order and each once. Taken
from the index, they make a normaliser that gives the terms which those of the file give (`alike_storedWords`), and a
searcher answers alike with either (`answer_congr`). So a command that searches the index does the same whether the file
is given or not (`stored_stopWords_suffice`).
-/

set_option autoImplicit false

namespace Retrieval
open Json (Value)

/-! ### Normalisers that do the same -/

/-- Whether normalisers give the same terms and the same stems. -/
structure Normalizer.Alike (m n : Normalizer) : Prop where
  terms : m.terms = n.terms
  stem : m.stem = n.stem

theorem mem_storedWords_iff {words : List String} {stem : String → String} {v : Value} :
    v ∈ storedWords (.ofWords words stem) ↔ v ∈ (Normalizer.ofWords words stem).stopWords := by
  rw [storedWords_ofWords, Normalizer.ofWords]
  simp only [List.mem_map, List.mem_mergeSort, List.mem_eraseDups]

/-- The words that are stored stop what the given ones stop. -/
theorem alike_storedWords (words : List String) (stem : String → String) :
    Normalizer.Alike (.ofWords words stem) ⟨storedWords (.ofWords words stem), stem⟩ :=
  ⟨Normalizer.terms_congr rfl fun _ => mem_storedWords_iff.symm, rfl⟩

theorem sameWords_storedWords (words : List String) (stem : String → String) :
    sameWords (storedWords (.ofWords words stem)) (Normalizer.ofWords words stem).stopWords = true := by
  refine sameWords_of_mem_iff (fun v mem => ?_) fun v => mem_storedWords_iff
  obtain ⟨word, -, rfl⟩ := List.mem_map.1 (mem_storedWords_iff.1 mem)
  rfl

namespace Searcher

variable {s : Searcher Float} {n : Normalizer} (same : n.Alike s.normalizer)
include same

theorem boolean_congr (query : String) : boolean { s with normalizer := n } query = s.boolean query := by
  have matching : matching { s with normalizer := n } = s.matching := by
    funext tree
    rw [matching, matching, same.stem]
  rw [boolean, boolean, matching]

theorem ranked_congr (query : String) (topK : Option Value) :
    ranked { s with normalizer := n } query topK = s.ranked query topK := by
  have hits : rankQuery { s with normalizer := n } query = s.rankQuery query := by
    rw [rankQuery, rankQuery, same.terms]
  rw [ranked, ranked, hits]
  rfl

/-- A searcher answers alike with a normaliser that does the same. -/
theorem answer_congr (query : String) : answer { s with normalizer := n } query = s.answer query := by
  rw [answer, answer, boolean_congr same, ranked_congr same]

theorem batch_congr (queries : List String) (workers : Value) :
    batch { s with normalizer := n } queries workers = s.batch queries workers := by
  have each : (fun query => ranked { s with normalizer := n } query none) = fun query => s.ranked query none :=
    funext fun query => ranked_congr same query none
  rw [batch, batch, each]

end Searcher

namespace Command

theorem answerQueries_congr {s : Searcher Float} {n : Normalizer} (same : n.Alike s.normalizer)
    (queries : List String) : answerQueries { s with normalizer := n } queries = answerQueries s queries := by
  have each : answerQuery { s with normalizer := n } = answerQuery s := by
    funext query
    rw [answerQuery, answerQuery, Searcher.answer_congr same]
  rw [answerQueries, answerQueries, each]

theorem runSearch_congr {s : Searcher Float} {n : Normalizer} (same : n.Alike s.normalizer) (workers : Value)
    (queries : List String) : runSearch { s with normalizer := n } workers queries = runSearch s workers queries := by
  rw [runSearch, runSearch, Searcher.batch_congr same]

/-! ### Notices that an action leaves -/

/-- Whether an action leaves only notices of a kind, besides those that there are. -/
def Leaves {β : Type} (P : Notice → Prop) (x : Action β) : Prop :=
  ∀ world, ∀ n ∈ (x.run world).2.notices, n ∈ world.notices ∨ P n

section Leaves

variable {α β : Type} {P : Notice → Prop}

theorem Leaves.pure (b : β) : Leaves P (Pure.pure b : Action β) := fun _ _ => .inl

theorem Leaves.bind {x : Action α} {f : α → Action β} (first : Leaves P x) (then_ : ∀ a, Leaves P (f a)) :
    Leaves P (x >>= f) := by
  intro world n mem
  rw [run_bind] at mem
  have before := first world n
  cases done : x.run world with
  | mk r middle =>
    rw [done] at mem before
    cases r with
    | ok a => exact (then_ a middle n mem).elim before .inr
    | error e => exact before mem

theorem Leaves.mapM {f : α → Action β} {l : List α} (each : ∀ a ∈ l, Leaves P (f a)) : Leaves P (l.mapM f) := by
  induction l with
  | nil => exact Leaves.pure []
  | cons a l ih =>
    obtain ⟨first, others⟩ := List.forall_mem_cons.1 each
    rw [List.mapM_cons]
    exact first.bind fun b => (ih others).bind fun bs => Leaves.pure (b :: bs)

theorem Leaves.forM {f : α → Action Unit} {l : List α} (each : ∀ a, Leaves P (f a)) : Leaves P (l.forM f) := by
  induction l with
  | nil => exact Leaves.pure ()
  | cons a l ih => exact (each a).bind fun _ => ih

theorem leaves_ofExcept {ε : Type} (failure : ε → Failure) (r : Except ε β) : Leaves P (ofExcept failure r) := by
  intro world n mem
  rw [run_ofExcept] at mem
  exact .inl mem

theorem leaves_printReport (page : Page Unit) : Leaves P (printReport page) := by
  intro world n mem
  rw [run_printReport] at mem
  exact .inl mem

end Leaves

/-- Whether a notice says that one of the queries cannot be parsed. -/
def IsQueryNotice (queries : List String) (n : Notice) : Prop :=
  ∃ query ∈ queries, ∃ e, (Query.parse query).result = .error e ∧ n = queryNotice query e

theorem queryNotice_ne_stopWordNotice (query : String) (e : Query.ParseError) (words : List Value) :
    queryNotice query e ≠ Workspace.stopWordNotice words := by
  have shown : (Text.quoted query).toList = _ := String.toList_ofList
  have quoted : (queryNotice query e).text.toList[6]? = some (Text.quoteFor query.toList) := by
    show ("Query " ++ Text.quoted query ++ " failed: " ++ e.message).toList[6]? = _
    rw [String.append_assoc, String.append_assoc, String.toList_append, String.toList_append, shown]
    rfl
  have word : (Workspace.stopWordNotice words).text.toList[6]? = some 's' := by
    show ("Query stopwords differ from the " ++ toString words.length ++
      " stopwords the index was built with; " ++ "some query terms may never match").toList[6]? = _
    rw [String.append_assoc, String.append_assoc, String.toList_append]
    rfl
  have quote : Text.quoteFor query.toList ≠ 's' := by
    rw [Text.quoteFor]
    split <;> decide
  intro same
  rw [same, word, Option.some.injEq] at quoted
  exact quote quoted.symm

/-- A searcher takes no query for one that cannot be parsed but those. -/
theorem result_of_answer {s : Searcher Float} {query : String} {e : Query.ParseError}
    (failed : s.answer query = .error (.parse e)) : (Query.parse query).result = .error e := by
  rw [Searcher.answer] at failed
  cases mode : s.mode with
  | boolean =>
    rw [mode, Searcher.boolean] at failed
    cases parsed : (Query.parse query).result with
    | error e' =>
      rw [parsed] at failed
      cases failed
      rfl
    | ok tree =>
      rw [parsed] at failed
      cases failed
  | ranked =>
    rw [mode] at failed
    cases ranked : s.ranked query none with
    | error e' =>
      rw [ranked] at failed
      cases failed
    | ok found =>
      rw [ranked] at failed
      cases failed

/-- Answering queries leaves notices of queries that cannot be parsed, and no others. -/
theorem leaves_answerQueries (s : Searcher Float) (queries : List String) :
    Leaves (IsQueryNotice queries) (answerQueries s queries) := by
  have each : ∀ query ∈ queries, Leaves (IsQueryNotice queries) (answerQuery s query) := by
    intro query mem
    rw [answerQuery]
    split
    · exact fun _ _ => .inl
    · exact (leaves_printReport _).bind fun _ => Leaves.pure true
    · rename_i e failed
      refine Leaves.bind (fun world n left => ?_) fun _ => Leaves.pure false
      rw [run_notice, List.mem_append, List.mem_singleton] at left
      exact left.imp_right fun same => ⟨query, mem, e, result_of_answer failed, same⟩
    · exact fun _ _ => .inl
  exact (Leaves.mapM each).bind fun _ => Leaves.pure _

theorem leaves_runSearch {P : Notice → Prop} (s : Searcher Float) (workers : Value) (queries : List String) :
    Leaves P (runSearch s workers queries) :=
  (leaves_ofExcept _ _).bind fun _ => (Leaves.forM fun _ => leaves_printReport _).bind fun _ => Leaves.pure 0

/-! ### Commands on a stored index -/

/-- The requests that search an index for queries, by the file of stop words that they are given. -/
inductive Searches (version : Option String) (index : String) (queries : List String) : (Option String → Request) → Prop
  | boolean : Searches version index queries fun stopWords => .boolean ⟨version, stopWords⟩ (some index) queries
  | search (topK workers : Value) :
    Searches version index queries fun stopWords => .search ⟨version, stopWords⟩ (some index) topK workers queries
  | query (topK : Value) :
    Searches version index queries fun stopWords => .query ⟨version, stopWords⟩ (some index) topK queries

section Stored

variable {files : Files} {index path text : String} {ix : Index Float} {c : Compression}
  (stored : files.read index = .ok (ix.save c)) (form : ix.Canonical) (terms : 0 < ix.termCount)
  (words : ix.stopWords = some (storedWords (.ofWords (readStopWords text) Stemmer.porter)))
  (given : files.readText path = .ok text)
include stored form terms words given

/-- An index that stores the stop words of a file is opened in the same way whether the file is given or not, up to a
normaliser that does the same, and no notice is left. -/
theorem opened_alike (version : Option String) (topK workers threshold : Option Value) :
    (∃ e, opened files ⟨version, some path⟩ topK workers threshold (some index) = (.error e, []) ∧
      opened files ⟨version, none⟩ topK workers threshold (some index) = (.error e, [])) ∨
    ∃ (s : Searcher Float) (n : Normalizer), n.Alike s.normalizer ∧
      opened files ⟨version, some path⟩ topK workers threshold (some index) = (.ok { s with normalizer := n }, []) ∧
      opened files ⟨version, none⟩ topK workers threshold (some index) = (.ok s, []) := by
  cases read : settingsFor ⟨version, none⟩ topK workers threshold with
  | error e =>
    have read' : settingsFor ⟨version, some path⟩ topK workers threshold = .error e := read
    refine .inl ⟨.settings e, ?_, ?_⟩
    · rw [opened, workspaceOn, read']
      rfl
    · rw [opened, workspaceOn, read]
      rfl
  | ok settings =>
    have read' : settingsFor ⟨version, some path⟩ topK workers threshold = .ok settings := read
    rw [opened, opened, workspaceOn_none _ _ _ read rfl, workspaceOn_some _ _ _ read' rfl given]
    dsimp only
    cases load : Index.load (ix.save c) with
    | error e =>
      refine .inl ⟨.load e, ?_, ?_⟩ <;>
      · rw [searcherOn, Workspace.load, stored]
        dsimp only
        rw [load]
        rfl
    | ok loaded =>
      have same := Index.eq_of_load form (unpackStored_save ix c) load
      rw [same] at load
      have plain := compound_of_canonical form
      have taken : Workspace.taken settings ix =
          some ⟨storedWords (.ofWords (readStopWords text) Stemmer.porter), Stemmer.porter⟩ := by
        rw [Workspace.taken, words]
        rfl
      have silent : Workspace.mismatch (some (.ofWords (readStopWords text) Stemmer.porter)) ix = [] :=
        (Workspace.mismatch_eq_nil_iff words).2 (sameWords_storedWords ..)
      refine .inr ⟨⟨ix, ⟨storedWords (.ofWords (readStopWords text) Stemmer.porter), Stemmer.porter⟩, settings.topK,
        settings.queryMode, settings.threshold⟩, .ofWords (readStopWords text) Stemmer.porter, alike_storedWords ..,
        ?_, ?_⟩
      · rw [searcherOn_eq stored load terms plain rfl, silent]
      · exact searcherOn_eq stored load terms plain taken

/-- What is done with the searcher is done in the same way whether the stop words are given or not. -/
theorem run_withSearcher_alike {β : Type} {P : Notice → Prop} {k : Searcher Float → Action β}
    (same : ∀ (s : Searcher Float) (n : Normalizer), n.Alike s.normalizer → k { s with normalizer := n } = k s)
    (leaves : ∀ s, Leaves P (k s)) (version : Option String) (topK workers threshold : Option Value) :
    let run (stopWords : Option String) :=
      (do let s ← openSearcher (← openWorkspace ⟨version, stopWords⟩ topK workers threshold) (some index)
          k s : Action β).run { files }
    run none = run (some path) ∧ ∀ n ∈ (run (some path)).2.notices, P n := by
  intro run
  have ends : ∀ stopWords, run stopWords = _ := fun stopWords =>
    run_withSearcher files ⟨version, stopWords⟩ topK workers threshold (some index) k
  rcases opened_alike stored form terms words given version topK workers threshold with
    ⟨e, full, bare⟩ | ⟨s, n, alike, full, bare⟩
  · rw [ends, ends, full, bare]
    exact ⟨rfl, fun n mem => by cases mem⟩
  · rw [ends, ends, full, bare]
    dsimp only
    rw [same s n alike]
    exact ⟨rfl, fun n mem => (leaves s _ n mem).elim (fun before => by cases before) id⟩

/-- A search for queries ends in the same way whether the stop words are given or not. -/
theorem on_alike {version : Option String} {queries : List String} {request : Option String → Request}
    (searches : Searches version index queries request) (around : Surroundings) :
    (request none).on around files = (request (some path)).on around files ∧
      ∀ n ∈ ((request (some path)).on around files).2.notices, IsQueryNotice queries n := by
  cases searches with
  | boolean =>
    have same (s : Searcher Float) (n : Normalizer) (alike : n.Alike s.normalizer) :
        answerQueries { { s with normalizer := n } with mode := .boolean } queries =
          answerQueries { s with mode := .boolean } queries :=
      @answerQueries_congr { s with mode := .boolean } n alike queries
    exact run_withSearcher_alike stored form terms words given same (fun s => leaves_answerQueries _ queries) version
      none none none
  | search topK workers =>
    exact run_withSearcher_alike stored form terms words given (fun s n alike => runSearch_congr alike workers queries)
      (fun s => leaves_runSearch s workers queries) version (some topK) (some workers) none
  | query topK =>
    exact run_withSearcher_alike stored form terms words given (fun s n alike => answerQueries_congr alike queries)
      (fun s => leaves_answerQueries s queries) version (some topK) none none

end Stored

/-- **Stop words need not be given again.** An index is built with a file of stop words, and is stored with the words of
the file, even if there are none; the file stays as it is unless the index is stored in its place. Wherever the two are
then found, a search of the index does the same without the file as with it, whatever the settings and the queries: it
prints the same text, leaves the same notices, and ends with the same status or the same failure. The notices are of
queries that cannot be parsed, and none says that the stop words are not those of the index. -/
theorem stored_stopWords_suffice {files : Files} {version collection : Option String} {stopWords output : String}
    {workers : Value} {around : Surroundings} {world : World}
    (wrote : (Request.build ⟨version, some stopWords⟩ collection (some output) workers).on around files =
      (.ok 0, world)) :
    (∃ (text : String) (ix : Index Float) (c : Compression) (words : List Value),
      files.readText stopWords = .ok text ∧ world.files.read output = .ok (ix.save c) ∧ 0 < ix.termCount ∧
        ix.stopWords = some words ∧ ∀ word, .string word ∈ words ↔ word ∈ readStopWords text) ∧
    (world.files.locate (.ofText stopWords) ≠ world.files.locate (.ofText output) →
      world.files.readText stopWords = files.readText stopWords) ∧
    ∀ (later : Files) (index path : String), later.read index = world.files.read output →
      later.readText path = files.readText stopWords →
      ∀ (version : Option String) (queries : List String) (request : Option String → Request),
        Searches version index queries request → ∀ around,
          (request none).on around later = (request (some path)).on around later ∧
          ∀ n ∈ ((request (some path)).on around later).2.notices,
            IsQueryNotice queries n ∧ ∀ words, n ≠ Workspace.stopWordNotice words := by
  obtain ⟨settings, text, documents, ix, given, built, terms, store⟩ := exists_of_build wrote
  have written := Files.read_of_store store
  have words : ix.stopWords = some (storedWords (.ofWords (readStopWords text) Stemmer.porter)) := by
    obtain ⟨acc, rfl, -, -⟩ := contents_of_build built
    rfl
  have same (word : String) : .string word ∈ storedWords (.ofWords (readStopWords text) Stemmer.porter) ↔
      word ∈ readStopWords text := by
    rw [mem_storedWords_iff, Normalizer.ofWords]
    simp
  refine ⟨⟨text, ix, _, _, given, written, terms, words, same⟩, fun apart => ?_,
    fun later index path moved kept version queries request searches around => ?_⟩
  · obtain ⟨data, read, decoded⟩ := exists_of_bind given
    rw [Files.readText, Files.readText, read, Files.read_other_of_store store read apart]
  · rw [written] at moved
    rw [given] at kept
    obtain ⟨same, left⟩ := on_alike moved (canonical_of_documents built) terms words kept searches around
    refine ⟨same, fun n mem => ⟨left n mem, fun words => ?_⟩⟩
    obtain ⟨query, -, e, -, rfl⟩ := left n mem
    exact queryNotice_ne_stopWordNotice query e words

/-- An index is built with an empty file of stop words. -/
theorem stored_stopWords_suffice_of_empty_file :
    let files : Files := ⟨[(⟨false, ["documents"]⟩, .file ".I 1\n.W\nab\n".toUTF8),
      (⟨false, ["words"]⟩, .file "".toUTF8)], by decide⟩
    let later : Files := files.insert ⟨false, ["ix.json"]⟩ (.file ((Index.tiny []).save .none))
    let common (words : Option String) : Common := ⟨some defaultVersion, words⟩
    (Request.build (common (some "words")) (some "documents") (some "ix.json") (.integer 1)).on {} files =
        (.ok 0, { files := later }) ∧
      (Request.boolean (common none) (some "ix.json") ["ab", "AND"]).on {} later =
        (Request.boolean (common (some "words")) (some "ix.json") ["ab", "AND"]).on {} later := by
  intro files later common
  have collection : files.readText "documents" = .ok ".I 1\n.W\nab\n" := by
    have read : files.read "documents" = .ok ".I 1\n.W\nab\n".toUTF8 := rfl
    exact Files.readText_of_read read (by cbv)
  have accepted : Corpus.readCollection ".I 1\n.W\nab\n" = .ok [.tiny] := by cbv
  have words : files.readText "words" = .ok "" := by
    have read : files.read "words" = .ok "".toUTF8 := rfl
    exact Files.readText_of_read read rfl
  have documents : documentsFor files (some "documents") = .ok ([Corpus.Document.tiny].map Source.ofDocument) := by
    show Workspace.documentsOf files "documents" = _
    rw [Workspace.documentsOf, bind_eq (mapError_eq_ok_iff.2 collection), bind_eq (mapError_eq_ok_iff.2 accepted)]
    rfl
  have none_read : readStopWords "" = [] := by cbv
  have opened : workspaceOn files (common (some "words")) none (some (.integer 1)) none =
      .ok ⟨{}, some (.ofWords [] Stemmer.porter), none⟩ := by
    rw [workspaceOn_some none (some (.integer 1)) none (settingsFor_eq none _ none rfl rfl) rfl words, none_read]
    rfl
  have store (data : ByteArray) : (Files.store "ix.json" data).run files =
      (.ok (), files.insert ⟨false, ["ix.json"]⟩ (.file data)) := rfl
  have wrote : (Request.build (common (some "words")) (some "documents") (some "ix.json") (.integer 1)).on {} files =
      (.ok 0, { files := later }) := by
    have built := (bind_eq rfl _).trans (built_tiny [] List.not_mem_nil)
    have terms : 0 < (Index.tiny []).termCount := Nat.one_pos
    rw [run_build opened rfl, documents, built]
    dsimp only
    rw [if_pos terms, store]
    rfl
  obtain ⟨-, unchanged, search⟩ := stored_stopWords_suffice wrote
  have apart : later.locate (.ofText "words") ≠ later.locate (.ofText "ix.json") := by
    have place : later.locate (.ofText "words") = .ok ⟨false, ["words"]⟩ := rfl
    have place' : later.locate (.ofText "ix.json") = .ok ⟨false, ["ix.json"]⟩ := rfl
    rw [place, place']
    simp
  have same := search later "ix.json" "words" rfl (unchanged apart) (some defaultVersion) ["ab", "AND"] _ .boolean {}
  exact ⟨wrote, same.1⟩

end Command
end Retrieval
