import Retrieval.Proofs.Command.Opening
import Retrieval.Proofs.Numeral.Digits
import Retrieval.Proofs.Terms

/-!
# Boolean queries of a command

A command answers boolean queries one by one. A query that is parsed prints one line, and one that is not prints
nothing, leaves a notice, and makes the status one (`run_answerQuery`). No query fails the command, and none changes
what the others print, so what a command prints for several queries is what it prints for each of them alone
(`boolean_queries_independent`).
-/

set_option autoImplicit false

namespace Retrieval
open Json (Value)

/-! ### Lines of ids -/

theorem Json.Value.printItems_integers (ns : List Int) : Value.printItems (ns.map .integer) = ns.map toString := by
  induction ns with
  | nil => rfl
  | cons n ns ih =>
    rw [List.map_cons, Value.printItems, ih]
    rfl

namespace Command

/-- The text of a list of ids is one line. -/
theorem newline_notMem_idsText (ids : List Int) : '\n' ∉ (idsText ids).toList := by
  have number : ∀ n : Int, ∀ c ∈ (toString n).toList, c ≠ '\n' := by
    intro n c h
    rw [Numeral.toList_toString] at h
    rcases List.mem_append.1 h with h | h
    · split at h
      · rw [List.mem_singleton.1 h]
        decide
      · cases h
    · rintro rfl
      exact absurd (Numeral.allDigits_digitsOf _ _ h) (by decide)
  have items : ∀ c ∈ (Json.commaSeparated (ids.map toString)).toList, c ≠ '\n' := by
    rw [Json.commaSeparated, String.toList_intercalate, List.map_map]
    refine Text.forall_mem_intercalate (by simp) fun piece mem => ?_
    obtain ⟨n, -, rfl⟩ := List.mem_map.1 mem
    exact number n
  intro h
  rw [idsText, Value.print, Value.printItems_integers, Json.bracketed, String.toList_append, String.toList_append,
    List.mem_append, List.mem_append] at h
  rcases h with (h | h) | h
  · exact absurd h (by decide)
  · exact items _ h rfl
  · exact absurd h (by decide)

/-! ### Answers to boolean queries -/

/-- Whether a query is parsed. -/
def parses (query : String) : Bool := (Query.parse query).result.isOk

/-- What a searcher prints for a boolean query. -/
def booleanText (s : Searcher Float) (query : String) : String :=
  match (Query.parse query).result with
  | .ok tree => idsText (s.matching tree) ++ "\n"
  | .error _ => ""

/-- The notices that a boolean query leaves. -/
def booleanNotices (query : String) : List Notice :=
  match (Query.parse query).result with
  | .ok _ => []
  | .error e => [queryNotice query e]

/-- The status after boolean queries. -/
def booleanStatus (queries : List String) : Nat := if queries.all parses then 0 else 1

theorem booleanStatus_append (qs rs : List String) :
    booleanStatus (qs ++ rs) = max (booleanStatus qs) (booleanStatus rs) := by
  rw [booleanStatus, booleanStatus, booleanStatus, List.all_append]
  cases qs.all parses <;> cases rs.all parses <;> rfl

variable {s : Searcher Float}

/-- The step: one query is answered with its own line or notice, whatever was printed before. -/
theorem run_answerQuery (mode : s.mode = .boolean) (query : String) (world : World) :
    (answerQuery s query).run world =
      (.ok (parses query), { world with
        printed := world.printed ++ booleanText s query
        notices := world.notices ++ booleanNotices query }) := by
  rw [answerQuery, Searcher.answer, mode]
  unfold Searcher.boolean parses booleanText booleanNotices
  cases (Query.parse query).result with
  | ok tree =>
    show (Except.ok true, { world with printed := world.printed ++ idsText (s.matching tree) ++ "\n" }) = _
    rw [String.append_assoc, List.append_nil]
    rfl
  | error e =>
    show (Except.ok false, { world with notices := world.notices ++ [queryNotice query e] }) = _
    rw [String.append_empty]
    rfl

/-- The run: each query is answered as the step says. -/
theorem run_mapM_answerQuery (mode : s.mode = .boolean) (queries : List String) (world : World) :
    (queries.mapM (answerQuery s)).run world =
      (.ok (queries.map parses), { world with
        printed := world.printed ++ String.join (queries.map (booleanText s))
        notices := world.notices ++ queries.flatMap booleanNotices }) := by
  induction queries generalizing world with
  | nil =>
    show (Except.ok [], world) = _
    rw [List.map_nil, List.map_nil, String.join_nil, String.append_empty, List.flatMap_nil, List.append_nil]
  | cons query queries ih =>
    rw [List.mapM_cons, run_bind_ok (run_answerQuery mode query world), run_bind_ok (ih _), List.map_cons,
      List.map_cons, String.join_cons, List.flatMap_cons, ← String.append_assoc, ← List.append_assoc]
    rfl

theorem run_answerQueries (mode : s.mode = .boolean) (queries : List String) (world : World) :
    (answerQueries s queries).run world =
      (.ok (booleanStatus queries), { world with
        printed := world.printed ++ String.join (queries.map (booleanText s))
        notices := world.notices ++ queries.flatMap booleanNotices }) := by
  rw [answerQueries, run_bind_ok (run_mapM_answerQuery mode queries world), booleanStatus, List.all_map]
  rfl

/-! ### Requests -/

/-- The requests that answer boolean queries on an index: those of the boolean command, and those for queries of any
kind whose version ends in the letter of boolean queries. -/
inductive AsksBoolean (common : Common) (path : String) : (List String → Request) → Prop
  | boolean : AsksBoolean common path (.boolean common (some path))
  | query (topK : Value) {text : String} (version : common.version = some text)
      (letter : (Settings.withoutFinalNewline text.toList).getLast? = some QueryMode.boolean.letter) :
      AsksBoolean common path (.query common (some path) topK)

theorem letter_injective {m n : QueryMode} (h : m.letter = n.letter) : m = n := by
  cases m <;> cases n <;> first | rfl | exact absurd h (by decide)

/-- What a command does with boolean queries on an index that it can search. -/
theorem run_boolean_request {files : Files} {common : Common} {path : String} {ix : Index Float}
    (opens : Opens files common path ix) {request : List String → Request} (asks : AsksBoolean common path request)
    (around : Surroundings) :
    ∃ (s : Searcher Float) (notices : List Notice), s.index = ix ∧ s.normalizer.stem = Stemmer.porter ∧
      ∀ queries, (request queries).on around files =
        (.ok (booleanStatus queries), {
          files
          printed := String.join (queries.map (booleanText s))
          notices := notices ++ queries.flatMap booleanNotices }) := by
  cases asks with
  | boolean =>
    obtain ⟨settings, n, notices, -, opened, stem⟩ := opens.opened none none none
    refine ⟨⟨ix, n, settings.topK, .boolean, settings.threshold⟩, notices, rfl, stem, fun queries => ?_⟩
    rw [Request.on, Request.action, run_withSearcher, opened]
    exact (run_answerQueries rfl ..).trans (by rw [String.empty_append])
  | query topK version letter =>
    obtain ⟨settings, n, notices, read, opened, stem⟩ := opens.opened (some topK) none none
    have mode : settings.queryMode = .boolean := by
      obtain ⟨text, base, version', accepted⟩ := opens.version
      rw [settingsFor_eq _ _ _ version' accepted] at read
      cases version.symm.trans version'
      cases read
      exact letter_injective (Option.some.inj ((Settings.letter_of_ofVersion? accepted).symm.trans letter))
    refine ⟨⟨ix, n, settings.topK, settings.queryMode, settings.threshold⟩, notices, rfl, stem, fun queries => ?_⟩
    rw [Request.on, Request.action, run_withSearcher, opened]
    exact (run_answerQueries mode ..).trans (by rw [String.empty_append])

/-- **A query that is not parsed disturbs no other.** A command answers boolean queries on an index that it can search.
It never fails, and its status is one exactly if some query is not parsed. It prints, in order, what it prints for each
query alone: one line with the ids of the documents that the query denotes if it is parsed, and nothing if it is not. So
what it prints for one list of queries and then another is put together from what it prints for each, and the status is
the greater one. -/
theorem boolean_queries_independent {files : Files} {common : Common} {path : String} {ix : Index Float}
    (opens : Opens files common path ix) {request : List String → Request} (asks : AsksBoolean common path request)
    (around : Surroundings) :
    (∀ queries, ((request queries).on around files).1 =
      .ok (if ∀ query ∈ queries, (Query.parse query).result.isOk = true then 0 else 1)) ∧
    (∀ queries, ((request queries).on around files).2.printed =
      String.join (queries.map fun query => ((request [query]).on around files).2.printed)) ∧
    (∀ query tree, (Query.parse query).result = .ok tree →
      ∃ line, line = idsText (tree.eval (fun name => ix.docs (Stemmer.porter name)) ix.allDocs) ∧
        '\n' ∉ line.toList ∧ ((request [query]).on around files).2.printed = line ++ "\n") ∧
    (∀ query e, (Query.parse query).result = .error e → ((request [query]).on around files).2.printed = "") ∧
    ∀ qs rs, ((request (qs ++ rs)).on around files).2.printed =
        ((request qs).on around files).2.printed ++ ((request rs).on around files).2.printed ∧
      ∃ m n, ((request qs).on around files).1 = .ok m ∧ ((request rs).on around files).1 = .ok n ∧
        ((request (qs ++ rs)).on around files).1 = .ok (max m n) := by
  obtain ⟨s, notices, rfl, stem, ends⟩ := run_boolean_request opens asks around
  have status : ∀ queries, ((request queries).on around files).1 = .ok (booleanStatus queries) := fun queries => by
    rw [ends]
  have text : ∀ queries, ((request queries).on around files).2.printed =
      String.join (queries.map (booleanText s)) := fun queries => by
    rw [ends]
  have alone : ∀ query, ((request [query]).on around files).2.printed = booleanText s query := fun query => by
    rw [text, List.map_singleton, String.join_cons, String.join_nil, String.append_empty]
  refine ⟨fun queries => ?_, fun queries => ?_, fun query tree parsed => ?_, fun query e failed => ?_,
    fun qs rs => ⟨?_, ?_⟩⟩
  · rw [status, booleanStatus]
    simp only [List.all_eq_true, parses]
  · simp only [alone, text]
  · refine ⟨_, rfl, newline_notMem_idsText _, ?_⟩
    rw [alone, booleanText, parsed, ← stem]
    rfl
  · rw [alone, booleanText, failed]
  · rw [text, text, text, List.map_append, String.join_append]
  · exact ⟨_, _, status qs, status rs, (status (qs ++ rs)).trans (by rw [booleanStatus_append])⟩

/-- A query is not parsed between two that are. -/
theorem boolean_queries_independent_of_one_document :
    let files : Files := ⟨[(⟨false, ["ix.json"]⟩, .file ((Index.single "dog" "the").save .none))], by decide⟩
    let common : Common := ⟨some "CranIndex-v1.11B", none⟩
    let request : List String → Request := .query common (some "ix.json") (.integer 30)
    Opens files common "ix.json" (.single "dog" "the") ∧ AsksBoolean common "ix.json" request ∧
      ((request ["dog", "dog AND", "NOT dog"]).on {} files).1 = .ok 1 ∧
      ((request ["dog", "dog AND", "NOT dog"]).on {} files).2.printed = "[1]\n[]\n" := by
  intro files common request
  have accepted : common.Accepted files := ⟨⟨_, _, rfl, rfl⟩, fun file given => by cases given⟩
  have stored : files.read "ix.json" = .ok ((Index.single "dog" "the").save .none) := rfl
  have opens : Opens files common "ix.json" (.single "dog" "the") :=
    opens_of_stored accepted stored (Index.canonical_single ..) (Index.short_single ..) Nat.one_pos rfl
  have asks : AsksBoolean common "ix.json" request := .query _ rfl rfl
  obtain ⟨status, text, parsed, failed, -⟩ := boolean_queries_independent opens asks {}
  have dog : (Query.parse "dog").result = .ok (.term "dog") := by cbv
  have negation : (Query.parse "NOT dog").result = .ok (.not (.term "dog")) := by cbv
  obtain ⟨e, open_end⟩ : ∃ e, (Query.parse "dog AND").result = .error e := ⟨_, by cbv⟩
  have stem : Stemmer.porter "dog" = "dog" := by decide +kernel
  refine ⟨opens, asks, ?_, ?_⟩
  · rw [status, if_neg]
    intro all
    have one := all "dog AND" (by simp)
    rw [open_end] at one
    cases one
  · obtain ⟨line, ids, -, first⟩ := parsed "dog" _ dog
    obtain ⟨line', ids', -, third⟩ := parsed "NOT dog" _ negation
    rw [Query.eval, stem] at ids
    rw [Query.eval, Query.eval, stem] at ids'
    have docs : (Index.single "dog" "the").docs "dog" = [1] := rfl
    have all : (Index.single "dog" "the").allDocs = [1] := List.mergeSort_singleton ..
    rw [text, List.map_cons, List.map_cons, List.map_singleton, first, failed "dog AND" e open_end, third, ids, ids',
      docs, all]
    rfl

end Command
end Retrieval
