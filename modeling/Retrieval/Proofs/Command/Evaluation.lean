import Retrieval.Proofs.Command.Building
import Retrieval.Proofs.Ranking

/-!
# Evaluations of a command

An index that is built ranks every query, so an evaluation of accepted queries against accepted judgments fails neither
when it ranks (`exists_evaluate`, `exists_latency`) nor when it prints the report of its quality
(`evaluation_complete`). The report of its performance is complete exactly if there was a query to be timed
(`performance_error`): without one there are no latency statistics, and the report ends where it looks for their mean.
-/

set_option autoImplicit false

namespace Retrieval
open Json (Value)

/-! ### Reports -/

namespace Report

/-- The quality of a run can be reported for every threshold and every cut-off that are numbers. -/
theorem evaluation_complete {summary : Quality.Summary Float} {x : Float} {k : Int}
    (threshold : summary.threshold = .real x) (cutoff : summary.cutoff = .integer k) :
    (evaluation (ofSummary summary)).print.2 = none := by
  obtain ⟨rows, limit, above⟩ := summary
  cases threshold
  cases cutoff
  rfl

/-- The performance of a run can be reported if queries were timed, and not without one. -/
theorem performance_error (times : Option (Latency.Statistics Float)) (memory size : Float) :
    (performance (ofMeasurements times memory size)).print.2 =
      if times.isSome then none else some (.missing "mean") := by
  cases times with
  | none => rfl
  | some statistics => rfl

theorem performance_complete_iff (times : Option (Latency.Statistics Float)) (memory size : Float) :
    (performance (ofMeasurements times memory size)).print.2 = none ↔ times.isSome = true := by
  rw [performance_error]
  cases times.isSome <;> simp

end Report

/-! ### Measurements -/

/-- Whether an index ranks a text, whatever its terms are taken to be. -/
def Index.Ranks (ix : Index Float) (text : String) : Prop :=
  ∀ n : Normalizer, ∃ hits, Ranking.rankIndex ix (n.terms text) = .ok hits

/-- An index of documents ranks every text, as far as arithmetic keeps its order. -/
theorem ranks_of_build {mode : AggregateMode} {normalizer : Normalizer} {workers : Value} {documents : List Source}
    {ix : Index Float} (built : buildIndexWith mode normalizer workers documents = .ok ix)
    (ordered : Scoring.Ordered Float documents.length) (text : String) : ix.Ranks text := by
  obtain ⟨acc, rfl, -, contents⟩ := contents_of_build built
  intro n
  have small := contents.docCount_index (some (storedWords normalizer))
  rw [List.length_map] at small
  obtain ⟨-, hits, -, -, ranked, -⟩ :=
    Ranking.exists_rankIndex ordered (contents.rankable ordered _) small.le (n.terms text)
  exact ⟨hits, ranked⟩

/-- A run can be scored if its queries can be ranked. -/
theorem Quality.exists_evaluate {ε : Type} (rank : String → Except ε (List (Hit Float))) {queries : List (Int × String)}
    (ranks : ∀ query ∈ queries, ∃ hits, rank query.2 = .ok hits) (relevantTo : Int → List Int) (threshold : Float)
    (cutoff : Int) : ∃ rows, evaluate rank queries relevantTo threshold cutoff = .ok rows := by
  apply exists_of_forall_mapM
  intro query mem
  obtain ⟨hits, ranked⟩ := ranks query (List.mem_of_mem_filter mem)
  exact ⟨_, (bind_eq ranked _).trans rfl⟩

/-- No document is ranked for no terms. -/
theorem Ranking.rankIndex_nil {α : Type} [Scoring α] (ix : Index α) : rankIndex ix [] = .ok [] := by
  have start : ([] : List String).foldlM (addTerm ix.entries (.integer ix.docCount)) (⟨∅, 0⟩ : Tally α) =
      .ok ⟨∅, 0⟩ := rfl
  rw [rankIndex, rank, bind_eq start]
  dsimp only
  split
  · rfl
  · exact congrArg Except.ok List.mergeSort_nil

theorem ranks_blank (ix : Index Float) : ix.Ranks "" := by
  intro n
  have none : textTokens "" = [] := by cbv
  rw [Normalizer.terms, none]
  exact ⟨[], Ranking.rankIndex_nil ix⟩

namespace Searcher

variable {s : Searcher Float}

/-- Rankings are measured against a threshold and a cut-off that are numbers. -/
theorem exists_evaluate {x : Float} {queries : List (Int × String)}
    (ranks : ∀ query ∈ queries, ∃ hits, s.rankQuery query.2 = .ok hits) (threshold : s.threshold = .real x)
    (judgments : Corpus.Judgments) (k : Int) :
    ∃ rows, s.evaluate queries judgments none (.integer k) = .ok ⟨rows, .integer k, .real x⟩ := by
  let rank (query : String) := s.rankQuery query >>= measurable (some x) (some k)
  have measured : ∀ query ∈ queries, ∃ hits, rank query.2 = .ok hits := by
    intro query mem
    obtain ⟨hits, ranked⟩ := ranks query mem
    exact ⟨hits, (bind_eq ranked _).trans rfl⟩
  obtain ⟨rows, scored⟩ := Quality.exists_evaluate rank measured judgments.docs x k
  refine ⟨rows, ?_⟩
  rw [evaluate, threshold]
  exact (bind_eq scored _).trans rfl

/-- There are latency statistics exactly if there is a query. -/
theorem exists_latency {queries : List String} (ranks : ∀ query ∈ queries, ∃ hits, s.rankQuery query = .ok hits)
    (clock : List Float) :
    ∃ times, s.latency queries 1 clock = .ok times ∧ times.isSome = !queries.isEmpty := by
  rw [latency]
  cases none : queries.isEmpty with
  | true => exact ⟨_, rfl, rfl⟩
  | false =>
    obtain ⟨rankings, all⟩ := exists_of_forall_mapM ranks
    rw [all]
    exact ⟨_, rfl, rfl⟩

end Searcher

/-! ### The command -/

namespace Command

theorem run_openText {world : World} {path text : String} (read : world.files.readText path = .ok text) :
    (openText (some path)).run world = (.ok text, world) := by
  rw [openText, run_bind_ok (run_needed path world), run_bind_ok (run_get world), run_ofExcept, read]
  rfl

theorem run_openQueries {world : World} {path text : String} {queries : List Corpus.Query}
    (read : world.files.readText path = .ok text) (accepted : Corpus.readQueries text = .ok queries) :
    (openQueries (some path)).run world = (.ok queries, world) := by
  rw [openQueries, run_bind_ok (run_openText read), run_ofExcept, accepted]
  rfl

/-- An evaluation prints the quality of its run and then the performance, and ends as that report does. -/
theorem run_runEvaluate (world : World) {s : Searcher Float} {queries relevance queryText judgmentText : String}
    {asked : List Corpus.Query} {judgments : Corpus.Judgments} {cutoff : Value} {around : Surroundings}
    {summary : Quality.Summary Float} {times : Option (Latency.Statistics Float)}
    (queriesRead : world.files.readText queries = .ok queryText)
    (queriesAccepted : Corpus.readQueries queryText = .ok asked)
    (judgmentsRead : world.files.readText relevance = .ok judgmentText)
    (judgmentsAccepted : Corpus.readJudgments judgmentText = .ok judgments)
    (evaluated : s.evaluate (numberedQueries asked) judgments none cutoff = .ok summary)
    (timed : s.latency (asked.map Corpus.Query.text) 1 around.clock = .ok times)
    (complete : (Report.evaluation (Report.ofSummary summary)).print.2 = none) (index : Option String) :
    (runEvaluate around s index (some queries) (some relevance) cutoff).run world =
      (if times.isSome then .ok 0 else .error (.report (.missing "mean")), { world with
        printed := world.printed ++ (Report.evaluation (Report.ofSummary summary)).print.1 ++ (Report.performance
          (Report.ofMeasurements times around.memory (megabytes (index.bind world.files.size?)))).print.1 }) := by
  have measure : (ofExcept (Failure.search ∘ SearchError.arithmetic)
      (s.evaluate (numberedQueries asked) judgments none cutoff)).run world = (.ok summary, world) := by
    rw [run_ofExcept, evaluated]
    rfl
  have first : (printReport (Report.evaluation (Report.ofSummary summary))).run world =
      (.ok (), { world with printed := world.printed ++ (Report.evaluation (Report.ofSummary summary)).print.1 }) := by
    rw [run_printReport, complete]
    rfl
  have time (world' : World) : (ofExcept Failure.latency
      (s.latency (asked.map Corpus.Query.text) 1 around.clock)).run world' = (.ok times, world') := by
    rw [run_ofExcept, timed]
    rfl
  have judge : (ofExcept Failure.corpus (Corpus.readJudgments judgmentText)).run world = (.ok judgments, world) := by
    rw [run_ofExcept, judgmentsAccepted]
    rfl
  rw [runEvaluate, run_bind_ok (run_openQueries queriesRead queriesAccepted), run_bind_ok (run_openText judgmentsRead),
    run_bind_ok judge, run_bind_ok measure, run_bind_ok first, run_bind_ok (time _), run_bind_ok (run_get _), run_bind,
    run_printReport, Report.performance_error]
  cases times.isSome with
  | true => rfl
  | false => rfl

section Evaluated

variable {files : Files} {common : Common} {path queries relevance queryText judgmentText : String} {ix : Index Float}
  {asked : List Corpus.Query} {judgments : Corpus.Judgments}
  (queriesRead : files.readText queries = .ok queryText) (queriesAccepted : Corpus.readQueries queryText = .ok asked)
  (judgmentsRead : files.readText relevance = .ok judgmentText)
  (judgmentsAccepted : Corpus.readJudgments judgmentText = .ok judgments)
include queriesRead queriesAccepted judgmentsRead judgmentsAccepted

/-- How an evaluation ends on an index that can be searched and that ranks the queries. -/
theorem evaluate_on (opens : Opens files common path ix) (ranked : ∀ q ∈ asked, ix.Ranks q.text)
    (threshold : Option Float) (k : Int) (around : Surroundings) :
    ∃ (summary : Quality.Summary Float) (times : Option (Latency.Statistics Float)) (notices : List Notice),
      let quality := Report.evaluation (Report.ofSummary summary)
      let performance := Report.performance (Report.ofMeasurements times around.memory (megabytes (files.size? path)))
      (Request.evaluate common (some path) (some queries) (some relevance) (threshold.map .real) (.integer k)).on
          around files =
        (if asked = [] then Except.error (Failure.report (.missing "mean")) else Except.ok 0,
          { files, printed := quality.print.1 ++ performance.print.1, notices }) ∧
      summary.cutoff = .integer k ∧ summary.threshold = .real (threshold.getD 0.40) ∧ quality.print.2 = none ∧
      (performance.print.2 = none ↔ asked ≠ []) := by
  obtain ⟨settings, n, notices, read, opened, -⟩ := opens.opened none none (threshold.map .real)
  have limit : settings.threshold = .real (threshold.getD 0.40) := by
    obtain ⟨text, base, version, known⟩ := opens.version
    rw [settingsFor_eq _ _ _ version known] at read
    cases read
    cases threshold with
    | none =>
      rw [Settings.eq_ofModes_of_ofVersion? known]
      rfl
    | some x => rfl
  let s : Searcher Float := ⟨ix, n, settings.topK, settings.queryMode, settings.threshold⟩
  have ranks : ∀ q ∈ asked, ∃ hits, s.rankQuery q.text = .ok hits := fun q mem => ranked q mem n
  have numbered : ∀ q ∈ numberedQueries asked, ∃ hits, s.rankQuery q.2 = .ok hits := by
    intro q mem
    obtain ⟨q, given, rfl⟩ := List.mem_map.1 mem
    exact ranks q given
  have texts : ∀ text ∈ asked.map Corpus.Query.text, ∃ hits, s.rankQuery text = .ok hits := by
    intro text mem
    obtain ⟨q, given, rfl⟩ := List.mem_map.1 mem
    exact ranks q given
  obtain ⟨rows, evaluated⟩ := Searcher.exists_evaluate numbered limit judgments k
  obtain ⟨times, timed, present⟩ := Searcher.exists_latency texts around.clock
  let summary : Quality.Summary Float := ⟨rows, .integer k, .real (threshold.getD 0.40)⟩
  have complete : (Report.evaluation (Report.ofSummary summary)).print.2 = none := Report.evaluation_complete rfl rfl
  have timely : times.isSome = true ↔ ¬asked = [] := by
    rw [present]
    simp
  refine ⟨summary, times, notices, ?_, rfl, rfl, complete, (Report.performance_complete_iff ..).trans timely⟩
  have ends := run_runEvaluate { files, notices } queriesRead queriesAccepted judgmentsRead judgmentsAccepted evaluated
    timed complete (some path)
  rw [Request.on, Request.action, run_withSearcher, opened]
  show (runEvaluate around s (some path) (some queries) (some relevance) (.integer k)).run { files, notices } = _
  rw [ends, if_congr timely rfl rfl, ite_not, String.empty_append]
  rfl

/-- **An evaluation of accepted input completes, if it has a query.** An index is built from the documents of a
collection, has terms, and is stored. It ranks every query, as far as arithmetic keeps its order. Whatever accepted
files of queries and judgments are evaluated on it, with whatever threshold and cut-off, the report of the quality is
printed as a whole. So is the report of the performance if there is a query, and the command ends with status zero;
without a query there are no latency statistics, and the command fails where the report looks for their mean. -/
theorem evaluation_completes {documents : List Corpus.Document} {mode : AggregateMode} {words : List String}
    {stem : String → String} {workers : Value} {c : Compression}
    (built : buildIndexWith mode (.ofWords words stem) workers (documents.map Source.ofDocument) = .ok ix)
    (terms : 0 < ix.termCount) (short : ix.Short) (stored : files.read path = .ok (ix.save c))
    (accepted : common.Accepted files) (threshold : Option Float) (k : Int) (around : Surroundings) :
    (Scoring.Ordered Float documents.length → ∀ text, ix.Ranks text) ∧
    ((∀ q ∈ asked, ix.Ranks q.text) →
      ∃ (summary : Quality.Summary Float) (times : Option (Latency.Statistics Float)) (notices : List Notice),
        let quality := Report.evaluation (Report.ofSummary summary)
        let performance := Report.performance
          (Report.ofMeasurements times around.memory (megabytes (files.size? path)))
        (Request.evaluate common (some path) (some queries) (some relevance) (threshold.map .real) (.integer k)).on
            around files =
          (if asked = [] then Except.error (Failure.report (.missing "mean")) else Except.ok 0,
            { files, printed := quality.print.1 ++ performance.print.1, notices }) ∧
        summary.cutoff = .integer k ∧ summary.threshold = .real (threshold.getD 0.40) ∧ quality.print.2 = none ∧
        (performance.print.2 = none ↔ asked ≠ [])) := by
  have words : ix.stopWords.isSome = true := by
    obtain ⟨acc, rfl, -, -⟩ := contents_of_build built
    rfl
  have opens := opens_of_stored accepted stored (canonical_of_documents built) short terms words
  refine ⟨fun ordered => ranks_of_build built (by rwa [List.length_map]), fun ranked => ?_⟩
  exact evaluate_on queriesRead queriesAccepted judgmentsRead judgmentsAccepted opens ranked threshold k around

end Evaluated
end Command

/-! ### An evaluation of one document -/

theorem short_tiny (words : List String) : (Index.tiny words).Short := by
  refine Index.short_of_one fun p mem => ?_
  rw [List.mem_singleton.1 mem]
  simp only [Artifact.ofMetadata, Corpus.Document.metadata, Value.short_object_iff, List.map_cons, List.forall_mem_cons]
  exact ⟨trivial, (Value.short_atom_iff rfl).2 trivial, (Value.short_atom_iff rfl).2 trivial, by simp⟩

namespace Command

/-- The files of an evaluation on the index of one document. -/
def tinyFiles (queries : String) : Files := ⟨[(⟨false, ["ix.json"]⟩, .file ((Index.tiny ["the"]).save .none)),
  (⟨false, ["queries"]⟩, .file queries.toUTF8), (⟨false, ["judgments"]⟩, .file "1 1 1\n".toUTF8)], by simp⟩

theorem accepted_tiny (queries : String) : Common.Accepted (tinyFiles queries) ⟨some defaultVersion, none⟩ :=
  ⟨⟨_, _, rfl, rfl⟩, fun file given => by cases given⟩

theorem read_tiny (queries : String) : (tinyFiles queries).read "ix.json" = .ok ((Index.tiny ["the"]).save .none) := rfl

theorem queries_tiny {queries : String} (unified : Text.unifyNewlines queries.toList = queries.toList) :
    (tinyFiles queries).readText "queries" = .ok queries := by
  have read : (tinyFiles queries).read "queries" = .ok queries.toUTF8 := rfl
  exact Files.readText_of_read read unified

theorem judgments_tiny (queries : String) : (tinyFiles queries).readText "judgments" = .ok "1 1 1\n" := by
  have read : (tinyFiles queries).read "judgments" = .ok "1 1 1\n".toUTF8 := rfl
  exact Files.readText_of_read read (by cbv)

theorem readJudgments_tiny : Corpus.readJudgments "1 1 1\n" = .ok ⟨[(1, [⟨1, 1⟩])], by decide⟩ := by cbv

/-- A query is evaluated that no document shares a term with. -/
theorem evaluation_completes_of_blank_query :
    ((Request.evaluate ⟨some defaultVersion, none⟩ (some "ix.json") (some "queries") (some "judgments") none
      (.integer 10)).on {} (tinyFiles ".I 1\n.W\n")).1 = .ok 0 := by
  have queries : Corpus.readQueries ".I 1\n.W\n" = .ok [⟨1, ""⟩] := by cbv
  have ranked : ∀ q ∈ ([⟨1, ""⟩] : List Corpus.Query), (Index.tiny ["the"]).Ranks q.text := by
    simpa using ranks_blank (Index.tiny ["the"])
  have ends := (evaluation_completes (queries_tiny (by cbv)) queries (judgments_tiny _) readJudgments_tiny
    (built_tiny _ (by decide)) Nat.one_pos (short_tiny _) (read_tiny _) (accepted_tiny _) none 10 {}).2 ranked
  obtain ⟨summary, times, notices, ends, -⟩ := ends
  exact congrArg Prod.fst ends

/-- A file without queries is accepted, and its evaluation fails. -/
theorem evaluation_of_no_queries :
    Corpus.readCollection ".I 1\n.W\nab\n" = .ok [.tiny] ∧
      buildIndexWith .occurrences (.ofWords ["the"] Stemmer.porter) (.integer 1)
        ([Corpus.Document.tiny].map Source.ofDocument) = .ok (Index.tiny ["the"]) ∧
      0 < (Index.tiny ["the"]).termCount ∧ (tinyFiles "").read "ix.json" = .ok ((Index.tiny ["the"]).save .none) ∧
      (tinyFiles "").readText "queries" = .ok "" ∧ Corpus.readQueries "" = .ok [] ∧
      (tinyFiles "").readText "judgments" = .ok "1 1 1\n" ∧
      (∃ judgments, Corpus.readJudgments "1 1 1\n" = .ok judgments) ∧
      ((Request.evaluate ⟨some defaultVersion, none⟩ (some "ix.json") (some "queries") (some "judgments") none
        (.integer 10)).on {} (tinyFiles "")).1 = .error (.report (.missing "mean")) := by
  have collection : Corpus.readCollection ".I 1\n.W\nab\n" = .ok [.tiny] := by cbv
  have none_asked : Corpus.readQueries "" = .ok [] := by cbv
  have built := built_tiny ["the"] (by decide)
  have opens : Opens (tinyFiles "") ⟨some defaultVersion, none⟩ "ix.json" (Index.tiny ["the"]) :=
    opens_of_stored (accepted_tiny _) (read_tiny _) (canonical_of_documents built) (short_tiny _) Nat.one_pos rfl
  obtain ⟨summary, times, notices, ends, -⟩ := evaluate_on (queries_tiny rfl) none_asked (judgments_tiny _)
    readJudgments_tiny opens (by simp) none 10 {}
  exact ⟨collection, built, Nat.one_pos, read_tiny _, queries_tiny rfl, none_asked, judgments_tiny _,
    ⟨_, readJudgments_tiny⟩, congrArg Prod.fst ends⟩

end Command
end Retrieval
