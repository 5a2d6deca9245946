import Mathlib.Data.List.Forall2
import Retrieval.Corpus.Judgments
import Retrieval.Proofs.Numeral.Literal
import Retrieval.Proofs.Steps
import Retrieval.Proofs.Table

/-!
# Judgments of queries

A line that is not blank either states a judgment or is malformed (`line_cases`). Reading a file keeps the judgments of
each query apart: under each query stands, at any time, what the lines that concern it state, in the order of the file
(`Grouped.addLine`). So a file is refused at its first malformed line, and otherwise the judgments of a query depend on
nothing but the lines that concern it (`readJudgments_groups`).
-/

set_option autoImplicit false

namespace Retrieval.Corpus
open Retrieval.Text Retrieval.Numeral

/-! ### What a line says -/

/-- The first word of a line denotes the query. -/
def Concerns (query : Int) (line : String) : Prop := ∃ word ∈ (words line).head?, Denotes word query

/-- The words after the document denote a grade, which is zero when there are none; further words say nothing. -/
def DenotesGrade : List String → Int → Prop
  | [], grade => grade = 0
  | word :: _, grade => Denotes word grade

/-- A line states that a document is judged for a query: its words denote the query, the document and the grade. -/
def States (line : String) (query : Int) (judgment : Judgment) : Prop :=
  ∃ first second rest, words line = first :: second :: rest ∧ Denotes first query ∧ Denotes second judgment.doc ∧
    DenotesGrade rest judgment.grade

/-- A line that is not blank has less than two words, or one of its first three is no integer. -/
def Malformed (line : String) : Prop :=
  isBlankLine line = false ∧ ((words line).length < 2 ∨ ∃ word ∈ (words line).take 3, ∀ n, ¬ Denotes word n)

theorem toOption_readInteger {line word : String} (mem : word ∈ words line) {n : Int} :
    (readInteger word).toOption = some n ↔ Denotes word n := by
  rw [← readInteger_ok_iff (forall_mem_words mem).2]
  cases readInteger word with
  | ok m => simp [Except.toOption]
  | error e => simp [Except.toOption]

theorem concerns_iff {query : Int} {line : String} :
    Concerns query line ↔ (words line).head?.bind (fun word => (readInteger word).toOption) = some query := by
  rw [Concerns, Option.bind_eq_some_iff]
  refine exists_congr fun word => and_congr_right fun first => ?_
  exact (toOption_readInteger (List.mem_of_mem_head? first)).symm

instance (query : Int) (line : String) : Decidable (Concerns query line) := decidable_of_iff _ concerns_iff.symm

/-- The judgment that is read from the words of a line is the one that the line states. -/
theorem readJudgment?_eq_some_iff {line : String} {query : Int} {judgment : Judgment} :
    readJudgment? (words line) = some (query, judgment) ↔ States line query judgment := by
  have value := fun word (mem : word ∈ words line) n => toOption_readInteger mem (n := n)
  obtain ⟨doc, grade⟩ := judgment
  unfold readJudgment? States
  rcases fields : words line with _ | ⟨first, _ | ⟨second, rest⟩⟩
  · simp
  · simp
  · have own : (rest[0]?).elim (some 0) (fun word => (readInteger word).toOption) = some grade ↔
        DenotesGrade rest grade := by
      cases rest with
      | nil => simp [DenotesGrade, eq_comm]
      | cons third rest => exact value third (by simp [fields]) grade
    simp only [List.getElem?_cons_zero, List.getElem?_cons_succ, Option.bind_eq_bind, Option.bind_some,
      Option.bind_eq_some_iff, Option.pure_def, Option.some.injEq, Prod.mk.injEq, Judgment.mk.injEq, List.cons.injEq]
    have one := value first (by simp [fields])
    have two := value second (by simp [fields])
    constructor
    · rintro ⟨_, readFirst, _, readSecond, _, readThird, rfl, rfl, rfl⟩
      exact ⟨_, _, _, ⟨rfl, rfl, rfl⟩, (one _).1 readFirst, (two _).1 readSecond, own.1 readThird⟩
    · rintro ⟨_, _, _, ⟨rfl, rfl, rfl⟩, readFirst, readSecond, readThird⟩
      exact ⟨_, (one _).2 readFirst, _, (two _).2 readSecond, _, own.2 readThird, rfl, rfl, rfl⟩

theorem states_unique {line : String} {query : Int} {judgment judgment' : Judgment}
    (states : States line query judgment) (states' : States line query judgment') : judgment = judgment' := by
  have same := readJudgment?_eq_some_iff.2 states
  rw [readJudgment?_eq_some_iff.2 states'] at same
  cases same
  rfl

/-- A line states a judgment exactly if it has two words and its first three are integers, as far as they are there. -/
theorem exists_states_iff {line : String} :
    (∃ query judgment, States line query judgment) ↔
      2 ≤ (words line).length ∧ ∀ word ∈ (words line).take 3, ∃ n, Denotes word n := by
  unfold States
  rcases words line with _ | ⟨first, _ | ⟨second, rest⟩⟩
  · simp
  · simp
  · constructor
    · rintro ⟨query, judgment, _, _, _, fields, denotesQuery, denotesDoc, denotesGrade⟩
      cases fields
      refine ⟨by simp, ?_⟩
      cases rest with
      | nil => simpa using ⟨⟨_, denotesQuery⟩, ⟨_, denotesDoc⟩⟩
      | cons third rest => simpa using ⟨⟨_, denotesQuery⟩, ⟨_, denotesDoc⟩, ⟨_, denotesGrade⟩⟩
    · rintro ⟨-, all⟩
      obtain ⟨query, denotesQuery⟩ := all first (by simp)
      obtain ⟨doc, denotesDoc⟩ := all second (by simp)
      cases rest with
      | nil => exact ⟨query, ⟨doc, 0⟩, first, second, [], rfl, denotesQuery, denotesDoc, rfl⟩
      | cons third rest =>
        obtain ⟨grade, denotesGrade⟩ := all third (by simp)
        exact ⟨query, ⟨doc, grade⟩, first, second, third :: rest, rfl, denotesQuery, denotesDoc, denotesGrade⟩

/-- A line that is not blank is malformed exactly if it states nothing. -/
theorem malformed_iff {line : String} :
    Malformed line ↔ isBlankLine line = false ∧ ¬ ∃ query judgment, States line query judgment := by
  rw [Malformed, exists_states_iff, not_and_or, Nat.not_le]
  simp only [not_forall, not_exists, exists_prop]

/-- A line that states a judgment concerns its query and no other one. -/
theorem concerns_iff_of_states {line : String} {query : Int} {judgment : Judgment} (states : States line query judgment)
    (q : Int) : Concerns q line ↔ q = query := by
  obtain ⟨first, second, rest, fields, denotes, -⟩ := states
  have read := (toOption_readInteger (show first ∈ words line by simp [fields])).2 denotes
  rw [concerns_iff, fields]
  simp [read, eq_comm]

theorem not_concerns_of_blank {line : String} (blank : isBlankLine line = true) (query : Int) :
    ¬ Concerns query line := by
  simp [Concerns, words_eq_nil_iff.2 blank]

/-! ### What reading keeps of a line -/

theorem addLine_of_blank {line : String} (blank : isBlankLine line = true) (judgments : Judgments) (number : Nat) :
    addLine judgments (line, number) = .ok judgments := by
  simp [addLine, blank]

theorem addLine_of_states {line : String} {query : Int} {judgment : Judgment} (states : States line query judgment)
    (judgments : Judgments) (number : Nat) :
    addLine judgments (line, number) = .ok (judgments.add query judgment) := by
  have text : isBlankLine line = false := by
    obtain ⟨first, second, rest, fields, -⟩ := states
    rw [← Bool.not_eq_true, ← words_eq_nil_iff, fields]
    exact List.cons_ne_nil _ _
  simp [addLine, text, readJudgment?_eq_some_iff.2 states]

theorem addLine_of_malformed {line : String} (malformed : Malformed line) (judgments : Judgments) (number : Nat) :
    addLine judgments (line, number) = .error (formatError (.invalidRelevanceLine line) number) := by
  obtain ⟨text, nothing⟩ := malformed_iff.1 malformed
  have none : readJudgment? (words line) = none := by
    rw [Option.eq_none_iff_forall_ne_some]
    rintro ⟨query, judgment⟩ read
    exact nothing ⟨query, judgment, readJudgment?_eq_some_iff.1 read⟩
  simp [addLine, text, none]

/-- A line is blank, states a judgment or is malformed. -/
theorem line_cases (line : String) :
    isBlankLine line = true ∨ (∃ query judgment, States line query judgment) ∨ Malformed line := by
  rw [malformed_iff]
  cases isBlankLine line with
  | true => exact .inl rfl
  | false => exact .inr ((Classical.em _).imp_right fun nothing => ⟨rfl, nothing⟩)

theorem get?_add (judgments : Judgments) (query : Int) (judgment : Judgment) (q : Int) :
    (judgments.add query judgment).get? q =
      if q = query then some ((judgments.get? query).getD [] ++ [judgment]) else judgments.get? q :=
  Table.get?_alter ..

/-- What has been read of lines: none of them is malformed, a query is known if a line concerns it, and it has the
judgments that these lines state, in order. -/
structure Grouped (ls : List String) (judgments : Judgments) : Prop where
  wellFormed : ∀ line ∈ ls, ¬ Malformed line
  known : ∀ q, q ∈ judgments.keys ↔ ∃ line ∈ ls, Concerns q line
  groups : ∀ q, List.Forall₂ (fun line judgment => States line q judgment) (ls.filter (Concerns q))
    ((judgments.get? q).getD [])

theorem grouped_nil : Grouped [] ∅ where
  wellFormed := by simp
  known := by simp
  groups _ := .nil

/-- **The step.** One more line that is read extends the judgments of the query that it concerns, and no others. -/
theorem Grouped.addLine {ls : List String} {judgments judgments' : Judgments} (h : Grouped ls judgments) {line : String}
    {number : Nat} (read : addLine judgments (line, number) = .ok judgments') : Grouped (ls ++ [line]) judgments' := by
  rcases line_cases line with blank | ⟨query, judgment, states⟩ | malformed
  · rw [addLine_of_blank blank] at read
    cases read
    constructor
    case wellFormed =>
      refine List.forall_mem_append.2 ⟨h.wellFormed, List.forall_mem_singleton.2 fun malformed => ?_⟩
      rw [malformed.1] at blank
      cases blank
    case known => simp [h.known, not_concerns_of_blank blank]
    case groups =>
      intro q
      have none : [line].filter (Concerns q) = [] := by simp [not_concerns_of_blank blank]
      rw [List.filter_append, none, List.append_nil]
      exact h.groups q
  · rw [addLine_of_states states] at read
    cases read
    constructor
    case wellFormed =>
      refine List.forall_mem_append.2 ⟨h.wellFormed, List.forall_mem_singleton.2 fun malformed => ?_⟩
      exact (malformed_iff.1 malformed).2 ⟨query, judgment, states⟩
    case known =>
      intro q
      have keys : q ∈ (judgments.add query judgment).keys ↔ q ∈ judgments.keys ∨ q = query := by
        rw [Judgments.add, Table.keys_alter]
        grind
      rw [keys, h.known]
      simp [concerns_iff_of_states states, or_and_right, exists_or]
    case groups =>
      intro q
      rw [get?_add, List.filter_append]
      by_cases own : q = query
      · subst own
        have here : [line].filter (Concerns q) = [line] := by simp [concerns_iff_of_states states]
        rw [if_pos rfl, here]
        exact List.rel_append (h.groups q) (.cons states .nil)
      · have other : [line].filter (Concerns q) = [] := by simp [concerns_iff_of_states states, own]
        rw [if_neg own, other, List.append_nil]
        exact h.groups q
  · rw [addLine_of_malformed malformed] at read
    cases read

/-- The run: lines that are read to their end are grouped. -/
theorem Grouped.foldlM {done ls : List String} {judgments judgments' : Judgments} (h : Grouped done judgments) {k : Nat}
    (read : (ls.zipIdx k).foldlM Corpus.addLine judgments = .ok judgments') : Grouped (done ++ ls) judgments' := by
  induction ls generalizing done judgments k with
  | nil =>
    cases read
    rw [List.append_nil]
    exact h
  | cons l ls ih =>
    rw [List.zipIdx_cons, List.foldlM_cons] at read
    obtain ⟨next, first, rest⟩ := exists_of_bind read
    rw [List.append_cons]
    exact ih (h.addLine first) rest

/-- Lines none of which is malformed are read to their end. -/
theorem exists_of_wellFormed {ls : List String} (wellFormed : ∀ line ∈ ls, ¬ Malformed line) (judgments : Judgments)
    (k : Nat) : ∃ judgments', (ls.zipIdx k).foldlM addLine judgments = .ok judgments' := by
  induction ls generalizing judgments k with
  | nil => exact ⟨judgments, rfl⟩
  | cons l ls ih =>
    obtain ⟨first, others⟩ := List.forall_mem_cons.1 wellFormed
    obtain ⟨next, step⟩ : ∃ next, addLine judgments (l, k) = .ok next := by
      rcases line_cases l with blank | ⟨query, judgment, states⟩ | malformed
      · exact ⟨_, addLine_of_blank blank judgments k⟩
      · exact ⟨_, addLine_of_states states judgments k⟩
      · exact absurd malformed first
    rw [List.zipIdx_cons, List.foldlM_cons, bind_eq step]
    exact ih others next (k + 1)

theorem grouped_of_readJudgments {text : String} {judgments : Judgments} (read : readJudgments text = .ok judgments) :
    Grouped (lines text) judgments :=
  grouped_nil.foldlM read

theorem Grouped.isKey_iff {ls : List String} {judgments : Judgments} (h : Grouped ls judgments) {q : Int} :
    q ∈ judgments.keys ↔ ls.filter (Concerns q) ≠ [] := by
  rw [h.known, ne_eq, List.filter_eq_nil_iff]
  simp

/-- Two groupings of lines that are the same for a query have the same judgments of it. -/
theorem Grouped.get?_eq {ls ls' : List String} {judgments judgments' : Judgments} (h : Grouped ls judgments)
    (h' : Grouped ls' judgments') {q : Int} (same : ls.filter (Concerns q) = ls'.filter (Concerns q)) :
    judgments.get? q = judgments'.get? q := by
  have known : (judgments.get? q).isSome = (judgments'.get? q).isSome := by
    rw [Bool.eq_iff_iff, Table.get?_isSome_iff, Table.get?_isSome_iff, h.isKey_iff, h'.isKey_iff, same]
  have groups := h.groups q
  rw [same] at groups
  have unique : Relator.RightUnique fun line judgment => States line q judgment := fun _ _ _ => states_unique
  have equal := unique.forall₂ groups (h'.groups q)
  cases found : judgments.get? q <;> cases found' : judgments'.get? q <;> simp_all

/-- A file that is refused ends at its first malformed line. -/
theorem exists_malformed_of_error {text : String} {e : ReadError} (failed : readJudgments text = .error e) :
    ∃ before line after, lines text = before ++ line :: after ∧ (∀ l ∈ before, ¬ Malformed l) ∧ Malformed line ∧
      e = formatError (.invalidRelevanceLine line) (before.length + 1) := by
  obtain ⟨before, ⟨line, number⟩, after, judgments, split, fold, failed⟩ := exists_of_foldlM_error failed
  obtain ⟨before, rest, whole, rfl, remaining⟩ := List.zipIdx_eq_append_iff.1 split
  obtain ⟨_, after, rfl, place, -⟩ := List.zipIdx_eq_cons_iff.1 remaining.symm
  cases place
  refine ⟨before, line, after, whole, (grouped_nil.foldlM fold).wellFormed, ?_⟩
  rcases line_cases line with blank | ⟨query, judgment, states⟩ | malformed
  · rw [addLine_of_blank blank] at failed
    cases failed
  · rw [addLine_of_states states] at failed
    cases failed
  · rw [addLine_of_malformed malformed] at failed
    cases failed
    exact ⟨malformed, by rw [Nat.add_comm]⟩

/-- **Judgments are grouped by their queries.** A file is refused exactly if it has a malformed line, and then with an
error at the first one. Otherwise its queries are those that a line concerns, however the number is spelt, and each has
the judgments that its lines state, one for each, in the order of the file. So they are the same in any other file
without a malformed line in which the lines of the query are the same, whatever lines stand between them. -/
theorem readJudgments_groups (text : String) :
    match readJudgments text with
    | .error e =>
      ∃ before line after, lines text = before ++ line :: after ∧ (∀ l ∈ before, ¬ Malformed l) ∧ Malformed line ∧
        e = formatError (.invalidRelevanceLine line) (before.length + 1)
    | .ok judgments =>
      (∀ line ∈ lines text, ¬ Malformed line) ∧
        (∀ q, q ∈ judgments.keys ↔ ∃ line ∈ lines text, Concerns q line) ∧
        (∀ q of, judgments.get? q = some of →
          List.Forall₂ (fun line judgment => States line q judgment) ((lines text).filter (Concerns q)) of) ∧
        ∀ text', (∀ line ∈ lines text', ¬ Malformed line) →
          ∃ judgments', readJudgments text' = .ok judgments' ∧
            ∀ q, (lines text').filter (Concerns q) = (lines text).filter (Concerns q) →
              judgments'.get? q = judgments.get? q := by
  cases read : readJudgments text with
  | error e => exact exists_malformed_of_error read
  | ok judgments =>
    have grouped := grouped_of_readJudgments read
    refine ⟨grouped.wellFormed, grouped.known, fun q of found => ?_, fun text' wellFormed => ?_⟩
    · have groups := grouped.groups q
      rw [found] at groups
      exact groups
    · obtain ⟨judgments', read'⟩ := exists_of_wellFormed wellFormed ∅ 1
      exact ⟨judgments', read', fun q same => (grouped_of_readJudgments read').get?_eq grouped same⟩

end Retrieval.Corpus
