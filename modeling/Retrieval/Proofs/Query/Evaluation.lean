import Mathlib.Tactic.Tauto
import Retrieval.Index.Artifact
import Retrieval.Proofs.Query.Denotation
import Retrieval.Proofs.Table
import Retrieval.Query.Node

/-!
# Evaluating trees on an index

A tree made of names, negations and connectives is evaluated on an index to the documents that it denotes, whatever
documents negation is relative to: it may leave out some that are indexed and have others that are not. Since the lists
ascend strictly, equivalent trees are evaluated to equal lists (`eval_eq_of_denotes`), among them those of the laws of
double negation and of De Morgan (`evaluate_exact`).
-/

set_option autoImplicit false

namespace Retrieval

/-- The keys of a table ascend strictly, once they are put in order. -/
theorem ascending_ascendingDocs {ν : Type} (t : Table Int ν) : (ascendingDocs t).Pairwise (· < ·) := by
  have le : (ascendingDocs t).Pairwise fun a b => decide (a ≤ b) = true :=
    List.pairwise_mergeSort (fun a b c hab hbc => by simp only [decide_eq_true_eq] at *; omega)
      (fun a b => by simp only [Bool.or_eq_true, decide_eq_true_eq]; omega) t.keys
  have nodup : (ascendingDocs t).Nodup := (List.mergeSort_perm t.keys _).nodup_iff.2 t.nodup
  refine (le.and nodup).imp fun h => ?_
  exact lt_of_le_of_ne (of_decide_eq_true h.1) h.2

namespace Index

variable {α : Type} (ix : Index α)

/-- The documents of a term are those of its postings. -/
theorem mem_docs_iff (term : String) (d : Int) : d ∈ ix.docs term ↔ ∃ p ∈ ix.postings term, p.doc = d := by
  rw [docs, postings]
  cases ix.entries.get? term with
  | none => simp
  | some e => exact List.mem_map

/-- Postings that ascend do so under every term, also one that is absent. -/
theorem ascending_docs (ascending : ∀ t e, ix.entries.get? t = some e → (e.postings.map Posting.doc).Pairwise (· < ·))
    (term : String) : (ix.docs term).Pairwise (· < ·) := by
  rw [docs]
  cases found : ix.entries.get? term with
  | none => exact List.Pairwise.nil
  | some e => exact ascending term e found

end Index

namespace Query

/-! ### Equivalent queries -/

section

variable {docs : String → List Int} {allDocs : List Int} (hdocs : ∀ name, (docs name).Pairwise (· < ·))
  (hall : allDocs.Pairwise (· < ·))
include hdocs hall

/-- Queries that denote the same documents are evaluated to the same list. -/
theorem eval_eq_of_denotes {q q' : Query} (h : ∀ d, q.Denotes docs allDocs d ↔ q'.Denotes docs allDocs d) :
    q.eval docs allDocs = q'.eval docs allDocs :=
  Merge.eq_of_ascending (ascending_eval hdocs hall q) (ascending_eval hdocs hall q') fun d => by
    rw [mem_eval hdocs hall, mem_eval hdocs hall, h]

/-- A double negation keeps the documents that negation is relative to. -/
theorem eval_not_not (q : Query) :
    (not (not q)).eval docs allDocs = (q.eval docs allDocs).filter (· ∈ allDocs) := by
  have ascending := ascending_eval hdocs hall
  refine Merge.eq_of_ascending (ascending _) ((ascending q).sublist List.filter_sublist) fun d => ?_
  rw [List.mem_filter, mem_eval hdocs hall, mem_eval hdocs hall, decide_eq_true_eq]
  simp only [Denotes]
  tauto

theorem eval_not_and (l r : Query) :
    (not (join .and l r)).eval docs allDocs = (join .or (not l) (not r)).eval docs allDocs :=
  eval_eq_of_denotes hdocs hall fun d => by
    simp only [Denotes]
    tauto

theorem eval_not_or (l r : Query) :
    (not (join .or l r)).eval docs allDocs = (join .and (not l) (not r)).eval docs allDocs :=
  eval_eq_of_denotes hdocs hall fun d => by
    simp only [Denotes]
    tauto

end

/-! ### Trees -/

theorem Connective.ofText?_text (c : Connective) : Connective.ofText? (some c.text) = some c := by
  cases c <;> decide

namespace Node

/-- The tree of a query is evaluated as the query. -/
theorem evaluate_ofQuery {α : Type} (ix : Index α) (among : Option (List Int)) (stem : Option (String → String))
    (q : Query) : (ofQuery q).evaluate ix among stem =
      .ok (q.eval (fun name => ix.docs (stem.getD id name)) (among.getD ix.allDocs)) := by
  induction q with
  | term name => rfl
  | not arg ih =>
    rw [ofQuery, evaluate, if_pos rfl, ih]
    rfl
  | join op left right ihl ihr =>
    rw [ofQuery, evaluate, Connective.ofText?_text, ihl, ihr]
    rfl

/-- **Evaluation computes the set semantics, relative to any documents.** On an index whose postings ascend and whose
documents are those of the norms it was made with, every tree of names, negations and connectives is evaluated to a list
that ascends strictly. It holds the postings of a stemmed name, for a negation the given documents that its operand does
not hold, and for a connective what both or one of its operands hold. So a double negation keeps the given documents of
its operand, and the laws of De Morgan hold of lists. -/
theorem evaluate_exact {α : Type} {ix : Index α} {norms : Table Int α} (made : ix.allDocs = ascendingDocs norms)
    (ascending : ∀ t e, ix.entries.get? t = some e → (e.postings.map Posting.doc).Pairwise (· < ·))
    (among : Option (List Int)) (given : ∀ docs ∈ among, docs.Pairwise (· < ·)) (stem : Option (String → String)) :
    ∃ found : Query → List Int,
      (∀ q, (ofQuery q).evaluate ix among stem = .ok (found q)) ∧
      (∀ q, (found q).Pairwise (· < ·)) ∧
      (∀ name d, d ∈ found (.term name) ↔ ∃ p ∈ ix.postings (stem.getD id name), p.doc = d) ∧
      (∀ q d, d ∈ found (.not q) ↔ d ∈ among.getD ix.allDocs ∧ d ∉ found q) ∧
      (∀ l r d, d ∈ found (.join .and l r) ↔ d ∈ found l ∧ d ∈ found r) ∧
      (∀ l r d, d ∈ found (.join .or l r) ↔ d ∈ found l ∨ d ∈ found r) ∧
      (∀ q, found (.not (.not q)) = (found q).filter (· ∈ among.getD ix.allDocs)) ∧
      (∀ l r, found (.not (.join .and l r)) = found (.join .or (.not l) (.not r))) ∧
      (∀ l r, found (.not (.join .or l r)) = found (.join .and (.not l) (.not r))) := by
  have hdocs (name : String) : (ix.docs (stem.getD id name)).Pairwise (· < ·) := ix.ascending_docs ascending _
  have hall : (among.getD ix.allDocs).Pairwise (· < ·) := by
    cases among with
    | none => exact made ▸ ascending_ascendingDocs norms
    | some docs => exact given docs rfl
  have member := mem_eval hdocs hall
  refine ⟨_, evaluate_ofQuery ix among stem, ascending_eval hdocs hall, fun name d => ix.mem_docs_iff _ d, ?_, ?_, ?_,
    eval_not_not hdocs hall, eval_not_and hdocs hall, eval_not_or hdocs hall⟩
  · intro q d
    rw [member, member, Denotes]
  · intro l r d
    rw [member, member, member, Denotes]
  · intro l r d
    rw [member, member, member, Denotes]

/-- Of the postings 1, 4 and 7 of a stored index, a double negation relative to 0, 4, 5 and 7 keeps two, though 7 has no
norm and 0 and 5 are in no postings. -/
theorem evaluate_exact_of_artifact :
    let data : List (String × Json.Value) := [
      ("index", .object [("cab", .list [.integer 5,
        .list [.list [.integer 1, .integer 1], .list [.integer 4, .integer 3], .list [.integer 7, .integer 1]]])]),
      ("documentNorms", .object [("4", .real 1), ("1", .real 1)])]
    let ix : Index Float := .make ⟨[("cab", ⟨5, [⟨1, 1⟩, ⟨4, 3⟩, ⟨7, 1⟩]⟩)], by decide⟩ ⟨[(4, 1), (1, 1)], by decide⟩ ∅
      .occurrences none
    let docs : List Int := [0, 4, 5, 7]
    Artifact.toIndex (.object data) = .ok ix ∧ ix.allDocs = ascendingDocs ix.norms ∧
    (∀ t e, ix.entries.get? t = some e → (e.postings.map Posting.doc).Pairwise (· < ·)) ∧ docs.Pairwise (· < ·) ∧
    (ofQuery (.not (.not (.term "cabs")))).evaluate ix (some docs) (some fun _ => "cab") = .ok [4, 7] := by
  intro data ix docs
  have made : ix.allDocs = ascendingDocs ix.norms := rfl
  have ascending : ∀ t e, ix.entries.get? t = some e → (e.postings.map Posting.doc).Pairwise (· < ·) := by
    intro t e found
    obtain ⟨-, rfl⟩ : t = "cab" ∧ e = ⟨5, [⟨1, 1⟩, ⟨4, 3⟩, ⟨7, 1⟩]⟩ := by
      simpa [ix, Index.make] using (Table.mem_toList_iff _ _ _).2 found
    decide
  have given : docs.Pairwise (· < ·) := by decide
  obtain ⟨found, evaluated, strict, names, -, -, -, twice, -⟩ :=
    evaluate_exact made ascending (some docs) (by rintro _ ⟨⟩; exact given) (some fun _ => "cab")
  refine ⟨rfl, made, ascending, given, ?_⟩
  rw [evaluated]
  refine congrArg Except.ok (Merge.eq_of_ascending (strict _) (by decide) fun d => ?_)
  have posted : d ∈ found (.term "cabs") ↔ d = 1 ∨ d = 4 ∨ d = 7 := by
    rw [names]
    simp [ix, Index.postings, Index.make, Table.get?, eq_comm]
  rw [twice, List.mem_filter, posted]
  simp [docs]
  omega

end Node
end Query
end Retrieval
