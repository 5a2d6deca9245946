import Mathlib
import Retrieval.Proofs.Corpus.Documents

/-!
# Collections one after the other

Where only blank lines come before the first record of a second text, the documents of two texts with a newline between
them are those of each (`readCollection_newline_ok_iff`). So two collections that are put one after the other are read as
one, whichever field the blank lines between them become part of (`readCollection_append`).
-/

set_option autoImplicit false

namespace Retrieval.Corpus
open Retrieval.Text

/-- Where only blank lines come before the first record of the rest, lines with the rest after them have only blank lines
before the first record exactly if the lines alone do. -/
theorem forall_isBlankLine_append_iff {rest : List String}
    (blank : ∀ l ∈ rest.takeWhile continues, isBlankLine l = true) (ls : List String) :
    (∀ l ∈ (ls ++ rest).takeWhile continues, isBlankLine l = true) ↔
      ∀ l ∈ ls.takeWhile continues, isBlankLine l = true := by
  obtain ⟨more, goesOn, sub⟩ := exists_takeWhile_append continues ls rest
  rw [goesOn, List.forall_mem_append]
  exact and_iff_left fun l mem => blank l (sub mem)

/-- Two texts with a newline between them are read as the documents of the one and then those of the other, if the second
text has only blank lines before its first record. -/
theorem readCollection_newline_ok_iff {s t : String} {documents : List Document}
    (blank : ∀ l ∈ (lines t).takeWhile continues, isBlankLine l = true) :
    readCollection (s ++ "\n" ++ t) = .ok documents ↔
      ∃ first second, documents = first ++ second ∧ readCollection s = .ok first ∧ readCollection t = .ok second ∧
        ∀ d ∈ first, ∀ e ∈ second, d.id < e.id := by
  simp only [readCollection_ok_iff, numberedLines]
  rw [lines_append_newline, forall_isBlankLine_append_iff blank, map_document?_blocks_append blank (lines s) 1 1]
  constructor
  · rintro ⟨blankFirst, described, ascending⟩
    obtain ⟨first, second, rfl, describedFirst, describedSecond⟩ := List.map_eq_append_iff.1 described.symm
    rw [List.map_append, List.pairwise_append] at ascending
    obtain ⟨ascendingFirst, ascendingSecond, across⟩ := ascending
    exact ⟨first, second, rfl, ⟨blankFirst, describedFirst.symm, ascendingFirst⟩,
      ⟨blank, describedSecond.symm, ascendingSecond⟩,
      fun d hd e he => across d.id (List.mem_map_of_mem hd) e.id (List.mem_map_of_mem he)⟩
  · rintro ⟨first, second, rfl, ⟨blankFirst, describedFirst, ascendingFirst⟩, ⟨-, describedSecond, ascendingSecond⟩,
      across⟩
    refine ⟨blankFirst, by rw [describedFirst, describedSecond, List.map_append], ?_⟩
    rw [List.map_append, List.pairwise_append]
    refine ⟨ascendingFirst, ascendingSecond, fun m hm n hn => ?_⟩
    obtain ⟨d, hd, rfl⟩ := List.mem_map.1 hm
    obtain ⟨e, he, rfl⟩ := List.mem_map.1 hn
    exact across d hd e he

theorem readCollection_empty : readCollection "" = .ok [] :=
  readCollection_ok_iff.2 ⟨by decide, rfl, List.Pairwise.nil⟩

/-- **Collections can be put one after the other.** Where the first text is empty or ends with a newline, and the ids of
the second collection are greater than those of the first, both texts together are read as the documents of the first
and then those of the second. -/
theorem readCollection_append {a b : String} {first second : List Document} (readFirst : readCollection a = .ok first)
    (readSecond : readCollection b = .ok second) (ended : a = "" ∨ ∃ s, a = s ++ "\n")
    (greater : ∀ d ∈ first, ∀ e ∈ second, d.id < e.id) : readCollection (a ++ b) = .ok (first ++ second) := by
  rcases ended with rfl | ⟨s, rfl⟩
  · rw [readCollection_empty] at readFirst
    cases readFirst
    rw [String.empty_append]
    exact readSecond
  · have unended : readCollection s = .ok first := by
      rw [← String.append_empty (s := s ++ "\n"), readCollection_newline_ok_iff (by decide)] at readFirst
      obtain ⟨first, rest, rfl, readFirst, readRest, -⟩ := readFirst
      rw [readCollection_empty] at readRest
      cases readRest
      rw [List.append_nil]
      exact readFirst
    have blank := (readCollection_ok_iff.1 readSecond).1
    exact (readCollection_newline_ok_iff blank).2 ⟨first, second, rfl, unended, readSecond, greater⟩

/-- Blank lines before the second collection become part of the authors of the last document of the first one. -/
theorem readCollection_append_of_blanks :
    let a := ".I 1\n.W\nab\n\n.I 4\n.W\ncab\n.A\nx\n"
    let b := "\t\n \n.I 10\n.T\ny\n.W\nba"
    let first : List Document := [⟨1, "", "", ["ab"]⟩, ⟨4, "", "x", ["cab"]⟩]
    let second : List Document := [⟨10, "y", "", ["ba"]⟩]
    readCollection a = .ok first ∧ readCollection b = .ok second ∧ (a = "" ∨ ∃ s, a = s ++ "\n") ∧
      (∀ d ∈ first, ∀ e ∈ second, d.id < e.id) ∧ readCollection (a ++ b) = .ok (first ++ second) := by
  intro a b first second
  have readFirst : readCollection a = .ok first := by cbv
  have readSecond : readCollection b = .ok second := by cbv
  have ended : a = "" ∨ ∃ s, a = s ++ "\n" := .inr ⟨".I 1\n.W\nab\n\n.I 4\n.W\ncab\n.A\nx", rfl⟩
  have greater : ∀ d ∈ first, ∀ e ∈ second, d.id < e.id := by decide
  exact ⟨readFirst, readSecond, ended, greater, readCollection_append readFirst readSecond ended greater⟩

end Retrieval.Corpus
