import Mathlib
import Retrieval.Proofs.Corpus.Documents

/-!
# Bodies of documents

The body of a document holds the lines after the last marker line of the body, up to the next marker line. So the lines
after the first one are all kept exactly if no marker line is among them (`readCollection_body`).
-/

set_option autoImplicit false

namespace Retrieval.Corpus
open Retrieval.Text

/-- The lines after the first marker line of a field. -/
def AfterFirst (m : Marker) (ls rest : List String) : Prop :=
  ∃ front mark, ls = front ++ mark :: rest ∧ Marker.ofLine? mark = some m ∧ ∀ l ∈ front, Marker.ofLine? l ≠ some m

/-- The lines after the last marker line of a field. -/
def AfterLast (m : Marker) (ls rest : List String) : Prop :=
  ∃ front mark, ls = front ++ mark :: rest ∧ Marker.ofLine? mark = some m ∧ ∀ l ∈ rest, Marker.ofLine? l ≠ some m

/-- The last marker line of a field decides what it holds. -/
theorem fieldLines?_eq_some_iff {m : Marker} {ls held : List String} :
    fieldLines? m ls = some held ↔ ∃ rest, AfterLast m ls rest ∧ held = rest.takeWhile unmarked := by
  induction ls with
  | nil => simp [fieldLines?, AfterLast]
  | cons l ls ih =>
    rw [fieldLines?, Option.or_eq_some_iff, ih, fieldLines?_eq_none_iff]
    constructor
    · rintro (⟨rest, ⟨front, mark, rfl, marks, last⟩, rfl⟩ | ⟨last, own⟩)
      · exact ⟨rest, ⟨l :: front, mark, rfl, marks, last⟩, rfl⟩
      · split at own
        · rename_i marks
          cases own
          exact ⟨ls, ⟨[], l, rfl, marks, last⟩, rfl⟩
        · cases own
    · rintro ⟨rest, ⟨_ | ⟨_, front⟩, mark, split, marks, last⟩, rfl⟩
      · obtain ⟨rfl, rfl⟩ := List.cons.inj split
        exact .inr ⟨last, if_pos marks⟩
      · obtain ⟨rfl, rfl⟩ := List.cons.inj split
        exact .inl ⟨rest, ⟨front, mark, rfl, marks, last⟩, rfl⟩

theorem exists_afterFirst {m : Marker} {ls : List String} {l : String} (mem : l ∈ ls)
    (marks : Marker.ofLine? l = some m) : ∃ rest, AfterFirst m ls rest := by
  have some : (ls.find? fun l => Marker.ofLine? l == some m).isSome :=
    List.find?_isSome.2 ⟨l, mem, by simpa using marks⟩
  obtain ⟨mark, found⟩ := Option.isSome_iff_exists.1 some
  obtain ⟨marks, front, rest, split, others⟩ := List.find?_eq_some_iff_append.1 found
  exact ⟨rest, front, mark, split, by simpa using marks, by simpa using others⟩

/-- Lines that are not blank stay when the blank ones at the end go. -/
theorem mem_withoutTrailingBlanks_iff {l : String} {ls : List String} (text : isBlankLine l = false) :
    l ∈ withoutTrailingBlanks ls ↔ l ∈ ls := by
  constructor
  · exact fun mem => (List.rdropWhile_prefix isBlankLine ls).subset mem
  · intro mem
    rw [← List.rdropWhile_append_rtakeWhile (p := isBlankLine) (l := ls)] at mem
    refine (List.mem_append.1 mem).resolve_right fun dropped => ?_
    rw [List.mem_rtakeWhile_imp dropped] at text
    cases text

/-- What a field holds are the lines after its first marker line exactly if no marker line is among these. -/
theorem withoutTrailingBlanks_fieldLines?_iff {m : Marker} {ls held rest : List String}
    (holds : fieldLines? m ls = some held) (first : AfterFirst m ls rest) :
    withoutTrailingBlanks held = withoutTrailingBlanks rest ↔ ∀ l ∈ rest, Marker.ofLine? l = none := by
  constructor
  · intro same l mem
    cases marker : Marker.ofLine? l with
    | none => rfl
    | some n =>
      -- A marker line is not blank, so it stays among all lines, and it is never among those that are held.
      have text : isBlankLine l = false := isBlankLine_of_ofLine? marker
      obtain ⟨last, -, rfl⟩ := fieldLines?_eq_some_iff.1 holds
      have kept : l ∈ last.takeWhile unmarked := by
        rwa [← mem_withoutTrailingBlanks_iff text, same, mem_withoutTrailingBlanks_iff text]
      have goesOn := List.mem_takeWhile_imp kept
      rw [unmarked, marker] at goesOn
      cases goesOn
  · intro none
    obtain ⟨front, mark, rfl, marks, -⟩ := first
    have own : fieldLines? m (front ++ mark :: rest) = some (rest.takeWhile unmarked) :=
      fieldLines?_eq_some_iff.2 ⟨rest, ⟨front, mark, rfl, marks, by simp_all⟩, rfl⟩
    have all : rest.takeWhile unmarked = rest := List.takeWhile_eq_self_iff.2 (by simp_all [unmarked])
    rw [holds, all] at own
    cases own
    rfl

/-- **The body of a document.** It holds the lines after the last marker line of the body, up to the next marker line
or the end of the record. So the lines after the first marker line of the body are kept exactly if no marker line is
among them. -/
theorem readCollection_body {text : String} {documents : List Document} {before after : List String} {head : String}
    (read : readCollection text = .ok documents) (place : lines text = before ++ head :: after)
    (starts : startsRecord head = true) :
    ∃ earlier d later all last, documents = earlier ++ d :: later ∧
      earlier.length = (before.filter startsRecord).length ∧ recordId? head = some d.id ∧
      AfterFirst .body (after.takeWhile continues) all ∧ AfterLast .body (after.takeWhile continues) last ∧
      d.lines = withoutTrailingBlanks (last.takeWhile unmarked) ∧
      (d.lines = withoutTrailingBlanks all ↔ ∀ l ∈ all, Marker.ofLine? l = none) := by
  obtain ⟨-, described, -⟩ := readCollection_ok_iff.1 read
  rw [numberedLines, place, blocks_append_cons starts, List.map_append, List.map_cons] at described
  obtain ⟨earlier, others, rfl, before_eq, others_eq⟩ := List.map_eq_append_iff.1 described.symm
  obtain ⟨d, later, rfl, own, -⟩ := List.map_eq_cons_iff.1 others_eq
  have count : earlier.length = (before.filter startsRecord).length := by
    rw [← map_head_blocks before 1, List.length_map, ← List.length_map (f := some), before_eq, List.length_map]
  obtain ⟨begins, -, -, body, holds, kept⟩ := Block.document?_eq_some_iff.1 own.symm
  dsimp only at begins holds
  obtain ⟨last, isLast, rfl⟩ := fieldLines?_eq_some_iff.1 holds
  obtain ⟨all, first⟩ : ∃ all, AfterFirst .body (after.takeWhile continues) all := by
    obtain ⟨front, mark, split, marks, -⟩ := isLast
    exact exists_afterFirst (show mark ∈ after.takeWhile continues by simp [split]) marks
  refine ⟨earlier, d, later, all, last, rfl, count, begins, first, isLast, kept, ?_⟩
  rw [kept]
  exact withoutTrailingBlanks_fieldLines?_iff holds first

/-- The body of the second of two documents has no marker line. -/
theorem readCollection_body_of_unmarked :
    let documents : List Document := [⟨1, "", "", ["b"]⟩, ⟨2, "", "", ["c", "", ".Bd"]⟩]
    let text := ".I 1\n.W\na\n.W\nb\n.I 2\n.W\nc\n\n.Bd\n\n"
    readCollection text = .ok documents ∧
      lines text = [".I 1", ".W", "a", ".W", "b"] ++ ".I 2" :: [".W", "c", "", ".Bd", "", ""] ∧
      startsRecord ".I 2" = true ∧
      ∃ earlier d later all last, documents = earlier ++ d :: later ∧
        earlier.length = ([".I 1", ".W", "a", ".W", "b"].filter startsRecord).length ∧ recordId? ".I 2" = some d.id ∧
        AfterFirst .body ([".W", "c", "", ".Bd", "", ""].takeWhile continues) all ∧
        AfterLast .body ([".W", "c", "", ".Bd", "", ""].takeWhile continues) last ∧
        d.lines = withoutTrailingBlanks (last.takeWhile unmarked) ∧
        (d.lines = withoutTrailingBlanks all ↔ ∀ l ∈ all, Marker.ofLine? l = none) := by
  intro documents text
  have read : readCollection text = .ok documents := by cbv
  have place : lines text = [".I 1", ".W", "a", ".W", "b"] ++ ".I 2" :: [".W", "c", "", ".Bd", "", ""] := by cbv
  have starts : startsRecord ".I 2" = true := by cbv
  exact ⟨read, place, starts, readCollection_body read place starts⟩

/-- A marker line of the body that comes again, or one of another field, takes lines from the body. -/
theorem readCollection_lines_lost :
    let text := ".I 1\n.W\na\n.W\nb\n.I 2\n.W\nc\n.B\nd\n"
    readCollection text = .ok [⟨1, "", "", ["b"]⟩, ⟨2, "", "", ["c"]⟩] ∧
      lines text = ".I 1" :: ".W" :: ["a", ".W", "b"] ++ ".I 2" :: ".W" :: ["c", ".B", "d", ""] ∧
      AfterFirst .body (".W" :: ["a", ".W", "b"]) ["a", ".W", "b"] ∧
      ["b"] ≠ withoutTrailingBlanks ["a", ".W", "b"] ∧
      AfterFirst .body (".W" :: ["c", ".B", "d", ""]) ["c", ".B", "d", ""] ∧
      ["c"] ≠ withoutTrailingBlanks ["c", ".B", "d", ""] := by
  have mark : Marker.ofLine? ".W" = some .body := by cbv
  exact ⟨by cbv, by cbv, ⟨[], ".W", rfl, mark, by simp⟩, by decide, ⟨[], ".W", rfl, mark, by simp⟩, by decide⟩

end Retrieval.Corpus
