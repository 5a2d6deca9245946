import Retrieval.Corpus.Record
import Retrieval.Proofs.Steps
import Retrieval.Proofs.Table

/-!
# Files of records, block by block

The lines of a file are those before its first `.I` line and the blocks that the `.I` lines begin. Reading a file line
by line is reading its blocks one after the other: each is opened, read to its end and handed over before the next one
is opened (`readRecords_eq`). What it leaves in a field are the lines after the last marker line of the field, up to the
next marker line (`Cursor.field?_foldl_take`). Where a line of a file begins a record, the blocks before it are those of
the lines before it (`blocks_append_cons`), and every block comes from such a line (`exists_place_of_blocks`).
-/

set_option autoImplicit false

namespace Retrieval.Corpus
open Retrieval.Text

/-- A `.I` line with its number, and the lines after it up to the next one. -/
structure Block where
  number : Nat
  head : String
  tail : List String

/-- Whether a line goes on with what comes before it. -/
def continues (line : String) : Bool := !startsRecord line

/-- The blocks of numbered lines; lines before the first `.I` line belong to none. -/
def blocks : List (String × Nat) → List Block
  | [] => []
  | (line, number) :: rest =>
    if startsRecord line then ⟨number, line, (rest.map Prod.fst).takeWhile continues⟩ :: blocks rest else blocks rest

/-- Whether a line is no marker line. -/
def unmarked (line : String) : Bool := (Marker.ofLine? line).isNone

/-- The lines of a field of the record with the given lines: those after the last marker line of the field, up to the
next marker line. -/
def fieldLines? (m : Marker) : List String → Option (List String)
  | [] => none
  | l :: ls => (fieldLines? m ls).or (if Marker.ofLine? l = some m then some (ls.takeWhile unmarked) else none)

/-- What a line after a `.I` line does to the record being read. -/
def Cursor.take (c : Cursor) (line : String) : Cursor :=
  match Marker.ofLine? line with
  | some m => ⟨c.record.setField m [], some m⟩
  | none => { c with record := c.current.elim c.record fun m => c.record.addLine m line }

namespace Block

/-- The record that a block holds. -/
def record (b : Block) : Except ReadError Record :=
  (openRecord b.number b.head).map fun r => (b.tail.foldl Cursor.take ⟨r, none⟩).record

/-- Reads a block and hands its record over. -/
def handOver {σ : Type} (finish : σ → Record → Except ReadError σ) (done : σ) (b : Block) : Except ReadError σ := do
  finish done (← b.record)

end Block

/-- The error of a line before the first `.I` line that is not blank. -/
def strayError (line : String) (number : Nat) : ReadError :=
  formatError ((Marker.ofLine? line).elim .textBeforeFirstRecord fun m => .fieldOutsideRecord m.text) number

/-- The first line before all `.I` lines that is not blank. -/
def stray? (numbered : List (String × Nat)) : Option (String × Nat) :=
  (numbered.takeWhile fun l => continues l.1).find? fun l => !isBlankLine l.1

/-! ### Markers -/

theorem Marker.text_inj {m m' : Marker} (h : m.text = m'.text) : m = m' := by
  revert h
  cases m <;> cases m' <;> decide

/-- A marker line starts with its marker and holds nothing else but blanks. -/
theorem Marker.ofLine?_eq_some_iff {line : String} {m : Marker} :
    Marker.ofLine? line = some m ↔ m.text.toList <+: line.toList ∧ trim line = m.text := by
  have test (m : Marker) : (m.text.toList.isPrefixOf line.toList && trim line == m.text) = true ↔
      m.text.toList <+: line.toList ∧ trim line = m.text := by simp
  constructor
  · intro h
    have holds := List.find?_some h
    exact (test m).1 holds
  · intro h
    cases found : Marker.ofLine? line with
    | none => exact absurd ((test m).2 h) (List.find?_eq_none.1 found m (by cases m <;> decide))
    | some m' =>
      have holds := List.find?_some found
      rw [Marker.text_inj (((test m').1 holds).2.symm.trans h.2)]

/-- A marker line is not blank. -/
theorem isBlankLine_of_ofLine? {line : String} {m : Marker} (h : Marker.ofLine? line = some m) :
    isBlankLine line = false := by
  have dot : '.' ∈ m.text.toList := by cases m <;> decide
  have mem : '.' ∈ line.toList := (Marker.ofLine?_eq_some_iff.1 h).1.subset dot
  rw [isBlankLine, List.all_eq_false]
  exact ⟨'.', mem, by decide⟩

/-! ### What the lines of a block leave in its record -/

theorem lookup_filter_ne {m m' : Marker} (h : m' ≠ m) (fields : List (Marker × List String)) :
    (fields.filter (·.1 ≠ m)).lookup m' = fields.lookup m' := by
  induction fields with
  | nil => rfl
  | cons p fields ih =>
    obtain ⟨n, lines⟩ := p
    rw [List.filter_cons, Table.lookup_cons_eq]
    by_cases same : n = m
    · subst same
      simpa [h] using ih
    · rw [if_pos (by simpa using same), Table.lookup_cons_eq, ih]

theorem Record.field?_setField (r : Record) (m m' : Marker) (lines : List String) :
    (r.setField m lines).field? m' = if m' = m then some lines else r.field? m' := by
  rw [setField, field?, Table.lookup_cons_eq]
  split
  · rfl
  · rename_i other
    exact lookup_filter_ne other r.fields

/-- A record has a field exactly if its marker comes in the lines of the record. -/
theorem isSome_fieldLines?_iff {m : Marker} {ls : List String} :
    (fieldLines? m ls).isSome = true ↔ ∃ l ∈ ls, Marker.ofLine? l = some m := by
  induction ls with
  | nil => simp [fieldLines?]
  | cons l ls ih =>
    have own : (if Marker.ofLine? l = some m then some (ls.takeWhile unmarked) else none).isSome = true ↔
        Marker.ofLine? l = some m := by
      split <;> simp [*]
    rw [fieldLines?, Option.isSome_or, Bool.or_eq_true, ih, own, or_comm]
    simp

theorem fieldLines?_eq_none_iff {m : Marker} {ls : List String} :
    fieldLines? m ls = none ↔ ∀ l ∈ ls, Marker.ofLine? l ≠ some m := by
  rw [← Option.isNone_iff_eq_none, ← Option.not_isSome, Bool.not_eq_true', ← Bool.not_eq_true, isSome_fieldLines?_iff]
  simp

namespace Cursor

@[simp] theorem id_take (c : Cursor) (line : String) : (c.take line).record.id = c.record.id := by
  rw [take]
  cases Marker.ofLine? line with
  | some m => rfl
  | none => cases c.current <;> rfl

@[simp] theorem line_take (c : Cursor) (line : String) : (c.take line).record.line = c.record.line := by
  rw [take]
  cases Marker.ofLine? line with
  | some m => rfl
  | none => cases c.current <;> rfl

@[simp] theorem id_foldl_take (ls : List String) (c : Cursor) : (ls.foldl take c).record.id = c.record.id := by
  induction ls generalizing c with
  | nil => rfl
  | cons l ls ih => rw [List.foldl_cons, ih, id_take]

@[simp] theorem line_foldl_take (ls : List String) (c : Cursor) : (ls.foldl take c).record.line = c.record.line := by
  induction ls generalizing c with
  | nil => rfl
  | cons l ls ih => rw [List.foldl_cons, ih, line_take]

/-- The field that takes the next line is there. -/
def Open (c : Cursor) : Prop := ∀ m ∈ c.current, (c.record.field? m).isSome = true

theorem open_take (c : Cursor) (line : String) : (c.take line).Open := by
  rw [take]
  cases Marker.ofLine? line with
  | some m =>
    rintro _ ⟨⟩
    simp [Record.field?_setField]
  | none =>
    intro m current
    have current : c.current = some m := current
    simp [current, Record.addLine, Record.field?_setField]

/-- A field that lines go on with has what it had and the lines up to the next marker line, unless its marker comes
again. -/
theorem field?_foldl_take {ls : List String} {c : Cursor} (h : c.Open) (m : Marker) :
    (ls.foldl take c).record.field? m = (fieldLines? m ls).or
      (if c.current = some m then (c.record.field? m).map (· ++ ls.takeWhile unmarked) else c.record.field? m) := by
  induction ls generalizing c with
  | nil => simp [fieldLines?]
  | cons l ls ih =>
    rw [List.foldl_cons, ih (open_take c l), fieldLines?, Option.or_assoc]
    congr 1
    cases marker : Marker.ofLine? l with
    | some n =>
      have stops : (l :: ls).takeWhile unmarked = [] := List.takeWhile_cons_of_neg (by simp [unmarked, marker])
      have switched : c.take l = ⟨c.record.setField n [], some n⟩ := by simp only [take, marker]
      by_cases same : n = m
      · simp [switched, same, Record.field?_setField]
      · simp [switched, same, Ne.symm same, Record.field?_setField, stops]
    | none =>
      have goesOn : (l :: ls).takeWhile unmarked = l :: ls.takeWhile unmarked :=
        List.takeWhile_cons_of_pos (by simp [unmarked, marker])
      cases current : c.current with
      | none =>
        have skipped : c.take l = c := by
          simp only [take, marker, current, Option.elim_none]
          rw [← current]
        simp [skipped, current]
      | some n =>
        have added : c.take l = ⟨c.record.addLine n l, some n⟩ := by
          simp only [take, marker, current, Option.elim_some]
        by_cases same : n = m
        · subst same
          obtain ⟨old, hold⟩ := Option.isSome_iff_exists.1 (h n current)
          simp [added, goesOn, Record.addLine, Record.field?_setField, Record.field, hold]
        · simp [added, same, Ne.symm same, Record.addLine, Record.field?_setField]

end Cursor

/-! ### Reading block by block -/

section Reading

variable {σ : Type} (finish : σ → Record → Except ReadError σ)

/-- Within a record, the lines up to the next `.I` line complete it, and the blocks after them follow. -/
theorem scan_some (rest : List (String × Nat)) (done : σ) (c : Cursor) :
    scan finish done (some c) rest =
      finish done (((rest.map Prod.fst).takeWhile continues).foldl Cursor.take c).record >>= fun done =>
        (blocks rest).foldlM (Block.handOver finish) done := by
  induction rest generalizing done c with
  | nil => exact (bind_pure _).symm
  | cons l rest ih =>
    obtain ⟨line, number⟩ := l
    unfold scan
    rw [List.map_cons, blocks]
    by_cases starts : startsRecord line = true
    · rw [if_pos starts, if_pos starts, List.takeWhile_cons_of_neg (by simp [continues, starts])]
      refine bind_congr fun done => ?_
      show openRecord number line >>= _ = _
      rw [List.foldlM_cons, Block.handOver, Block.record]
      cases openRecord number line with
      | error e => rfl
      | ok r => exact ih done ⟨r, none⟩
    · rw [if_neg starts, if_neg starts, List.takeWhile_cons_of_pos (by simp [continues, starts]), List.foldl_cons,
        ← ih done (c.take line), Cursor.take]
      cases Marker.ofLine? line <;> rfl

/-- Before the first record, a line that is not blank is an error, and otherwise the blocks follow. -/
theorem scan_none (rest : List (String × Nat)) (done : σ) :
    scan finish done none rest =
      (stray? rest).elim ((blocks rest).foldlM (Block.handOver finish) done) fun l => .error (strayError l.1 l.2) := by
  induction rest with
  | nil => rfl
  | cons l rest ih =>
    obtain ⟨line, number⟩ := l
    unfold scan
    rw [stray?, blocks]
    by_cases starts : startsRecord line = true
    · rw [if_pos starts, if_pos starts, List.takeWhile_cons_of_neg (by simp [continues, starts]), List.foldlM_cons,
        Block.handOver, Block.record]
      show openRecord number line >>= _ = _
      cases openRecord number line with
      | error e => rfl
      | ok r => exact scan_some finish rest done ⟨r, none⟩
    · rw [if_neg starts, if_neg starts, List.takeWhile_cons_of_pos (by simp [continues, starts]), List.find?_cons]
      cases marker : Marker.ofLine? line with
      | some m => simp [isBlankLine_of_ofLine? marker, strayError, marker]
      | none =>
        cases blank : isBlankLine line
        · simp [strayError, marker]
        · simpa [stray?] using ih

/-- Reading a file is reading its blocks in order, unless there is text before them. -/
theorem readRecords_eq (start : σ) (text : String) :
    readRecords finish start text =
      (stray? (numberedLines text)).elim ((blocks (numberedLines text)).foldlM (Block.handOver finish) start)
        fun l => .error (strayError l.1 l.2) :=
  scan_none finish _ start

end Reading

/-! ### The lines that blocks come from -/

theorem takeWhile_append_cons {before after : List String} {line : String} (starts : startsRecord line = true) :
    (before ++ line :: after).takeWhile continues = before.takeWhile continues := by
  induction before with
  | nil => simp [continues, starts]
  | cons l before ih =>
    rw [List.cons_append, List.takeWhile_cons, List.takeWhile_cons, ih]

/-- A line that begins a record parts the blocks of the lines before it from its own and those after it. -/
theorem blocks_append_cons {before after : List String} {line : String} (starts : startsRecord line = true) (k : Nat) :
    blocks ((before ++ line :: after).zipIdx k) =
      blocks (before.zipIdx k) ++
        ⟨k + before.length, line, after.takeWhile continues⟩ :: blocks (after.zipIdx (k + before.length + 1)) := by
  induction before generalizing k with
  | nil => simp [blocks, starts]
  | cons l before ih =>
    have next : k + 1 + before.length = k + (l :: before).length := by
      rw [List.length_cons]
      omega
    have rest := ih (k + 1)
    rw [next] at rest
    rw [List.cons_append, List.zipIdx_cons, List.zipIdx_cons, blocks, blocks, rest]
    split
    · simp [takeWhile_append_cons starts]
    · rfl

/-- Lines that begin no record are in no block that comes after them. -/
theorem blocks_append_of_continues {ls rest : List String} (h : ∀ l ∈ ls, startsRecord l = false) (k : Nat) :
    blocks ((ls ++ rest).zipIdx k) = blocks (rest.zipIdx (k + ls.length)) := by
  induction ls generalizing k with
  | nil => rfl
  | cons l ls ih =>
    obtain ⟨first, others⟩ := List.forall_mem_cons.1 h
    rw [List.cons_append, List.zipIdx_cons, blocks, first, if_neg Bool.false_ne_true, ih others, List.length_cons,
      Nat.add_right_comm, Nat.add_assoc]

/-- A block comes from a line that begins a record, and the blocks before it from the lines before that line. -/
theorem exists_place_of_blocks {ls : List String} {k : Nat} {earlier later : List Block} {b : Block}
    (h : blocks (ls.zipIdx k) = earlier ++ b :: later) :
    ∃ before after, ls = before ++ b.head :: after ∧ startsRecord b.head = true ∧ b.number = k + before.length ∧
      b.tail = after.takeWhile continues ∧ earlier = blocks (before.zipIdx k) := by
  induction ls generalizing k earlier with
  | nil => cases earlier <;> cases h
  | cons l ls ih =>
    rw [List.zipIdx_cons, blocks] at h
    by_cases starts : startsRecord l = true
    · rw [if_pos starts] at h
      cases earlier with
      | nil =>
        obtain ⟨rfl, -⟩ := List.cons.inj h
        exact ⟨[], ls, rfl, starts, rfl, by simp, rfl⟩
      | cons first earlier =>
        obtain ⟨rfl, rest⟩ := List.cons.inj h
        obtain ⟨before, after, rfl, begins, number, tail, rfl⟩ := ih rest
        refine ⟨l :: before, after, rfl, begins, ?_, tail, ?_⟩
        · rw [number, List.length_cons]
          omega
        · rw [List.zipIdx_cons, blocks, if_pos starts]
          simp [takeWhile_append_cons begins]
    · rw [if_neg starts] at h
      obtain ⟨before, after, rfl, begins, number, tail, rfl⟩ := ih h
      refine ⟨l :: before, after, rfl, begins, ?_, tail, ?_⟩
      · rw [number, List.length_cons]
        omega
      · rw [List.zipIdx_cons, blocks, if_neg starts]

/-- The blocks of a file are those of its `.I` lines, in order. -/
theorem map_head_blocks (ls : List String) (k : Nat) :
    (blocks (ls.zipIdx k)).map Block.head = ls.filter startsRecord := by
  induction ls generalizing k with
  | nil => rfl
  | cons l ls ih =>
    rw [List.zipIdx_cons, blocks, List.filter_cons]
    split
    · rw [List.map_cons, ih]
    · exact ih (k + 1)

/-- There is none exactly if the lines before the first `.I` line are blank. -/
theorem stray?_eq_none_iff {numbered : List (String × Nat)} :
    stray? numbered = none ↔ ∀ l ∈ (numbered.map Prod.fst).takeWhile continues, isBlankLine l = true := by
  rw [stray?, List.find?_eq_none, List.takeWhile_map, List.forall_mem_map]
  simp only [Function.comp_def, Bool.not_eq_true', Bool.not_eq_false]

/-- The line that is found before all records is not blank, and the lines before it are. -/
theorem place_of_stray {ls : List String} {k : Nat} {l : String × Nat} (h : stray? (ls.zipIdx k) = some l) :
    ∃ before after, ls = before ++ l.1 :: after ∧ l.2 = k + before.length ∧ isBlankLine l.1 = false ∧
      (∀ line ∈ before, isBlankLine line = true) ∧ ∀ line ∈ before ++ [l.1], startsRecord line = false := by
  induction ls generalizing k with
  | nil => cases h
  | cons line ls ih =>
    rw [List.zipIdx_cons, stray?] at h
    cases starts : startsRecord line
    · rw [List.takeWhile_cons_of_pos (by simp [continues, starts]), List.find?_cons] at h
      cases blank : isBlankLine line
      · simp only [blank, Bool.not_false, Option.some.injEq] at h
        subst h
        exact ⟨[], ls, rfl, rfl, blank, by simp, by simpa using starts⟩
      · simp only [blank, Bool.not_true] at h
        obtain ⟨before, after, rfl, number, text, blanks, first⟩ := ih h
        refine ⟨line :: before, after, rfl, ?_, text, ?_, ?_⟩
        · rw [number, List.length_cons]
          omega
        · exact List.forall_mem_cons.2 ⟨blank, blanks⟩
        · exact List.forall_mem_cons.2 ⟨starts, first⟩
    · rw [List.takeWhile_cons_of_neg (by simp [continues, starts])] at h
      cases h

/-- Where none is found, a line that comes before all records is blank. -/
theorem blank_of_stray_none {before after : List String} {line : String} {k : Nat}
    (h : stray? ((before ++ line :: after).zipIdx k) = none) (first : ∀ l ∈ before ++ [line], startsRecord l = false) :
    isBlankLine line = true := by
  have mem : (line, k + before.length) ∈ ((before ++ line :: after).zipIdx k).takeWhile fun l => continues l.1 := by
    have shown : ∀ l ∈ (before ++ [line]).zipIdx k, continues l.1 = true := by
      intro l hl
      simp [continues, first l.1 (List.fst_mem_of_mem_zipIdx hl)]
    rw [List.append_cons, List.zipIdx_append, List.takeWhile_append_of_pos shown]
    simp [List.zipIdx_append]
  simpa using List.find?_eq_none.1 h _ mem

end Retrieval.Corpus
