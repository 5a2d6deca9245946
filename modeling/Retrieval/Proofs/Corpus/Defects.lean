import Mathlib.Data.List.Induction
import Retrieval.Proofs.Corpus.Blocks
import Retrieval.Proofs.Numeral.Digits
import Retrieval.Proofs.Text.Runs

/-!
# Defective lines of files of records

`Defect` says what can be wrong with a line of a file, given the lines before and after it, and `Unreadable` that a
`.I` line has an id of digit characters that is no integer. Although the body and the order of a record are checked
only once its last line has been read, reading goes through a file up to the first line with either of them: it
succeeds if there is none (`Judges.clean`), and otherwise ends with an error at that line (`Judges.halts`).
-/

set_option autoImplicit false

namespace Retrieval.Corpus
open Retrieval.Text

/-- The second of the two fields of a line, if it consists of digit characters. -/
def idDigits? (line : String) : Option String :=
  match words line with
  | [_, id] => if id.toList.all isDigit then some id else none
  | _ => none

/-- The id of the record that a line begins. -/
def recordId? (line : String) : Option Int := (idDigits? line).bind fun id => (Numeral.readInteger id).toOption

/-- What can be wrong with a line of a file, where `ordered` says whether ids have to ascend. -/
inductive Defect (ordered : Bool) (before : List String) (line : String) (after : List String) : Prop where
  /-- The line is not blank and comes before all `.I` lines. -/
  | stray (text : isBlankLine line = false) (first : ∀ l ∈ before ++ [line], startsRecord l = false)
  /-- A `.I` line has no two fields, or the second one has a character that is no digit. -/
  | id (starts : startsRecord line = true)
      (none : ∀ mark id, words line = [mark, id] → ∃ c ∈ id.toList, isDigit c = false)
  /-- No line of the record has the marker of the body. -/
  | body (starts : startsRecord line = true) (none : ∀ l ∈ after.takeWhile continues, Marker.ofLine? l ≠ some .body)
  /-- The id is not greater than that of the `.I` line before. -/
  | order {previous : String} {m n : Int} (checked : ordered = true) (starts : startsRecord line = true)
      (last : (before.filter startsRecord).getLast? = some previous) (earlier : recordId? previous = some m)
      (own : recordId? line = some n) (le : n ≤ m)

/-- A `.I` line has an id of digit characters one of which stands for no decimal digit, or of too many of them. -/
def Unreadable (_before : List String) (line : String) (_after : List String) : Prop :=
  startsRecord line = true ∧ ∃ mark id, words line = [mark, id] ∧ (∀ c ∈ id.toList, isDigit c = true) ∧
    ((∃ c ∈ id.toList, isDecimal c = false) ∨ Numeral.digitLimit < id.toList.length)

/-- The line of a text with the given number has a property, which may depend on the lines before and after it. -/
def AtLine (P : List String → String → List String → Prop) (text : String) (number : Nat) : Prop :=
  ∃ before line after, lines text = before ++ line :: after ∧ number = before.length + 1 ∧ P before line after

/-! ### Ids -/

theorem idDigits?_eq_some_iff {line id : String} :
    idDigits? line = some id ↔ ∃ mark, words line = [mark, id] ∧ ∀ c ∈ id.toList, isDigit c = true := by
  unfold idDigits?
  split
  · rename_i mark own fields
    by_cases digits : own.toList.all isDigit = true
    · rw [if_pos digits]
      constructor
      · rintro ⟨⟩
        exact ⟨mark, fields, List.all_eq_true.1 digits⟩
      · rintro ⟨mark', fields', -⟩
        rw [fields] at fields'
        simp_all
    · rw [if_neg digits]
      refine iff_of_false (by simp) ?_
      rintro ⟨mark', fields', all⟩
      rw [fields] at fields'
      cases fields'
      exact digits (List.all_eq_true.2 all)
  · rename_i other
    refine iff_of_false (by simp) ?_
    rintro ⟨mark, fields, -⟩
    exact other mark id fields

theorem idDigits?_eq_none_iff {line : String} :
    idDigits? line = none ↔ ∀ mark id, words line = [mark, id] → ∃ c ∈ id.toList, isDigit c = false := by
  rw [Option.eq_none_iff_forall_ne_some]
  simp only [ne_eq, idDigits?_eq_some_iff, not_exists, not_and, not_forall, Bool.not_eq_true]
  constructor
  · intro h mark id fields
    obtain ⟨c, hc, no⟩ := h id mark fields
    exact ⟨c, hc, no⟩
  · intro h id mark fields
    obtain ⟨c, hc, no⟩ := h mark id fields
    exact ⟨c, hc, no⟩

theorem unreadable_iff {before after : List String} {line : String} :
    Unreadable before line after ↔
      startsRecord line = true ∧ ∃ id e, idDigits? line = some id ∧ Numeral.readInteger id = .error e := by
  refine and_congr_right fun _ => ?_
  constructor
  · rintro ⟨mark, id, fields, digits, bad⟩
    obtain ⟨some_digit, solid⟩ := forall_mem_words (show id ∈ words line by simp [fields])
    obtain ⟨e, he⟩ := (Numeral.readInteger_digits_error_iff some_digit solid digits).2 bad
    exact ⟨id, e, idDigits?_eq_some_iff.2 ⟨mark, fields, digits⟩, he⟩
  · rintro ⟨id, e, found, he⟩
    obtain ⟨mark, fields, digits⟩ := idDigits?_eq_some_iff.1 found
    obtain ⟨some_digit, solid⟩ := forall_mem_words (show id ∈ words line by simp [fields])
    exact ⟨mark, id, fields, digits, (Numeral.readInteger_digits_error_iff some_digit solid digits).1 ⟨e, he⟩⟩

theorem openRecord_eq (number : Nat) (line : String) :
    openRecord number line =
      match idDigits? line with
      | none => .error (formatError (.invalidRecordId line) number)
      | some id =>
        match Numeral.readInteger id with
        | .ok n => .ok ⟨n, number, []⟩
        | .error e => .error (.integer e) := by
  unfold openRecord idDigits?
  rcases words line with _ | ⟨mark, _ | ⟨id, _ | ⟨_, _⟩⟩⟩
  · rfl
  · rfl
  · cases digits : id.toList.all isDigit
    · simp only [digits, Bool.false_eq_true, if_false]
    · cases read : Numeral.readInteger id with
      | ok n => simp only [digits, if_true, read]
      | error e => simp only [digits, if_true, read]
  · rfl

/-- A block has a record with its id and number, or an id that does not consist of digits, or one that is no
integer. -/
theorem Block.record_cases (b : Block) :
    (∃ r, b.record = .ok r ∧ recordId? b.head = some r.id ∧ r.line = b.number ∧
      ∀ m, r.field? m = fieldLines? m b.tail) ∨
    (idDigits? b.head = none ∧ ∃ cause, b.record = .error (formatError cause b.number)) ∨
    ∃ id e, idDigits? b.head = some id ∧ Numeral.readInteger id = .error e ∧ b.record = .error (.integer e) := by
  rw [record, openRecord_eq]
  cases digits : idDigits? b.head with
  | none => exact .inr (.inl ⟨rfl, _, rfl⟩)
  | some id =>
    cases read : Numeral.readInteger id with
    | error e => exact .inr (.inr ⟨id, e, rfl, read, by simp only [read]; rfl⟩)
    | ok n =>
      refine .inl
        ⟨(b.tail.foldl Cursor.take ⟨⟨n, b.number, []⟩, none⟩).record, by simp only [read]; rfl, ?_, ?_, fun m => ?_⟩
      · rw [Cursor.id_foldl_take, recordId?, digits, Option.bind_some, read]
        rfl
      · rw [Cursor.line_foldl_take]
      · rw [Cursor.field?_foldl_take (by rintro _ ⟨⟩)]
        simp [Record.field?]

/-- A record that is read has the id and number of its block, and the fields of its lines. -/
theorem Block.of_record_ok {b : Block} {r : Record} (h : b.record = .ok r) :
    recordId? b.head = some r.id ∧ r.line = b.number ∧ ∀ m, r.field? m = fieldLines? m b.tail := by
  rcases b.record_cases with ⟨r', read, own⟩ | ⟨-, cause, failed⟩ | ⟨id, e, -, -, failed⟩
  · rw [h] at read
    cases read
    exact own
  · rw [h] at failed
    cases failed
  · rw [h] at failed
    cases failed

/-- A block whose first line has an id has a record. -/
theorem Block.exists_record {b : Block} {n : Int} (h : recordId? b.head = some n) : ∃ r, b.record = .ok r := by
  rcases b.record_cases with ⟨r, read, -⟩ | ⟨digits, -⟩ | ⟨id, e, digits, unread, -⟩
  · exact ⟨r, read⟩
  · rw [recordId?, digits] at h
    cases h
  · rw [recordId?, digits, Option.bind_some, unread] at h
    cases h

theorem Block.isSome_field?_iff {b : Block} {r : Record} (h : b.record = .ok r) {m : Marker} :
    (r.field? m).isSome = true ↔ ∃ l ∈ b.tail, Marker.ofLine? l = some m := by
  rw [(of_record_ok h).2.2 m, isSome_fieldLines?_iff]

/-! ### Checking records -/

/-- A record has a body and, if ids have to ascend, a greater id than the one before. -/
def Block.Sound (ordered : Bool) (earlier : List Block) (b : Block) : Prop :=
  (∃ l ∈ b.tail, Marker.ofLine? l = some .body) ∧
    (ordered = true → ∀ previous m n, earlier.getLast? = some previous → recordId? previous.head = some m →
      recordId? b.head = some n → m < n)

/-- What takes the records of a file accepts the sound ones, and refuses the others with an error at their lines. -/
structure Judges {σ : Type} (finish : σ → Record → Except ReadError σ) (start : σ) (ordered : Bool) : Prop where
  accepts : ∀ {earlier : List Block} {done : σ} {b : Block} {r : Record},
    earlier.foldlM (Block.handOver finish) start = .ok done → b.record = .ok r → b.Sound ordered earlier →
      ∃ done', finish done r = .ok done'
  refuses : ∀ {earlier : List Block} {done : σ} {b : Block} {r : Record},
    earlier.foldlM (Block.handOver finish) start = .ok done → b.record = .ok r → ¬ b.Sound ordered earlier →
      ∃ cause, finish done r = .error (formatError cause b.number)

/-- At the line that begins a block, soundness is having no defect. -/
theorem sound_of_not_defect {ordered : Bool} {before after : List String} {line : String} {number k : Nat}
    (starts : startsRecord line = true) (h : ¬ Defect ordered before line after) :
    Block.Sound ordered (blocks (before.zipIdx k)) ⟨number, line, after.takeWhile continues⟩ := by
  constructor
  · by_contra none
    exact h (.body starts fun l hl marker => none ⟨l, hl, marker⟩)
  · intro checked previous m n last earlier own
    by_contra le
    refine h (.order checked starts ?_ earlier own (Int.not_lt.1 le))
    rw [← map_head_blocks before k, List.getLast?_map, last]
    rfl

theorem not_defect_of_sound {ordered : Bool} {before after : List String} {line : String} {number k : Nat}
    (starts : startsRecord line = true) (digits : idDigits? line ≠ none)
    (sound : Block.Sound ordered (blocks (before.zipIdx k)) ⟨number, line, after.takeWhile continues⟩) :
    ¬ Defect ordered before line after := by
  intro defect
  cases defect with
  | stray text first =>
    have : startsRecord line = false := first line (by simp)
    rw [starts] at this
    cases this
  | id _ none => exact digits (idDigits?_eq_none_iff.2 none)
  | body _ none =>
    obtain ⟨l, hl, marker⟩ := sound.1
    exact none l hl marker
  | order checked _ last earlier own le =>
    rw [← map_head_blocks before k, List.getLast?_map] at last
    obtain ⟨b, hb, rfl⟩ := Option.map_eq_some_iff.1 last
    have := sound.2 checked b _ _ hb earlier own
    omega

section Reading

variable {σ : Type} {finish : σ → Record → Except ReadError σ} {start : σ} {ordered : Bool}

/-- A block that is handed over has an id that can be read, and its record is sound. -/
theorem Judges.sound_of_handOver (judges : Judges finish start ordered) {earlier : List Block} {done done' : σ}
    {b : Block} (fold : earlier.foldlM (Block.handOver finish) start = .ok done)
    (step : b.handOver finish done = .ok done') : (recordId? b.head).isSome = true ∧ b.Sound ordered earlier := by
  obtain ⟨r, read, taken⟩ := exists_of_bind step
  refine ⟨by rw [(Block.of_record_ok read).1]; rfl, ?_⟩
  by_contra unsound
  obtain ⟨cause, refused⟩ := judges.refuses fold read unsound
  rw [taken] at refused
  cases refused

/-- A line whose id can be read is not unreadable and has digits for its id. -/
theorem idDigits?_of_recordId? {line : String} (h : (recordId? line).isSome = true) :
    idDigits? line ≠ none ∧ ∀ before after, ¬ Unreadable before line after := by
  obtain ⟨n, own⟩ := Option.isSome_iff_exists.1 h
  obtain ⟨id, digits, read⟩ := Option.bind_eq_some_iff.1 own
  refine ⟨by rw [digits]; simp, fun before after bad => ?_⟩
  obtain ⟨-, id', e, digits', failed⟩ := unreadable_iff.1 bad
  rw [digits] at digits'
  cases digits'
  rw [failed] at read
  cases read

/-- A line that begins no record has no defect, unless it is text before all records. -/
theorem clean_of_continues {before after : List String} {line : String} (goesOn : startsRecord line = false)
    (blank : (∀ l ∈ before ++ [line], startsRecord l = false) → isBlankLine line = true) :
    ¬ Defect ordered before line after ∧ ¬ Unreadable before line after := by
  constructor
  · intro defect
    cases defect with
    | stray text first =>
      rw [blank first] at text
      cases text
    | id starts _ | body starts _ | order _ starts _ _ _ _ =>
      rw [goesOn] at starts
      cases starts
  · rintro ⟨starts, -⟩
    rw [goesOn] at starts
    cases starts

/-- The lines `upto`, which come before the lines `rest`, have no defect, and no id that cannot be read. -/
def Clean (ordered : Bool) (upto rest : List String) : Prop :=
  ∀ before line mid, upto = before ++ line :: mid →
    ¬ Defect ordered before line (mid ++ rest) ∧ ¬ Unreadable before line (mid ++ rest)

/-- Lines of blocks that have been handed over without an error are clean if the next line begins a record. -/
theorem Judges.clean_of_handOver (judges : Judges finish start ordered) {upto rest : List String} {done : σ}
    (fold : (blocks (upto.zipIdx 1)).foldlM (Block.handOver finish) start = .ok done)
    (blank : ∀ before line after, upto = before ++ line :: after →
      (∀ l ∈ before ++ [line], startsRecord l = false) → isBlankLine line = true)
    (next : ∀ l ∈ rest.head?, startsRecord l = true) : Clean ordered upto rest := by
  intro before line mid place
  cases starts : startsRecord line with
  | false => exact clean_of_continues starts (blank before line mid place)
  | true =>
    have ends : (mid ++ rest).takeWhile continues = mid.takeWhile continues := by
      cases rest with
      | nil => rw [List.append_nil]
      | cons l rest => exact takeWhile_append_cons (next l rfl)
    rw [place, blocks_append_cons starts] at fold
    obtain ⟨done, done', earlier, step, -⟩ := exists_of_foldlM_ok fold
    obtain ⟨readable, sound⟩ := judges.sound_of_handOver earlier step
    obtain ⟨digits, readable⟩ := idDigits?_of_recordId? readable
    rw [← ends] at sound
    exact ⟨not_defect_of_sound starts digits sound, readable _ _⟩

/-- A block whose record is refused, or cannot be opened, begins with a line that is at fault. -/
theorem Judges.fault_of_handOver (judges : Judges finish start ordered) {before after : List String} {line : String}
    {number : Nat} {done : σ} {e : ReadError} (starts : startsRecord line = true)
    (fold : (blocks (before.zipIdx 1)).foldlM (Block.handOver finish) start = .ok done)
    (failed : Block.handOver finish done ⟨number, line, after.takeWhile continues⟩ = .error e) :
    (∃ cause, e = formatError cause number) ∧ Defect ordered before line after ∧ ¬ Unreadable before line after ∨
      (∃ i, e = .integer i) ∧ Unreadable before line after := by
  rcases Block.record_cases ⟨number, line, after.takeWhile continues⟩ with
    ⟨r, read, own, -⟩ | ⟨digits, cause, bad⟩ | ⟨id, i, digits, unread, bad⟩
  · have unsound : ¬ Block.Sound ordered (blocks (before.zipIdx 1)) ⟨number, line, after.takeWhile continues⟩ := by
      intro sound
      obtain ⟨done', taken⟩ := judges.accepts fold read sound
      rw [Block.handOver, bind_eq read, taken] at failed
      cases failed
    obtain ⟨cause, refused⟩ := judges.refuses fold read unsound
    rw [Block.handOver, bind_eq read, refused] at failed
    cases failed
    have own : (recordId? line).isSome = true := by rw [own]; rfl
    refine .inl ⟨⟨cause, rfl⟩, ?_, (idDigits?_of_recordId? own).2 _ _⟩
    by_contra sound
    exact unsound (sound_of_not_defect starts sound)
  · rw [Block.handOver, bad] at failed
    cases failed
    refine .inl ⟨⟨cause, rfl⟩, .id starts (idDigits?_eq_none_iff.1 digits), fun bad => ?_⟩
    obtain ⟨-, id, i, digits', -⟩ := unreadable_iff.1 bad
    rw [digits] at digits'
    cases digits'
  · rw [Block.handOver, bad] at failed
    cases failed
    exact .inr ⟨⟨i, rfl⟩, unreadable_iff.2 ⟨starts, id, i, digits, unread⟩⟩

/-! ### The first line at which reading ends -/

/-- What holds at the lines before a place holds of all lines with smaller numbers. -/
theorem not_atLine_of_lt {P : List String → String → List String → Prop} {text : String} {upto rest : List String}
    (split : lines text = upto ++ rest)
    (h : ∀ before line mid, upto = before ++ line :: mid → ¬ P before line (mid ++ rest)) {number : Nat}
    (lt : number < upto.length + 1) : ¬ AtLine P text number := by
  rintro ⟨before, line, after, place, rfl, holds⟩
  rw [split] at place
  rcases List.append_eq_append_iff.1 place with ⟨mid, rfl, -⟩ | ⟨mid, rfl, tail⟩
  · simp only [List.length_append] at lt
    omega
  · cases mid with
    | nil => simp at lt
    | cons l mid =>
      rw [List.cons_append] at tail
      obtain ⟨rfl, rfl⟩ := List.cons.inj tail
      exact h before line mid rfl holds

/-- Where the lines of a text up to a place are clean, no line with a smaller number is at fault. -/
theorem Clean.not_atLine {text : String} {upto rest : List String} (clean : Clean ordered upto rest)
    (split : lines text = upto ++ rest) {number : Nat} (lt : number < upto.length + 1) :
    ¬ AtLine (Defect ordered) text number ∧ ¬ AtLine Unreadable text number :=
  ⟨not_atLine_of_lt split (fun _ _ _ place => (clean _ _ _ place).1) lt,
    not_atLine_of_lt split (fun _ _ _ place => (clean _ _ _ place).2) lt⟩

/-- There is one line with each number. -/
theorem atLine_iff {P : List String → String → List String → Prop} {text line : String} {before after : List String}
    (place : lines text = before ++ line :: after) : AtLine P text (before.length + 1) ↔ P before line after := by
  constructor
  · rintro ⟨before', line', after', place', number, holds⟩
    rw [place] at place'
    obtain ⟨rfl, same⟩ := List.append_inj place' (by omega)
    obtain ⟨rfl, rfl⟩ := List.cons.inj same
    exact holds
  · intro holds
    exact ⟨before, line, after, place, rfl, holds⟩

/-- No text has a line with a number beyond its last one. -/
theorem not_atLine_of_length_lt {P : List String → String → List String → Prop} {text : String} {number : Nat}
    (lt : (lines text).length < number) : ¬ AtLine P text number := by
  rintro ⟨before, line, after, place, rfl, -⟩
  rw [place, List.length_append, List.length_cons] at lt
  omega

/-- A file that is read to its end has no defective line and none with an id that is no integer. -/
theorem Judges.clean (judges : Judges finish start ordered) {text : String} {done : σ}
    (h : readRecords finish start text = .ok done) :
    (blocks (numberedLines text)).foldlM (Block.handOver finish) start = .ok done ∧
      ∀ n, ¬ AtLine (Defect ordered) text n ∧ ¬ AtLine Unreadable text n := by
  rw [readRecords_eq] at h
  cases stray : stray? (numberedLines text) with
  | some l =>
    rw [stray] at h
    cases h
  | none =>
    rw [stray] at h
    have blank : ∀ before line after, lines text = before ++ line :: after →
        (∀ l ∈ before ++ [line], startsRecord l = false) → isBlankLine line = true := by
      intro before line after place first
      rw [numberedLines, place] at stray
      exact blank_of_stray_none stray first
    have clean : Clean ordered (lines text) [] := judges.clean_of_handOver h blank (by rintro _ ⟨⟩)
    refine ⟨h, fun n => ?_⟩
    rcases Nat.lt_or_ge n ((lines text).length + 1) with lt | gt
    · exact clean.not_atLine (List.append_nil _).symm lt
    · exact ⟨not_atLine_of_length_lt gt, not_atLine_of_length_lt gt⟩

/-- A file that cannot be read ends the reading at its first line that is defective or whose id is no integer. -/
theorem Judges.halts (judges : Judges finish start ordered) {text : String} {e : ReadError}
    (h : readRecords finish start text = .error e) :
    ∃ n, (∀ m < n, ¬ AtLine (Defect ordered) text m ∧ ¬ AtLine Unreadable text m) ∧
      ((∃ cause, e = formatError cause n) ∧ AtLine (Defect ordered) text n ∧ ¬ AtLine Unreadable text n ∨
        (∃ i, e = .integer i) ∧ AtLine Unreadable text n) := by
  rw [readRecords_eq] at h
  cases stray : stray? (numberedLines text) with
  | some l =>
    rw [stray] at h
    cases h
    obtain ⟨before, after, place, number, solid, blank, first⟩ := place_of_stray stray
    have goesOn : startsRecord l.1 = false := first l.1 (by simp)
    have clean : Clean ordered before (l.1 :: after) := by
      rintro before' line mid rfl
      exact clean_of_continues (first line (by simp)) fun _ => blank line (by simp)
    rw [Nat.add_comm] at number
    refine ⟨before.length + 1, fun m lt => clean.not_atLine place lt, ?_⟩
    rw [atLine_iff place, atLine_iff place]
    refine .inl ⟨⟨_, by rw [strayError, number]⟩, .stray solid first, ?_⟩
    rintro ⟨starts, -⟩
    rw [goesOn] at starts
    cases starts
  | none =>
    rw [stray] at h
    obtain ⟨earlier, ⟨number, head, tail⟩, later, done, split, fold, failed⟩ := exists_of_foldlM_error h
    obtain ⟨before, after, place, starts, rfl, rfl, rfl⟩ := exists_place_of_blocks split
    have blank : ∀ before' line mid, before = before' ++ line :: mid →
        (∀ l ∈ before' ++ [line], startsRecord l = false) → isBlankLine line = true := by
      rintro before' line mid rfl first
      rw [numberedLines, place, List.append_assoc] at stray
      exact blank_of_stray_none stray first
    have clean : Clean ordered before (head :: after) :=
      judges.clean_of_handOver fold blank (by rintro _ ⟨⟩; exact starts)
    rw [Nat.add_comm] at failed
    refine ⟨before.length + 1, fun m lt => clean.not_atLine place lt, ?_⟩
    rw [atLine_iff place, atLine_iff place]
    exact judges.fault_of_handOver starts fold failed

end Reading

end Retrieval.Corpus
