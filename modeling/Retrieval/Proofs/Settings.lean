import Mathlib
import Retrieval.Settings

/-!
# Version texts

Reading a version looks at the six characters at its end, before a newline if there is one, and at nothing in front of
them (`Spells`, `ofVersion?_eq_some_iff`). The version of the settings that are read is the text they were read from
exactly if that text starts with the name of the format, has no more characters than it needs, and all of them are of
ASCII (`version_eq_iff`); there are accepted texts that fail in each of these points (`ofVersion_of_other_texts`).
-/

set_option autoImplicit false

namespace Retrieval

/-! ### Numbers and letters of modes -/

theorem AggregateMode.ofNumber?_eq_some_iff {n : Nat} {mode : AggregateMode} :
    ofNumber? n = some mode ↔ n = mode.number := by
  constructor
  · intro found
    rw [ofNumber?] at found
    have same := List.find?_some found
    exact (of_decide_eq_true same).symm
  · rintro rfl
    cases mode <;> rfl

theorem Compression.ofNumber?_eq_some_iff {n : Nat} {compression : Compression} :
    ofNumber? n = some compression ↔ n = compression.number := by
  constructor
  · intro found
    rw [ofNumber?] at found
    have same := List.find?_some found
    exact (of_decide_eq_true same).symm
  · rintro rfl
    cases compression <;> rfl

theorem QueryMode.ofLetter?_eq_some_iff {c : Char} {mode : QueryMode} : ofLetter? c = some mode ↔ c = mode.letter := by
  constructor
  · intro found
    rw [ofLetter?] at found
    have same := List.find?_some found
    exact (of_decide_eq_true same).symm
  · rintro rfl
    cases mode <;> rfl

/-- No mode has a newline for its letter. -/
theorem QueryMode.letter_ne_newline (mode : QueryMode) : mode.letter ≠ '\n' := by
  cases mode <;> decide

namespace Settings

/-! ### What is read -/

/-- The settings with the given modes and the defaults for all else. -/
def ofModes (mode : AggregateMode) (compression : Compression) (queryMode : QueryMode) : Settings :=
  { aggregateMode := mode, compression, queryMode }

/-- Whether a text spells out settings: it ends in `v1.`, a digit of any script for each of two modes, the letter of the
third, and perhaps a newline. Any characters may come before, and all but the modes are the defaults. -/
def Spells (text : String) (s : Settings) : Prop :=
  ∃ (front ending : List Char) (first second : Char),
    text.toList = front ++ 'v' :: '1' :: '.' :: first :: second :: s.queryMode.letter :: ending ∧
    (ending = [] ∨ ending = ['\n']) ∧ Text.decimalValue? first = some s.aggregateMode.number ∧
    Text.decimalValue? second = some s.compression.number ∧ s = ofModes s.aggregateMode s.compression s.queryMode

theorem Spells.eq_ofModes {text : String} {s : Settings} (h : Spells text s) :
    s = ofModes s.aggregateMode s.compression s.queryMode := by
  obtain ⟨_, _, _, _, -, -, -, -, modes⟩ := h
  exact modes

theorem exists_ending (cs : List Char) :
    ∃ ending, (ending = [] ∨ ending = ['\n']) ∧ cs = withoutFinalNewline cs ++ ending := by
  rw [withoutFinalNewline]
  split
  · rename_i last
    exact ⟨['\n'], .inr rfl, (List.dropLast_append_getLast? _ last).symm⟩
  · exact ⟨[], .inl rfl, (List.append_nil cs).symm⟩

theorem withoutFinalNewline_append {c : Char} (h : c ≠ '\n') (front : List Char) {ending : List Char}
    (newline : ending = [] ∨ ending = ['\n']) : withoutFinalNewline (front ++ [c] ++ ending) = front ++ [c] := by
  rw [withoutFinalNewline]
  rcases newline with rfl | rfl
  · rw [List.append_nil, if_neg (by simpa using h)]
  · rw [if_pos List.getLast?_concat, List.dropLast_concat]

/-- What is left of a text that spells out settings without a newline at its end. -/
theorem Spells.exists_front {text : String} {s : Settings} (h : Spells text s) :
    ∃ (front : List Char) (first second : Char),
      withoutFinalNewline text.toList = front ++ ['v', '1', '.', first, second] ++ [s.queryMode.letter] ∧
        Text.decimalValue? first = some s.aggregateMode.number ∧
        Text.decimalValue? second = some s.compression.number := by
  obtain ⟨front, ending, first, second, whole, newline, value, value', -⟩ := h
  refine ⟨front, first, second, ?_, value, value'⟩
  rw [← withoutFinalNewline_append s.queryMode.letter_ne_newline _ newline, whole]
  simp

/-- A text is read as settings exactly if it spells them out. -/
theorem ofVersion?_eq_some_iff {text : String} {s : Settings} : ofVersion? text = some s ↔ Spells text s := by
  constructor
  · intro read
    obtain ⟨ending, newline, whole⟩ := exists_ending text.toList
    rw [ofVersion?] at read
    split at read
    case h_1 letter second first more shape =>
      simp only [Option.bind_eq_bind, Option.bind_eq_some_iff, Option.pure_def, Option.some.injEq] at read
      obtain ⟨m, value, mode, named, n, value', compression, named', queryMode, lettered, rfl⟩ := read
      rw [AggregateMode.ofNumber?_eq_some_iff] at named
      rw [Compression.ofNumber?_eq_some_iff] at named'
      rw [QueryMode.ofLetter?_eq_some_iff] at lettered
      subst named named' lettered
      rw [List.reverse_eq_iff] at shape
      refine ⟨more.reverse, ending, first, second, ?_, newline, value, value', rfl⟩
      rw [whole, shape]
      simp
    case h_2 => cases read
  · intro h
    obtain ⟨front, first, second, whole, value, value'⟩ := h.exists_front
    have shape : (withoutFinalNewline text.toList).reverse =
        s.queryMode.letter :: second :: first :: '.' :: '1' :: 'v' :: front.reverse := by
      rw [whole]
      simp
    rw [ofVersion?, shape]
    simp only [Option.bind_eq_bind, Option.bind_eq_some_iff, Option.pure_def, Option.some.injEq]
    exact ⟨_, value, _, AggregateMode.ofNumber?_eq_some_iff.2 rfl, _, value', _,
      Compression.ofNumber?_eq_some_iff.2 rfl, _, QueryMode.ofLetter?_eq_some_iff.2 rfl, h.eq_ofModes.symm⟩

/-- A version says nothing but the modes. -/
theorem eq_ofModes_of_ofVersion? {text : String} {s : Settings} (read : ofVersion? text = some s) :
    s = ofModes s.aggregateMode s.compression s.queryMode :=
  (ofVersion?_eq_some_iff.1 read).eq_ofModes

/-- The letter at the end of a version is that of its query mode. -/
theorem letter_of_ofVersion? {text : String} {s : Settings} (read : ofVersion? text = some s) :
    (withoutFinalNewline text.toList).getLast? = some s.queryMode.letter := by
  obtain ⟨front, first, second, whole, -⟩ := (ofVersion?_eq_some_iff.1 read).exists_front
  rw [whole, List.getLast?_concat]

/-! ### What is written -/

/-- The text of a version: the name of the format, two digits of ASCII and a letter. -/
theorem toList_version (s : Settings) :
    s.version.toList = versionStart.toList ++
      [Nat.digitChar s.aggregateMode.number, Nat.digitChar s.compression.number, s.queryMode.letter] := by
  rw [version]
  generalize s.aggregateMode = mode, s.compression = compression, s.queryMode = queryMode
  cases mode <;> cases compression <;> cases queryMode <;> decide

theorem number_lt (s : Settings) : s.aggregateMode.number < 10 ∧ s.compression.number < 10 := by
  generalize s.aggregateMode = mode, s.compression = compression
  cases mode <;> cases compression <;> decide

theorem ascii_version (s : Settings) : ∀ c ∈ s.version.toList, c.toNat < 128 := by
  obtain ⟨small, small'⟩ := s.number_lt
  rw [toList_version]
  refine List.forall_mem_append.2 ⟨by simp [versionStart], List.forall_mem_cons.2 ⟨?_, List.forall_mem_cons.2
    ⟨?_, List.forall_mem_singleton.2 ?_⟩⟩⟩
  · rw [Nat.toNat_digitChar_of_lt_ten small]
    omega
  · rw [Nat.toNat_digitChar_of_lt_ten small']
    omega
  · cases s.queryMode <;> decide

theorem decimalValue?_digitChar {n : Nat} (h : n < 10) : Text.decimalValue? (Nat.digitChar n) = some n := by
  interval_cases n <;> decide

/-- A digit of ASCII is the one with its value. -/
theorem eq_digitChar {c : Char} {n : Nat} (ascii : c.toNat < 128) (value : Text.decimalValue? c = some n) :
    c = Nat.digitChar n := by
  rw [Text.decimalValue?, if_pos ascii] at value
  split at value
  · rename_i digit
    cases value
    rw [Bool.and_eq_true, decide_eq_true_iff, decide_eq_true_iff] at digit
    apply Char.toNat_inj.1
    rw [Nat.toNat_digitChar_of_lt_ten (by omega)]
    omega
  · cases value

/-- What is written for modes is read as these modes. -/
theorem spells_version (s : Settings) : Spells s.version (ofModes s.aggregateMode s.compression s.queryMode) := by
  have start : versionStart.toList = "CranIndex-".toList ++ ['v', '1', '.'] := by decide
  refine ⟨"CranIndex-".toList, [], Nat.digitChar s.aggregateMode.number, Nat.digitChar s.compression.number, ?_,
    .inl rfl, decimalValue?_digitChar s.number_lt.1, decimalValue?_digitChar s.number_lt.2, rfl⟩
  rw [toList_version, start, List.append_assoc]
  rfl

/-- A text that is read as settings is the one that is written for them exactly if it starts with the name of the
format, is no longer than it has to be, and has characters of ASCII only. -/
theorem version_eq_iff {text : String} {s : Settings} (h : Spells text s) :
    s.version = text ↔
      versionStart.toList <+: text.toList ∧ text.length = 16 ∧ ∀ c ∈ text.toList, c.toNat < 128 := by
  constructor
  · rintro rfl
    refine ⟨?_, ?_, ascii_version s⟩
    · rw [toList_version]
      exact List.prefix_append ..
    · rw [← String.length_toList, toList_version, List.length_append]
      rfl
  · rintro ⟨⟨after, start⟩, length, ascii⟩
    obtain ⟨front, ending, first, second, whole, newline, value, value', -⟩ := h
    rw [← String.length_toList] at length
    have places : versionStart.toList.length = 13 := rfl
    rcases newline with rfl | rfl
    · -- without a newline, the name of the format ends where the digits begin
      have parts : versionStart.toList ++ after =
          (front ++ ['v', '1', '.']) ++ [first, second, s.queryMode.letter] := by
        rw [start, whole]
        simp
      have same : versionStart.toList.length = (front ++ ['v', '1', '.']).length := by
        rw [whole] at length
        simp only [List.length_append, List.length_cons, List.length_nil] at length ⊢
        omega
      obtain ⟨-, rfl⟩ := List.append_inj parts same
      have first_eq := eq_digitChar (ascii first (by rw [whole]; simp)) value
      have second_eq := eq_digitChar (ascii second (by rw [whole]; simp)) value'
      apply String.toList_injective
      rw [toList_version, ← start, first_eq, second_eq]
    · -- with a newline, it would end in a digit
      have parts : versionStart.toList ++ after =
          (front ++ ['v', '1', '.', first]) ++ [second, s.queryMode.letter, '\n'] := by
        rw [start, whole]
        simp
      have same : versionStart.toList.length = (front ++ ['v', '1', '.', first]).length := by
        rw [whole] at length
        simp only [List.length_append, List.length_cons, List.length_nil] at length ⊢
        omega
      obtain ⟨named, -⟩ := List.append_inj parts same
      have last := congrArg List.getLast? named
      rw [List.getLast?_append_of_ne_nil _ (by simp)] at last
      have point : '.' = first := Option.some.inj last
      rw [← point] at value
      cases value

/-! ### Which versions are accepted -/

theorem ofVersion_eq_ok_iff {text : String} {s : Settings} : ofVersion text = .ok s ↔ Spells text s := by
  rw [← ofVersion?_eq_some_iff, ofVersion]
  cases ofVersion? text <;> simp

/-- **Versions are read from the end.** A text is accepted exactly if it spells out settings at its end, and these are
the result; any other text is refused as invalid. The version of the result is the text itself exactly if the text
starts with the name of the format, has sixteen characters, and all of them are of ASCII. What is written for any
settings is accepted, and stands for their modes with the defaults for all else. -/
theorem ofVersion_iff (text : String) :
    (∀ s, ofVersion text = .ok s ↔ Spells text s) ∧
    ((∃ s, Spells text s) ∨ ofVersion text = .error (.invalidVersion text)) ∧
    (∀ s, Spells text s → (s.version = text ↔
      versionStart.toList <+: text.toList ∧ text.length = 16 ∧ ∀ c ∈ text.toList, c.toNat < 128)) ∧
    ∀ s : Settings, s.version = text → ofVersion text = .ok (ofModes s.aggregateMode s.compression s.queryMode) := by
  refine ⟨fun s => ofVersion_eq_ok_iff, ?_, fun s => version_eq_iff, ?_⟩
  · cases read : ofVersion? text with
    | none =>
      right
      rw [ofVersion, read]
      rfl
    | some s =>
      left
      exact ⟨s, ofVersion?_eq_some_iff.1 read⟩
  · rintro s rfl
    exact ofVersion_eq_ok_iff.2 (spells_version s)

/-- A text with a newline at its end is accepted, and is longer than the version of the settings. -/
theorem ofVersion_iff_of_newline :
    Spells "CranIndex-v1.21B\n" (ofModes .documents .none .boolean) ∧
      (ofModes .documents .none .boolean).version ≠ "CranIndex-v1.21B\n" := by
  have spelled : Spells "CranIndex-v1.21B\n" (ofModes .documents .none .boolean) :=
    ⟨"CranIndex-".toList, ['\n'], '2', '1', by decide, .inr rfl, rfl, rfl, rfl⟩
  refine ⟨spelled, fun same => ?_⟩
  obtain ⟨-, length, -⟩ := ((ofVersion_iff _).2.2.1 _ spelled).1 same
  exact absurd length (by decide)

/-- Four texts that no settings have for their version are accepted as one that does: without the name of the format,
after other characters, before a newline, and with digits of other scripts. -/
theorem ofVersion_of_other_texts :
    let texts := ["v1.21B", "SelfIndex-v1.21B", "CranIndex-v1.21B\n", "CranIndex-v1.２１B"]
    texts.map ofVersion = List.replicate 4 (.ok (ofModes .documents .none .boolean)) ∧
      (ofModes .documents .none .boolean).version = "CranIndex-v1.21B" ∧ "CranIndex-v1.21B" ∉ texts :=
  ⟨rfl, by decide, by decide⟩

end Settings
end Retrieval
