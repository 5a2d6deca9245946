import Retrieval.Json.Reader
import Retrieval.Proofs.Json.Text
import Retrieval.Proofs.Json.Within
import Retrieval.Proofs.Steps
import Retrieval.Proofs.Table

/-!
# JSON texts read back

`written` are the tokens of a value. Its text is cut into them (`lexes_print`), whatever ends the text or goes on after
it, and reading them closes the value (`reads_written`), if the keys of each object in it are distinct and its integers
are not too long to be read. So reading inverts printing (`read_print`).
-/

set_option autoImplicit false

namespace Retrieval.Json

namespace Value

mutual

/-- The tokens of a value. -/
def written : Value → List Token
  | .null => [.null]
  | .bool b => [.bool b]
  | .integer n => [.integer (toString n)]
  | .real x => [.real x]
  | .string s => [.string s]
  | .list items => .leftBracket :: [Token.comma].intercalate (writtenItems items) ++ [.rightBracket]
  | .object members => .leftBrace :: [Token.comma].intercalate (writtenMembers members) ++ [.rightBrace]

/-- The tokens of the items of a list. -/
def writtenItems : List Value → List (List Token)
  | [] => []
  | v :: rest => written v :: writtenItems rest

/-- The tokens of the members of an object. -/
def writtenMembers : List (String × Value) → List (List Token)
  | [] => []
  | (key, v) :: rest => (.string key :: .colon :: written v) :: writtenMembers rest

end

end Value

open Value

/-! ### Texts cut into tokens -/

/-- Whether a text is cut into tokens, before all that may follow a value. -/
def Lexes (text : String) (ts : List Token) : Prop :=
  ∀ rest, Ends rest → tokens (text.toList ++ rest) = ts ++ tokens rest

theorem ends_cons {c : Char} (h : c = ',' ∨ c = ']' ∨ c = '}') (rest : List Char) : Ends (c :: rest) := by
  rintro d cs e
  cases e
  exact h

/-- A mark is a token of its own. -/
theorem tokens_mark {c : Char} {t : Token} (mark : mark? c = some t) (rest : List Char) :
    tokens (c :: rest) = t :: tokens rest := by
  have scan : isSpace c = false ∧ scanToken c rest = (t, 0) := by
    unfold mark? at mark
    split_ifs at mark
    all_goals
      subst_vars
      cases mark
      exact ⟨rfl, rfl⟩
  show tokens (c :: ([] ++ rest)) = _
  exact tokens_cons scan.1 scan.2

theorem tokens_blank (rest : List Char) : tokens (' ' :: rest) = tokens rest := by
  rw [tokens]
  rfl

/-- A word is one token, whatever follows. -/
theorem lexes_word {word : String} {t : Token} (h : (word, t) ∈ [("null", Token.null), ("true", .bool true),
    ("false", .bool false)]) : Lexes word [t] := by
  intro rest _
  simp only [List.mem_cons, List.not_mem_nil, or_false, Prod.mk.injEq] at h
  rcases h with ⟨rfl, rfl⟩ | ⟨rfl, rfl⟩ | ⟨rfl, rfl⟩
  · show tokens ('n' :: (['u', 'l', 'l'] ++ rest)) = _
    apply tokens_cons (by decide)
    simp [scanToken, scanWord, wordTokens, mark?, isAsciiDigit, ← String.length_toList]
  · show tokens ('t' :: (['r', 'u', 'e'] ++ rest)) = _
    apply tokens_cons (by decide)
    simp [scanToken, scanWord, wordTokens, mark?, isAsciiDigit, ← String.length_toList]
  · show tokens ('f' :: (['a', 'l', 's', 'e'] ++ rest)) = _
    apply tokens_cons (by decide)
    simp [scanToken, scanWord, wordTokens, mark?, isAsciiDigit, ← String.length_toList]

theorem intercalate_comma (ts us : List Token) (tss : List (List Token)) :
    [Token.comma].intercalate (ts :: us :: tss) = ts ++ .comma :: [Token.comma].intercalate (us :: tss) := by
  simp [List.intercalate]

/-- Texts with commas between them are cut into their tokens with commas between them. -/
theorem lexes_commaSeparated {texts : List String} {tss : List (List Token)} (h : List.Forall₂ Lexes texts tss) :
    Lexes (commaSeparated texts) ([Token.comma].intercalate tss) := by
  induction h with
  | nil =>
    intro rest _
    rfl
  | @cons text ts texts tss first others ih =>
    cases others with
    | nil => simpa [commaSeparated, List.intercalate] using first
    | @cons text' ts' texts tss second others =>
      intro rest ends
      have shape : (commaSeparated (text :: text' :: texts)).toList ++ rest =
          text.toList ++ ',' :: ' ' :: ((commaSeparated (text' :: texts)).toList ++ rest) := by
        simp [commaSeparated]
      rw [shape, first _ (ends_cons (.inl rfl) _), tokens_mark rfl, tokens_blank, ih rest ends, intercalate_comma]
      simp

theorem lexes_bracketed {texts : List String} {tss : List (List Token)} (h : List.Forall₂ Lexes texts tss) :
    Lexes (bracketed texts) (.leftBracket :: [Token.comma].intercalate tss ++ [.rightBracket]) := by
  intro rest _
  have shape : (bracketed texts).toList ++ rest = '[' :: ((commaSeparated texts).toList ++ ']' :: rest) := by
    simp [bracketed]
  rw [shape, tokens_mark rfl, lexes_commaSeparated h _ (ends_cons (.inr (.inl rfl)) _), tokens_mark rfl]
  simp

theorem lexes_braced {texts : List String} {tss : List (List Token)} (h : List.Forall₂ Lexes texts tss) :
    Lexes (braced texts) (.leftBrace :: [Token.comma].intercalate tss ++ [.rightBrace]) := by
  intro rest _
  have shape : (braced texts).toList ++ rest = '{' :: ((commaSeparated texts).toList ++ '}' :: rest) := by
    simp [braced]
  rw [shape, tokens_mark rfl, lexes_commaSeparated h _ (ends_cons (.inr (.inr rfl)) _), tokens_mark rfl]
  simp

/-- A member is cut into its key, a colon and the tokens of its value. -/
theorem lexes_member (key : String) {text : String} {ts : List Token} (h : Lexes text ts) :
    Lexes (stringText key ++ ": " ++ text) (.string key :: .colon :: ts) := by
  intro rest ends
  have shape : (stringText key ++ ": " ++ text).toList ++ rest =
      (stringText key).toList ++ ':' :: ' ' :: (text.toList ++ rest) := by
    simp
  rw [shape, tokens_string, tokens_mark rfl, tokens_blank, h rest ends]
  rfl

mutual

/-- The text of a value is cut into its tokens. -/
theorem lexes_print : ∀ v : Value, Lexes v.print v.written
  | .null => show Lexes "null" _ from lexes_word (by simp)
  | .bool true => show Lexes "true" _ from lexes_word (by simp)
  | .bool false => show Lexes "false" _ from lexes_word (by simp)
  | .integer n => fun _ ends => tokens_integer n ends
  | .real x => fun _ ends => tokens_real x ends
  | .string s => fun rest _ => tokens_string s rest
  | .list items => lexes_bracketed (lexes_printItems items)
  | .object members => lexes_braced (lexes_printMembers members)

theorem lexes_printItems : ∀ items : List Value, List.Forall₂ Lexes (printItems items) (writtenItems items)
  | [] => .nil
  | v :: rest => .cons (lexes_print v) (lexes_printItems rest)

theorem lexes_printMembers :
    ∀ members : List (String × Value), List.Forall₂ Lexes (printMembers members) (writtenMembers members)
  | [] => .nil
  | (key, v) :: rest => .cons (lexes_member key (lexes_print v)) (lexes_printMembers rest)

end

/-! ### Tokens read as values -/

/-- Whether reading tokens where a value may come closes a value. -/
def Reads (ts : List Token) (v : Value) : Prop :=
  ∀ frames more, (ts ++ more).foldlM State.step ⟨frames, .value⟩ = more.foldlM State.step (State.close v frames)

/-- A list is read item by item, the last first. -/
theorem reads_items {items : List Value} {tss : List (List Token)} (h : List.Forall₂ Reads tss items)
    (some_item : items ≠ []) (acc : List Value) (frames : List Frame) (more : List Token) :
    ([Token.comma].intercalate tss ++ more).foldlM State.step ⟨.list acc :: frames, .value⟩ =
      more.foldlM State.step ⟨.list (items.reverse ++ acc) :: frames, .afterValue⟩ := by
  induction h generalizing acc with
  | nil => exact absurd rfl some_item
  | @cons ts v tss items first others ih =>
    cases others with
    | nil =>
      rw [List.intercalate_singleton, first]
      rfl
    | @cons ts' v' tss items second others =>
      rw [intercalate_comma, List.append_assoc, first, List.cons_append, List.foldlM_cons]
      show (([Token.comma].intercalate (ts' :: tss)) ++ more).foldlM State.step ⟨.list (v :: acc) :: frames, .value⟩ = _
      rw [ih (by simp)]
      simp

/-- The first token of a value does not end a list. -/
theorem firstItem_eq (v : Value) (frames : List Frame) (more : List Token) :
    (v.written ++ more).foldlM State.step ⟨frames, .firstItem⟩ =
      (v.written ++ more).foldlM State.step ⟨frames, .value⟩ := by
  cases v <;> rfl

theorem reads_list {items : List Value} (h : List.Forall₂ Reads (writtenItems items) items) :
    Reads (Value.list items).written (.list items) := by
  intro frames more
  have shape : (Value.list items).written ++ more =
      .leftBracket :: ([Token.comma].intercalate (writtenItems items) ++ .rightBracket :: more) := by
    simp [written]
  rw [shape, List.foldlM_cons]
  show ([Token.comma].intercalate (writtenItems items) ++ .rightBracket :: more).foldlM State.step
    ⟨.list [] :: frames, .firstItem⟩ = _
  cases items with
  | nil => rfl
  | cons v items =>
    have start : ∃ us, [Token.comma].intercalate (writtenItems (v :: items)) = v.written ++ us := by
      cases items with
      | nil => exact ⟨[], by simp [writtenItems]⟩
      | cons w items => exact ⟨_, intercalate_comma ..⟩
    obtain ⟨us, start⟩ := start
    have ended := reads_items h (by simp) [] frames (.rightBracket :: more)
    rw [start, List.append_assoc] at ended ⊢
    rw [firstItem_eq, ended, List.append_nil, List.foldlM_cons]
    show more.foldlM State.step (State.close (.list (v :: items).reverse.reverse) frames) = _
    rw [List.reverse_reverse]

/-- Members are put into an object as values are put into a table. -/
theorem insertMember_eq (key : String) (v : Value) (members : List (String × Value)) :
    insertMember key v members = Table.alterList key (fun _ => v) members := by
  induction members with
  | nil => rfl
  | cons p members ih =>
    obtain ⟨k, w⟩ := p
    rw [insertMember, Table.alterList, ih]

/-- An object is read member by member, its keys being distinct. -/
theorem reads_members {members : List (String × Value)} {tss : List (List Token)}
    (h : List.Forall₂ (fun ts p => ∃ us, ts = .string p.1 :: .colon :: us ∧ Reads us p.2) tss members)
    (some_member : members ≠ []) (acc : List (String × Value))
    (distinct : ((acc ++ members).map Prod.fst).Nodup) (last : String) (frames : List Frame) (more : List Token) :
    ∃ key, ([Token.comma].intercalate tss ++ more).foldlM State.step ⟨.object acc last :: frames, .key⟩ =
      more.foldlM State.step ⟨.object (acc ++ members) key :: frames, .afterValue⟩ := by
  induction h generalizing acc last with
  | nil => exact absurd rfl some_member
  | @cons ts p tss members first others ih =>
    obtain ⟨us, rfl, reads⟩ := first
    have fresh : p.1 ∉ acc.map Prod.fst := by
      intro mem
      rw [List.map_append, List.map_cons, List.nodup_append] at distinct
      exact distinct.2.2 p.1 mem p.1 (List.mem_cons_self ..) rfl
    have closed : State.close p.2 (.object acc p.1 :: frames) = ⟨.object (acc ++ [p]) p.1 :: frames, .afterValue⟩ := by
      show (⟨.object (insertMember p.1 p.2 acc) p.1 :: frames, .afterValue⟩ : State) = _
      rw [insertMember_eq, Table.alterList_of_not_mem fresh]
    cases others with
    | nil =>
      refine ⟨p.1, ?_⟩
      rw [List.intercalate_singleton]
      show (us ++ more).foldlM State.step ⟨.object acc p.1 :: frames, .value⟩ = _
      rw [reads, closed]
    | @cons ts' p' tss members second others =>
      obtain ⟨key, rest⟩ := ih (by simp) (acc ++ [p]) (by simpa using distinct) p.1
      refine ⟨key, ?_⟩
      rw [intercalate_comma, List.append_assoc]
      show (us ++ (.comma :: [Token.comma].intercalate (ts' :: tss) ++ more)).foldlM State.step
        ⟨.object acc p.1 :: frames, .value⟩ = _
      rw [reads, closed]
      show ([Token.comma].intercalate (ts' :: tss) ++ more).foldlM State.step
        ⟨.object (acc ++ [p]) p.1 :: frames, .key⟩ = _
      rw [rest]
      simp

theorem reads_object {members : List (String × Value)} (distinct : (members.map Prod.fst).Nodup)
    (h : List.Forall₂ (fun ts p => ∃ us, ts = .string p.1 :: .colon :: us ∧ Reads us p.2) (writtenMembers members)
      members) : Reads (Value.object members).written (.object members) := by
  intro frames more
  have shape : (Value.object members).written ++ more =
      .leftBrace :: ([Token.comma].intercalate (writtenMembers members) ++ .rightBrace :: more) := by
    simp [written]
  rw [shape, List.foldlM_cons]
  show ([Token.comma].intercalate (writtenMembers members) ++ .rightBrace :: more).foldlM State.step
    ⟨.object [] "" :: frames, .firstKey⟩ = _
  cases members with
  | nil => rfl
  | cons p members =>
    obtain ⟨k, v⟩ := p
    have start : ∃ us, [Token.comma].intercalate (writtenMembers ((k, v) :: members)) = .string k :: us := by
      cases members with
      | nil => exact ⟨_, List.intercalate_singleton⟩
      | cons q members => exact ⟨_, intercalate_comma ..⟩
    obtain ⟨us, start⟩ := start
    obtain ⟨key, ended⟩ := reads_members h (by simp) [] distinct "" frames (.rightBrace :: more)
    rw [start] at ended ⊢
    show (us ++ .rightBrace :: more).foldlM State.step ⟨.object [] k :: frames, .colon⟩ = _
    have ended : (us ++ .rightBrace :: more).foldlM State.step ⟨.object [] k :: frames, .colon⟩ = _ := ended
    rw [ended]
    rfl

mutual

/-- The tokens of a value are read as the value. -/
theorem reads_written : ∀ v : Value, v.Readable → Reads v.written v
  | .null, _ => fun _ _ => rfl
  | .bool _, _ => fun _ _ => rfl
  | .real _, _ => fun _ _ => rfl
  | .string _, _ => fun _ _ => rfl
  | .integer n, h => by
    intro frames more
    have short : Numeral.Short n := (short_atom_iff rfl).1 h.short
    have read := Numeral.readInteger_toString short
    show (State.readValue frames (.integer (toString n)) >>= fun s => more.foldlM State.step s) = _
    rw [State.readValue, read]
    rfl
  | .list items, h => reads_list (reads_writtenItems items (readable_list_iff.1 h))
  | .object members, h => reads_object (readable_object_iff.1 h).1
      (reads_writtenMembers members (readable_object_iff.1 h).2)

theorem reads_writtenItems :
    ∀ items : List Value, (∀ v ∈ items, v.Readable) → List.Forall₂ Reads (writtenItems items) items
  | [], _ => .nil
  | v :: rest, h =>
    .cons (reads_written v (h v (List.mem_cons_self ..)))
      (reads_writtenItems rest fun w mem => h w (List.mem_cons_of_mem v mem))

theorem reads_writtenMembers : ∀ members : List (String × Value), (∀ p ∈ members, p.2.Readable) →
    List.Forall₂ (fun ts p => ∃ us, ts = Token.string p.1 :: .colon :: us ∧ Reads us p.2) (writtenMembers members)
      members
  | [], _ => .nil
  | (key, v) :: rest, h =>
    .cons ⟨v.written, rfl, reads_written v (h (key, v) (List.mem_cons_self ..))⟩
      (reads_writtenMembers rest fun p mem => h p (List.mem_cons_of_mem _ mem))

end

/-- **Reading inverts printing.** -/
theorem read_print {v : Value} (h : v.Readable) : read v.print = .ok v := by
  have lexed := lexes_print v [] (by simp [Ends])
  have reads := reads_written v h [] []
  rw [List.append_nil] at lexed reads
  rw [read, lexed, show tokens [] = [] from by rw [tokens], List.append_nil, reads]
  rfl

/-! ### Texts that are read -/

theorem mem_intercalate {t : Token} {ts : List Token} {tss : List (List Token)} (mem : ts ∈ tss) (h : t ∈ ts) :
    t ∈ [Token.comma].intercalate tss := by
  induction tss with
  | nil => cases mem
  | cons us tss ih =>
    cases tss with
    | nil =>
      rw [List.intercalate_singleton, ← List.mem_singleton.1 mem]
      exact h
    | cons us' tss =>
      rw [intercalate_comma, List.mem_append, List.mem_cons]
      rcases List.mem_cons.1 mem with rfl | mem
      · exact .inl h
      · exact .inr (.inr (ih mem))

/-- The digits of each integer in a value are among its tokens. -/
theorem mem_written_of_within {n : Int} {v : Value} (h : (Value.integer n).Within v) :
    Token.integer (toString n) ∈ v.written := by
  have items {w : Value} {items : List Value} (mem : w ∈ items) : w.written ∈ writtenItems items := by
    induction items with
    | nil => cases mem
    | cons v items ih =>
      rcases List.mem_cons.1 mem with rfl | mem
      · exact List.mem_cons_self ..
      · exact List.mem_cons_of_mem _ (ih mem)
  have members {w : Value} {key : String} {members : List (String × Value)} (mem : (key, w) ∈ members) :
      .string key :: .colon :: w.written ∈ writtenMembers members := by
    induction members with
    | nil => cases mem
    | cons p members ih =>
      rcases List.mem_cons.1 mem with rfl | mem
      · exact List.mem_cons_self ..
      · exact List.mem_cons_of_mem _ (ih mem)
  generalize number : Value.integer n = u at h
  induction h with
  | self =>
    rw [← number]
    exact List.mem_singleton_self _
  | item mem _ ih =>
    rw [written, List.mem_append, List.mem_cons]
    exact .inl (.inr (mem_intercalate (items mem) ih))
  | member mem _ ih =>
    rw [written, List.mem_append, List.mem_cons]
    exact .inl (.inr (mem_intercalate (members mem) (List.mem_cons_of_mem _ (List.mem_cons_of_mem _ ih))))

/-- The step: an integer is read wherever one may come. -/
theorem exists_of_step {s s' : State} {text : String} (h : s.step (.integer text) = .ok s') :
    ∃ n, Numeral.readInteger text = .ok n := by
  have value {frames : List Frame} (h : State.readValue frames (.integer text) = .ok s') :
      ∃ n, Numeral.readInteger text = .ok n := by
    rw [State.readValue] at h
    cases read : Numeral.readInteger text with
    | ok n => exact ⟨n, rfl⟩
    | error e =>
      rw [read] at h
      cases h
  obtain ⟨frames, stage⟩ := s
  cases stage with
  | value => exact value h
  | firstItem => exact value h
  | _ => cases frames <;> cases h

/-- The run: all integers of a text that is read are short. -/
theorem short_of_read {v w : Value} (h : read v.print = .ok w) : v.Short := by
  have lexed := lexes_print v [] (by simp [Ends])
  rw [List.append_nil, show tokens [] = [] from by rw [tokens], List.append_nil] at lexed
  obtain ⟨final, run, -⟩ := exists_of_bind h
  rw [lexed] at run
  unfold Short All
  intro u within
  cases u with
  | integer n =>
    obtain ⟨before, after, shape⟩ := List.append_of_mem (mem_written_of_within within)
    rw [shape] at run
    obtain ⟨s, s', -, step, -⟩ := exists_of_foldlM_ok run
    obtain ⟨m, read⟩ := exists_of_step step
    exact Numeral.short_of_readInteger read
  | _ => trivial

/-- What is read from the text of a value is the value. -/
theorem eq_of_read_print {v w : Value} (distinct : v.Distinct) (h : read v.print = .ok w) : w = v := by
  have same := read_print ⟨distinct, short_of_read h⟩
  rw [h] at same
  cases same
  rfl

end Retrieval.Json
