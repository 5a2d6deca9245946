import Mathlib.Data.List.Basic
import Retrieval.Proofs.Query.WrongToken
import Retrieval.Proofs.Text.MaximalRuns

/-!
# Tokens by their places

The tokens of a query are its parentheses and its maximal runs of other characters that are not blank, from left to
right (`exists_places`). Together they are the query without its blanks (`join_texts`), and they are the words of the
query once blanks have been put around each parenthesis (`texts_eq_runs_padded`). All of it goes by induction on the
text, a parenthesis, a blank or a run at a time (`text_induction`).
-/

set_option autoImplicit false

namespace Retrieval.Query
open Retrieval.Text

/-- Whether the character is a parenthesis. -/
def isParen (c : Char) : Bool := c == '(' || c == ')'

theorem isParen_iff {c : Char} : isParen c = true ↔ c = '(' ∨ c = ')' := by simp [isParen]

theorem isRunChar_eq (c : Char) : isRunChar c = (!isBlank c && !isParen c) := by
  simp [isRunChar, isParen, bne, Bool.and_assoc]

theorem not_isBlank_of_isParen {c : Char} (h : isParen c = true) : isBlank c = false := by
  rcases isParen_iff.1 h with rfl | rfl <;> decide

theorem not_isParen_of_isBlank {c : Char} (h : isBlank c = true) : isParen c = false := by
  rw [← Bool.not_eq_true]
  intro paren
  rw [not_isBlank_of_isParen paren] at h
  cases h

theorem isRunChar_of_isParen {c : Char} (h : isParen c = true) : isRunChar c = false := by
  simp [isRunChar_eq, h]

theorem isRunChar_of_isBlank {c : Char} (h : isBlank c = true) : isRunChar c = false := by
  simp [isRunChar_eq, h]

theorem solid_of_isRunChar {c : Char} (h : isRunChar c = true) : isBlank c = false ∧ isParen c = false := by
  simpa [isRunChar_eq] using h

/-- A character that ends a run is a parenthesis or a blank. -/
theorem isParen_or_isBlank {c : Char} (h : isRunChar c = false) : isParen c = true ∨ isBlank c = true := by
  rw [isRunChar_eq] at h
  cases blank : isBlank c with
  | true => exact .inr rfl
  | false => simpa [blank] using h

/-- A text is nothing, or begins with a parenthesis, with a blank, or with a run that ends where it does. -/
theorem text_induction {P : List Char → Prop} (nil : P []) (paren : ∀ c cs, isParen c = true → P cs → P (c :: cs))
    (blank : ∀ c cs, isBlank c = true → P cs → P (c :: cs))
    (run : ∀ run rest, run ≠ [] → (∀ c ∈ run, isRunChar c = true) →
      (∀ c cs, rest = c :: cs → isRunChar c = false) → P rest → P (run ++ rest)) (cs : List Char) : P cs := by
  induction size : cs.length using Nat.strongRecOn generalizing cs with
  | ind n ih =>
    cases cs with
    | nil => exact nil
    | cons c cs =>
      rw [List.length_cons] at size
      by_cases b : isBlank c = true
      · exact blank c cs b (ih _ (by omega) cs rfl)
      by_cases p : isParen c = true
      · exact paren c cs p (ih _ (by omega) cs rfl)
      have first : isRunChar c = true := by simp [isRunChar_eq, b, p]
      obtain ⟨front, rest, parts, some, all, ends, shorter⟩ := exists_run first cs
      rw [parts]
      exact run front rest some all ends (ih _ (by omega) rest rfl)

/-! ### One token at a time -/

theorem tokensOf_nil : tokensOf [] = [] := by rw [tokensOf]

theorem tokensOf_cons_of_paren {c : Char} (h : isParen c = true) (cs : List Char) :
    tokensOf (c :: cs) = Token.ofText (String.ofList [c]) :: tokensOf cs := by
  rcases isParen_iff.1 h with rfl | rfl
  · rw [tokensOf, if_pos rfl]
    rfl
  · rw [tokensOf, if_neg (by decide), if_pos rfl]
    rfl

theorem text_ofText_paren {c : Char} (h : isParen c = true) :
    (Token.ofText (String.ofList [c])).text = String.ofList [c] := by
  rcases isParen_iff.1 h with rfl | rfl <;> rfl

theorem texts_cons (t : Token) (ts : List Token) : texts (t :: ts) = t.text :: texts ts := rfl

/-- Tokens are parentheses and runs. -/
theorem isTokenText_of_mem {cs : List Char} : ∀ s ∈ texts (tokensOf cs), IsTokenText s := by
  induction cs using text_induction with
  | nil => simp [tokensOf_nil, texts]
  | paren c cs h ih =>
    rw [tokensOf_cons_of_paren h, texts_cons, text_ofText_paren h]
    refine List.forall_mem_cons.2 ⟨?_, ih⟩
    rcases isParen_iff.1 h with rfl | rfl
    · exact .inl rfl
    · exact .inr (.inl rfl)
  | blank c cs h ih => rwa [tokensOf_cons_of_blank h]
  | run run rest some all ends ih =>
    rw [tokensOf_append some all ends, texts_cons, Token.text_ofRun]
    exact List.forall_mem_cons.2 ⟨.inr (.inr (by rw [String.toList_ofList]; exact ⟨some, all⟩)), ih⟩

/-- The tokens of a query, joined by blanks, have the same tokens. -/
theorem tokenize_join (query : String) : tokenize (" ".intercalate (texts (tokenize query))) = tokenize query :=
  eq_of_texts (lexed_of_mem_tokensOf _) (lexed_of_mem_tokensOf _) (texts_tokenize_join isTokenText_of_mem)

/-- The texts of the tokens together are the query without its blanks. -/
theorem join_texts (cs : List Char) :
    String.join (texts (tokensOf cs)) = String.ofList (cs.filter fun c => !isBlank c) := by
  apply String.toList_injective
  rw [String.toList_join, String.toList_ofList]
  induction cs using text_induction with
  | nil => simp [tokensOf_nil, texts]
  | paren c cs h ih =>
    rw [tokensOf_cons_of_paren h, texts_cons, text_ofText_paren h, List.flatMap_cons, ih, String.toList_ofList,
      List.filter_cons_of_pos (by simp [not_isBlank_of_isParen h])]
    rfl
  | blank c cs h ih => rw [tokensOf_cons_of_blank h, ih, List.filter_cons_of_neg (by simp [h])]
  | run run rest some all ends ih =>
    have solid : run.filter (fun c => !isBlank c) = run := by
      rw [List.filter_eq_self]
      intro c mem
      simp [solid_of_isRunChar (all c mem)]
    rw [tokensOf_append some all ends, texts_cons, Token.text_ofRun, List.flatMap_cons, ih, String.toList_ofList,
      List.filter_append, solid]

/-! ### Tokens by their places -/

/-- Whether a parenthesis stands at a place. -/
def ParenAt (cs : List Char) (i : Nat) : Prop := ∃ c, cs[i]? = some c ∧ isParen c = true

/-- Whether a token goes from one place up to another: a parenthesis, or a maximal run. -/
def TokenAt (cs : List Char) (start stop : Nat) : Prop :=
  (ParenAt cs start ∧ stop = start + 1) ∨ MaximalRun isRunChar cs start stop

theorem parenAt_append_iff {first rest : List Char} {i : Nat} :
    ParenAt (first ++ rest) i ↔ ParenAt first i ∨ ∃ k, ParenAt rest k ∧ i = first.length + k := by
  by_cases inside : i < first.length
  · have none_later (k : Nat) : i ≠ first.length + k := by omega
    simp [ParenAt, List.getElem?_append_left inside, none_later]
  · obtain ⟨k, rfl⟩ := Nat.exists_eq_add_of_le (Nat.le_of_not_lt inside)
    simp [ParenAt, getElem?_append_add]

/-- The tokens behind a first part, where the runs behind it are known. -/
theorem tokenAt_append_iff {first rest : List Char} {start stop : Nat} {here : Prop}
    (runs : MaximalRun isRunChar (first ++ rest) start stop ↔
      here ∨ ∃ i j, MaximalRun isRunChar rest i j ∧ (start, stop) = shift first.length (i, j)) :
    TokenAt (first ++ rest) start stop ↔
      (ParenAt first start ∧ stop = start + 1 ∨ here) ∨
        ∃ i j, TokenAt rest i j ∧ (start, stop) = shift first.length (i, j) := by
  rw [TokenAt, runs, parenAt_append_iff]
  constructor
  · rintro (⟨paren | ⟨k, paren, rfl⟩, rfl⟩ | here | ⟨i, j, h, same⟩)
    · exact .inl (.inl ⟨paren, rfl⟩)
    · exact .inr ⟨k, k + 1, .inl ⟨paren, rfl⟩, rfl⟩
    · exact .inl (.inr here)
    · exact .inr ⟨i, j, .inr h, same⟩
  · rintro ((⟨paren, rfl⟩ | here) | ⟨i, j, ⟨paren, rfl⟩ | h, same⟩)
    · exact .inl ⟨.inl paren, rfl⟩
    · exact .inr (.inl here)
    · cases same
      exact .inl ⟨.inr ⟨i, paren, rfl⟩, rfl⟩
    · exact .inr (.inr ⟨i, j, h, same⟩)

/-- A character that ends a run can only be a token of its own. -/
theorem tokenAt_break_iff {c : Char} (h : isRunChar c = false) (cs : List Char) (start stop : Nat) :
    TokenAt ([c] ++ cs) start stop ↔
      (ParenAt [c] start ∧ stop = start + 1) ∨
        ∃ i j, TokenAt cs i j ∧ (start, stop) = shift [c].length (i, j) := by
  have runs : MaximalRun isRunChar ([c] ++ cs) start stop ↔
      False ∨ ∃ i j, MaximalRun isRunChar cs i j ∧ (start, stop) = shift [c].length (i, j) := by
    rw [false_or]
    exact maximalRun_cons_iff h
  rw [tokenAt_append_iff runs, or_false]

theorem tokenAt_paren_iff {c : Char} (h : isParen c = true) (cs : List Char) (start stop : Nat) :
    TokenAt ([c] ++ cs) start stop ↔
      (start, stop) = (0, [c].length) ∨ ∃ i j, TokenAt cs i j ∧ (start, stop) = shift [c].length (i, j) := by
  have first : ParenAt [c] start ↔ start = 0 := by
    cases start <;> simp [ParenAt, h]
  rw [tokenAt_break_iff (isRunChar_of_isParen h), first]
  refine or_congr_left ?_
  constructor
  · rintro ⟨rfl, rfl⟩
    rfl
  · intro same
    cases same
    exact ⟨rfl, rfl⟩

theorem tokenAt_blank_iff {c : Char} (h : isBlank c = true) (cs : List Char) (start stop : Nat) :
    TokenAt ([c] ++ cs) start stop ↔ ∃ i j, TokenAt cs i j ∧ (start, stop) = shift [c].length (i, j) := by
  have none_here : ¬ ParenAt [c] start := by
    rintro ⟨d, here, paren⟩
    obtain rfl : d = c := List.mem_singleton.1 (List.mem_of_getElem? here)
    rw [not_isParen_of_isBlank h] at paren
    cases paren
  rw [tokenAt_break_iff (isRunChar_of_isBlank h)]
  simp [none_here]

theorem tokenAt_run_iff {run rest : List Char} (some : run ≠ []) (all : ∀ c ∈ run, isRunChar c = true)
    (stops : ∀ c cs, rest = c :: cs → isRunChar c = false) (start stop : Nat) :
    TokenAt (run ++ rest) start stop ↔
      (start, stop) = (0, run.length) ∨ ∃ i j, TokenAt rest i j ∧ (start, stop) = shift run.length (i, j) := by
  have none_here : ¬ ParenAt run start := by
    rintro ⟨c, here, paren⟩
    have member := all c (List.mem_of_getElem? here)
    rw [isRunChar_of_isParen paren] at member
    cases member
  rw [tokenAt_append_iff (maximalRun_run_append_iff some all stops)]
  simp [none_here]

/-- The places of the tokens of a text, from left to right. -/
structure Places (cs : List Char) (spans : List (Nat × Nat)) : Prop where
  mem_iff : ∀ start stop, (start, stop) ∈ spans ↔ TokenAt cs start stop
  ascending : spans.Pairwise fun s t => s.2 ≤ t.1
  texts : texts (tokensOf cs) = spans.map fun s => String.ofList (cs.extract s.1 s.2)

theorem ascending_map_shift {k : Nat} {spans : List (Nat × Nat)} (h : spans.Pairwise fun s t => s.2 ≤ t.1) :
    (spans.map (shift k)).Pairwise fun s t => s.2 ≤ t.1 :=
  List.pairwise_map.2 (h.imp fun le => Nat.add_le_add_left le k)

theorem map_text_shift (first rest : List Char) (spans : List (Nat × Nat)) :
    (spans.map (shift first.length)).map (fun s => String.ofList ((first ++ rest).extract s.1 s.2)) =
      spans.map fun s => String.ofList (rest.extract s.1 s.2) := by
  have same := congrArg (List.map String.ofList) (map_extract_shift first rest spans)
  simpa only [List.map_map, Function.comp_def] using same

/-- A token in front of a text whose tokens have their places. -/
theorem Places.append {first rest : List Char} {spans : List (Nat × Nat)} (h : Places rest spans)
    (places : ∀ start stop, TokenAt (first ++ rest) start stop ↔
      (start, stop) = (0, first.length) ∨ ∃ i j, TokenAt rest i j ∧ (start, stop) = shift first.length (i, j))
    (token : Query.texts (tokensOf (first ++ rest)) = String.ofList first :: Query.texts (tokensOf rest)) :
    Places (first ++ rest) ((0, first.length) :: spans.map (shift first.length)) where
  mem_iff start stop := by
    rw [places, List.mem_cons, mem_map_shift]
    simp only [h.mem_iff]
  ascending := by
    refine List.pairwise_cons.2 ⟨fun span mem => ?_, ascending_map_shift h.ascending⟩
    obtain ⟨inner, -, rfl⟩ := List.mem_map.1 mem
    exact Nat.le_add_right ..
  texts := by
    rw [token, h.texts, List.map_cons, map_text_shift]
    simp

/-- **Tokens by their places.** -/
theorem exists_places (cs : List Char) : ∃ spans, Places cs spans := by
  induction cs using text_induction with
  | nil =>
    have none (start stop : Nat) : ¬ TokenAt [] start stop := by
      rintro (⟨⟨c, here, -⟩, -⟩ | run)
      · cases here
      · exact absurd (Nat.lt_of_lt_of_le run.nonempty run.fits) (Nat.not_lt_zero _)
    refine ⟨[], ⟨fun start stop => ?_, .nil, by rw [tokensOf_nil]; rfl⟩⟩
    simp [none]
  | paren c cs h ih =>
    obtain ⟨spans, placed⟩ := ih
    refine ⟨_, placed.append (tokenAt_paren_iff h cs) ?_⟩
    rw [List.singleton_append, tokensOf_cons_of_paren h, texts_cons, text_ofText_paren h]
  | blank c cs h ih =>
    obtain ⟨spans, placed⟩ := ih
    refine ⟨spans.map (shift 1), ⟨fun start stop => ?_, ascending_map_shift placed.ascending, ?_⟩⟩
    · rw [mem_map_shift]
      simp only [placed.mem_iff]
      exact (tokenAt_blank_iff h cs start stop).symm
    · rw [tokensOf_cons_of_blank h, placed.texts]
      exact (map_text_shift [c] cs spans).symm
  | run run rest some all ends ih =>
    obtain ⟨spans, placed⟩ := ih
    refine ⟨_, placed.append (tokenAt_run_iff some all ends) ?_⟩
    rw [tokensOf_append some all ends, texts_cons, Token.text_ofRun]

/-! ### Blanks around parentheses -/

/-- The query with a blank on each side of each parenthesis. -/
def padded (cs : List Char) : List Char := cs.flatMap fun c => if isParen c then [' ', c, ' '] else [c]

theorem padded_cons (c : Char) (cs : List Char) :
    padded (c :: cs) = (if isParen c then [' ', c, ' '] else [c]) ++ padded cs := List.flatMap_cons ..

theorem padded_run {run : List Char} (all : ∀ c ∈ run, isRunChar c = true) (rest : List Char) :
    padded (run ++ rest) = run ++ padded rest := by
  induction run with
  | nil => rfl
  | cons c run ih =>
    obtain ⟨first, others⟩ := List.forall_mem_cons.1 all
    rw [List.cons_append, padded_cons, (solid_of_isRunChar first).2, ih others]
    rfl

/-- Tokens are the words of the query once its parentheses stand alone. -/
theorem texts_eq_runs_padded (cs : List Char) :
    texts (tokensOf cs) = (runs (!isBlank ·) (padded cs)).map String.ofList := by
  have space : (!isBlank ' ') = false := by decide
  induction cs using text_induction with
  | nil => simp [tokensOf_nil, texts, padded, runs]
  | paren c cs h ih =>
    have alone : runs (!isBlank ·) ([c] ++ ' ' :: padded cs) = [c] :: runs (!isBlank ·) (' ' :: padded cs) := by
      refine runs_append (List.cons_ne_nil _ _) ?_ ?_
      · simp [not_isBlank_of_isParen h]
      · rintro d ds same
        cases same
        exact space
    rw [tokensOf_cons_of_paren h, texts_cons, text_ofText_paren h, ih, padded_cons, if_pos h]
    show _ = (runs (!isBlank ·) (' ' :: ([c] ++ ' ' :: padded cs))).map String.ofList
    rw [runs_cons_of_neg space, alone, runs_cons_of_neg space]
    rfl
  | blank c cs h ih =>
    rw [tokensOf_cons_of_blank h, ih, padded_cons, not_isParen_of_isBlank h]
    show _ = (runs (!isBlank ·) (c :: padded cs)).map String.ofList
    rw [runs_cons_of_neg (by simp [h])]
  | run run rest some all ends ih =>
    have solid : ∀ c ∈ run, (!isBlank c) = true := fun c mem => by simp [solid_of_isRunChar (all c mem)]
    have parted : ∀ c cs, padded rest = c :: cs → (!isBlank c) = false := by
      intro c cs front
      cases rest with
      | nil => cases front
      | cons d ds =>
        rw [padded_cons] at front
        rcases isParen_or_isBlank (ends d ds rfl) with paren | blank
        · rw [if_pos paren] at front
          cases front
          exact space
        · rw [not_isParen_of_isBlank blank] at front
          cases front
          simp [blank]
    rw [tokensOf_append some all ends, texts_cons, Token.text_ofRun, ih, padded_run all,
      runs_append some solid parted]
    rfl

end Retrieval.Query
