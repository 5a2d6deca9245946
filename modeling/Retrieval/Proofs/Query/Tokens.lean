import Retrieval.Proofs.Query.Grammar
import Retrieval.Proofs.Text.Runs

/-!
# Tokens of a query

The tokens of a query are read off its text from left to right: blanks between them do not count
(`tokensOf_cons_of_blank`), and a run of characters that are neither blanks nor parentheses is one token
(`tokensOf_append`). So texts of tokens with blanks between them are the texts of these tokens
(`texts_tokenize_join`), and the tokens of words with connectives between them are the words and the connectives
(`texts_tokenize_intercalate`).
-/

set_option autoImplicit false

namespace Retrieval.Query
open Retrieval.Text

theorem tokensOf_cons_of_blank {c : Char} (h : isBlank c = true) (cs : List Char) :
    tokensOf (c :: cs) = tokensOf cs := by
  have left : c ≠ '(' := by
    rintro rfl
    exact absurd h (by decide)
  have right : c ≠ ')' := by
    rintro rfl
    exact absurd h (by decide)
  rw [tokensOf, if_neg left, if_neg right, if_pos h]

/-- A run in front of a blank, of a parenthesis or of nothing is one token. -/
theorem tokensOf_append {run rest : List Char} (some : run ≠ []) (all : ∀ c ∈ run, isRunChar c = true)
    (stop : ∀ c cs, rest = c :: cs → isRunChar c = false) : tokensOf (run ++ rest) = .ofRun run :: tokensOf rest := by
  cases run with
  | nil => exact absurd rfl some
  | cons c cs =>
    obtain ⟨first, others⟩ := List.forall_mem_cons.1 all
    simp only [isRunChar, Bool.and_eq_true, Bool.not_eq_true', bne_iff_ne] at first
    obtain ⟨⟨solid, left⟩, right⟩ := first
    obtain ⟨taken, kept⟩ := span_append others stop
    rw [List.cons_append, tokensOf, if_neg left, if_neg right, solid, if_neg Bool.false_ne_true, taken, kept]

/-! ### Texts of tokens -/

/-- Whether a text is a token of a query: a parenthesis, or a run. -/
def IsTokenText (s : String) : Prop :=
  s = "(" ∨ s = ")" ∨ s.toList ≠ [] ∧ ∀ c ∈ s.toList, isRunChar c = true

/-- The text of a token, in front of a blank or of nothing, is that token. -/
theorem texts_tokensOf_append {s : String} (h : IsTokenText s) {rest : List Char}
    (stop : ∀ c cs, rest = c :: cs → isRunChar c = false) :
    texts (tokensOf (s.toList ++ rest)) = s :: texts (tokensOf rest) := by
  rcases h with rfl | rfl | ⟨some, all⟩
  · show texts (tokensOf ('(' :: rest)) = _
    rw [tokensOf, if_pos rfl]
    rfl
  · show texts (tokensOf (')' :: rest)) = _
    rw [tokensOf, if_neg (by decide), if_pos rfl]
    rfl
  · rw [tokensOf_append some all stop, texts, List.map_cons, Token.text_ofRun, String.ofList_toList]
    rfl

/-- The tokens of texts of tokens that are joined by blanks. -/
theorem texts_tokenize_join {ts : List String} (h : ∀ s ∈ ts, IsTokenText s) :
    texts (tokenize (" ".intercalate ts)) = ts := by
  rw [tokenize, String.toList_intercalate]
  induction ts with
  | nil =>
    show texts (tokensOf []) = []
    rw [tokensOf]
    rfl
  | cons s ts ih =>
    obtain ⟨first, others⟩ := List.forall_mem_cons.1 h
    cases ts with
    | nil =>
      have none_after : ∀ c cs, ([] : List Char) = c :: cs → isRunChar c = false := by simp
      have single := texts_tokensOf_append first none_after
      rw [tokensOf, List.append_nil] at single
      rw [List.map_singleton, List.intercalate_singleton, single]
      rfl
    | cons t ts =>
      have blank : ∀ (cs : List Char) c ds, ' ' :: cs = c :: ds → isRunChar c = false := by
        rintro cs c ds e
        cases e
        decide
      rw [List.map_cons, List.map_cons, List.intercalate_cons_cons, List.append_assoc, ← List.map_cons]
      show texts (tokensOf (s.toList ++ ' ' :: " ".toList.intercalate ((t :: ts).map String.toList))) = _
      rw [texts_tokensOf_append first (blank _), tokensOf_cons_of_blank (by decide), ih others]

/-! ### Words and connectives -/

theorem range_of_isSmallLetter {c : Char} (h : isSmallLetter c = true) : 97 ≤ c.toNat ∧ c.toNat ≤ 122 := by
  simp only [isSmallLetter, Bool.and_eq_true, decide_eq_true_eq, Char.le_def, UInt32.le_iff_toNat_le] at h
  exact h

theorem isRunChar_of_isSmallLetter {c : Char} (h : isSmallLetter c = true) : isRunChar c = true := by
  have range := range_of_isSmallLetter h
  have solid : isBlank c = false := by
    simp only [isBlank, Bool.or_eq_false_iff, Bool.and_eq_false_iff, decide_eq_false_iff_not, beq_eq_false_iff_ne]
    omega
  have other (d : Char) (low : d.toNat < 97) : c ≠ d := by
    rintro rfl
    omega
  rw [isRunChar, solid, bne_iff_ne.2 (other '(' (by decide)), bne_iff_ne.2 (other ')' (by decide))]
  rfl

theorem IsWord.toList_ne_nil {w : String} (h : IsWord w) : w.toList ≠ [] := by
  simpa using h.1

theorem IsWord.isTokenText {w : String} (h : IsWord w) : IsTokenText w :=
  .inr (.inr ⟨h.toList_ne_nil, fun c hc => isRunChar_of_isSmallLetter (h.2 c hc)⟩)

theorem isTokenText_connective (op : Connective) : IsTokenText op.text := by
  refine .inr (.inr ⟨?_, ?_⟩)
  · cases op <;> decide
  · cases op <;> exact List.all_eq_true.1 (by decide)

/-- What stands between two texts, with a blank on each side of it, is a text of its own. -/
theorem intercalate_between (s w : String) (ws : List String) :
    (" " ++ s ++ " ").intercalate (w :: ws) = " ".intercalate (w :: ws.flatMap fun v => [s, v]) := by
  apply String.toList_injective
  rw [String.toList_intercalate, String.toList_intercalate]
  induction ws generalizing w with
  | nil => rfl
  | cons v ws ih =>
    have rest := ih v
    rw [List.map_cons] at rest
    rw [List.map_cons, List.map_cons, List.intercalate_cons_cons, rest]
    simp [List.intercalate_cons_cons]

/-- The tokens of words with a connective between each two of them. -/
theorem texts_tokenize_intercalate (op : Connective) {w : String} {ws : List String} (hw : IsWord w)
    (hws : ∀ v ∈ ws, IsWord v) :
    texts (tokenize ((" " ++ op.text ++ " ").intercalate (w :: ws))) = w :: ws.flatMap fun v => [op.text, v] := by
  rw [intercalate_between]
  apply texts_tokenize_join
  refine List.forall_mem_cons.2 ⟨hw.isTokenText, fun s mem => ?_⟩
  obtain ⟨v, hv, mem⟩ := List.mem_flatMap.1 mem
  simp only [List.mem_cons, List.not_mem_nil, or_false] at mem
  rcases mem with rfl | rfl
  · exact isTokenText_connective op
  · exact (hws s hv).isTokenText

end Retrieval.Query
