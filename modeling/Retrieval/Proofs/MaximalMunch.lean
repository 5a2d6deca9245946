import Retrieval.Proofs.StopWords
import Retrieval.Proofs.Terms
import Retrieval.Proofs.Text.Lowering
import Retrieval.Proofs.Text.MaximalRuns

/-!
# Terms by maximal munch

The tokens of a text are the maximal runs of small letters, digits and underscores of its lower-case form: no capital
letter is left there, so the wider class of token characters has the same runs. The terms are the stems of the tokens
that have at least two characters and are no stop words (`Normalizer.terms_maximal_munch`), as they are when the text is
cut at its separators (`Normalizer.terms_eq_pieces`). A normaliser that leaves words as they are finds the same terms
again in the text that it makes of them.
-/

set_option autoImplicit false

namespace Retrieval
open Text

/-- The characters that terms are made of: small letters of ASCII, digits and the underscore. -/
def isTermChar (c : Char) : Bool := c.isLower || c.isDigit || c == '_'

theorem isTokenChar_of_mem_lower {text : String} {c : Char} (h : c ∈ (lower text).toList) :
    isTokenChar c = isTermChar c := by
  rw [isTokenChar, isTermChar, Char.isAlphanum, Char.isAlpha, isUpper_of_mem_lower h, Bool.false_or]

/-- The tokens of a text by their places. -/
theorem textTokens_spans (text : String) :
    ∃ spans : List (Nat × Nat),
      (∀ start stop, (start, stop) ∈ spans ↔ MaximalRun isTermChar (lower text).toList start stop) ∧
      spans.Pairwise (fun s t => s.2 < t.1) ∧
      textTokens text = spans.map fun s => String.ofList ((lower text).toList.extract s.1 s.2) := by
  obtain ⟨spans, mem_iff, ascending, same⟩ := exists_spans isTokenChar (lower text).toList
  have alike : ∀ c ∈ (lower text).toList, isTokenChar c = isTermChar c := fun c => isTokenChar_of_mem_lower
  refine ⟨spans, fun start stop => (mem_iff start stop).trans ?_, ascending, ?_⟩
  · exact ⟨fun h => h.congr alike, fun h => h.congr fun c mem => (alike c mem).symm⟩
  · rw [textTokens, same, List.map_map]
    rfl

/-- The tokens of a text are in lower case. -/
theorem isSmallToken_of_mem_textTokens {text token : String} (h : token ∈ textTokens text) : IsSmallToken token := by
  obtain ⟨run, mem, rfl⟩ := List.mem_map.1 h
  obtain ⟨some, all⟩ := forall_mem_runs mem
  refine ⟨by simpa using some, ?_⟩
  intro c hc
  rw [String.toList_ofList] at hc
  have small := isUpper_of_mem_lower (mem_of_mem_runs mem hc)
  exact ⟨all c hc, Char.toLower_eq_of_not_isUpper (by simp [small])⟩

namespace Normalizer

/-- Stop words can be looked up. -/
instance decidableStops (n : Normalizer) (token : String) : Decidable (.string token ∈ n.stopWords) :=
  decidable_of_iff _ stops_iff

/-- The normaliser with the same stop words that leaves words as they are. -/
def plain (n : Normalizer) : Normalizer := { n with stem := id }

theorem keeps_iff {n : Normalizer} {token : String} :
    n.keeps token = true ↔ 2 ≤ token.length ∧ .string token ∉ n.stopWords := by
  rw [keeps, Bool.and_eq_true, decide_eq_true_eq, Bool.not_eq_true', ← Bool.not_eq_true, stops_iff]
  rfl

/-- Cutting the text at its separators gives the same terms: the empty pieces at its ends are too short to be kept. -/
theorem terms_eq_pieces (n : Normalizer) (text : String) :
    n.terms text =
      (((pieces isTokenChar (lower text).toList).map String.ofList).filter n.keeps).map n.stem := by
  have long (piece : List Char) (kept : n.keeps (String.ofList piece) = true) : piece ≠ [] := by
    rintro rfl
    exact absurd (keeps_iff.1 kept).1 (by decide)
  rw [terms, textTokens, runs_eq_filter_pieces, List.filter_map, List.filter_map, List.filter_filter]
  congr 2
  refine List.filter_congr fun piece _ => ?_
  simpa using long piece

/-- The terms that a normaliser which leaves words as they are has found are the terms of their text. -/
theorem plain_terms_intercalate (n : Normalizer) (text : String) :
    n.plain.terms (" ".intercalate (n.plain.terms text)) = n.plain.terms text := by
  have found : n.plain.terms text = (textTokens text).filter n.keeps := List.map_id _
  have small : ∀ token ∈ (textTokens text).filter n.keeps, IsSmallToken token := fun token mem =>
    isSmallToken_of_mem_textTokens (List.mem_of_mem_filter mem)
  rw [found, terms_intercalate _ small]
  show (((textTokens text).filter n.keeps).filter n.keeps).map id = _
  rw [List.map_id, List.filter_filter, funext fun token => Bool.and_self (n.keeps token)]

/-- **Terms by maximal munch.** The terms of a text are the stems of those maximal runs of term characters in its
lower-case form, from left to right, that have at least two characters and are no stop words. Without stemming they are
the terms of the text that they make with spaces between them. -/
theorem terms_maximal_munch (n : Normalizer) (text : String) :
    (∃ spans : List (Nat × Nat),
      (∀ start stop, (start, stop) ∈ spans ↔ MaximalRun isTermChar (lower text).toList start stop) ∧
      spans.Pairwise (fun s t => s.2 < t.1) ∧
      n.terms text = ((spans.map fun s => String.ofList ((lower text).toList.extract s.1 s.2)).filter
        fun token => 2 ≤ token.length ∧ .string token ∉ n.stopWords).map n.stem) ∧
    n.plain.terms (" ".intercalate (n.plain.terms text)) = n.plain.terms text := by
  obtain ⟨spans, mem_iff, ascending, same⟩ := textTokens_spans text
  refine ⟨⟨spans, mem_iff, ascending, ?_⟩, n.plain_terms_intercalate text⟩
  have kept (token : String) : n.keeps token = decide (2 ≤ token.length ∧ .string token ∉ n.stopWords) := by
    rw [Bool.eq_iff_iff, keeps_iff, decide_eq_true_eq]
  rw [terms, same, funext kept]

end Normalizer

end Retrieval
