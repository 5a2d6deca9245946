import Mathlib
import Retrieval.Normalizer
import Retrieval.Proofs.Text.Runs

/-!
# Terms of texts that are put together from words

A text of small ASCII characters is its own lower-case form, so words with spaces between them are the tokens of their
text, and the terms of the text are the stems of those that are kept.
-/

set_option autoImplicit false

namespace Retrieval

namespace Text

/-- Characters of ASCII that are their own lower-case form stay as they are, whatever stands around them. -/
theorem lowerAfter_eq_self {cs : List Char} (h : ∀ c ∈ cs, c.toNat < 0x80 ∧ c.toLower = c) (before : List Char) :
    lowerAfter before cs = cs := by
  induction cs generalizing before with
  | nil => rfl
  | cons c cs ih =>
    obtain ⟨⟨ascii, small⟩, others⟩ := List.forall_mem_cons.1 h
    rw [lowerAfter, lowered, if_pos ascii, small, ih others]
    rfl

theorem lower_eq_self {s : String} (h : ∀ c ∈ s.toList, c.toNat < 0x80 ∧ c.toLower = c) : lower s = s := by
  rw [lower, lowerAfter_eq_self h, String.ofList_toList]

end Text

open Text

/-- Whether a text is a token in lower case. -/
def IsSmallToken (s : String) : Prop := s ≠ "" ∧ ∀ c ∈ s.toList, isTokenChar c = true ∧ c.toLower = c

theorem lt_of_isTokenChar {c : Char} (h : isTokenChar c = true) : c.toNat < 0x80 := by
  simp only [isTokenChar, Char.isAlphanum, Char.isAlpha, Char.isUpper, Char.isLower, Char.isDigit, Bool.or_eq_true,
    Bool.and_eq_true, decide_eq_true_eq, beq_iff_eq, ge_iff_le, UInt32.le_iff_toNat_le] at h
  rcases h with ((h | h) | h) | rfl
  · exact Nat.lt_of_le_of_lt h.2 (by decide)
  · exact Nat.lt_of_le_of_lt h.2 (by decide)
  · exact Nat.lt_of_le_of_lt h.2 (by decide)
  · decide

/-- Tokens in lower case with spaces between them are the tokens of their text. -/
theorem textTokens_intercalate {ws : List String} (h : ∀ w ∈ ws, IsSmallToken w) :
    textTokens (" ".intercalate ws) = ws := by
  have small : ∀ c ∈ (" ".intercalate ws).toList, c.toNat < 0x80 ∧ c.toLower = c := by
    rw [String.toList_intercalate]
    refine forall_mem_intercalate (by simp) fun piece mem c hc => ?_
    obtain ⟨w, hw, rfl⟩ := List.mem_map.1 mem
    obtain ⟨token, fixed⟩ := (h w hw).2 c hc
    exact ⟨lt_of_isTokenChar token, fixed⟩
  rw [textTokens, lower_eq_self small]
  exact map_ofList_runs_intercalate (by decide) fun w hw => ⟨(h w hw).1, fun c hc => ((h w hw).2 c hc).1⟩

/-- The terms of tokens in lower case are the stems of those that are kept. -/
theorem Normalizer.terms_intercalate (n : Normalizer) {ws : List String} (h : ∀ w ∈ ws, IsSmallToken w) :
    n.terms (" ".intercalate ws) = (ws.filter n.keeps).map n.stem := by
  rw [terms, textTokens_intercalate h]

end Retrieval
