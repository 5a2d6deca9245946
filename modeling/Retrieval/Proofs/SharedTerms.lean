import Retrieval.Corpus.Record
import Retrieval.Proofs.Terms
import Retrieval.Proofs.Text.Lowering

/-!
# Terms of lines and of their text

A blank parts a text in two: no token goes over it, and it hides the letters on its one side from the casing of those on
the other. So the tokens of a text are those of its parts (`textTokens_append_cons`), and it makes no difference to the
terms of lines whether they are found line by line, in the text that the lines make with newlines between them, or after
the lines have been trimmed and joined (`termsOfLines_eq_terms`).
-/

set_option autoImplicit false

namespace Retrieval
open Text

/-! ### Blanks between tokens -/

theorem isTokenChar_blank {c : Char} : isBlank c = true → isTokenChar c = false :=
  blank_cases (P := fun c => isTokenChar c = false) (by decide +kernel)

/-- **A blank parts tokens.** -/
theorem textTokens_append_cons {c : Char} (h : isBlank c = true) (xs ys : List Char) :
    textTokens (String.ofList (xs ++ c :: ys)) = textTokens (String.ofList xs) ++ textTokens (String.ofList ys) := by
  simp only [textTokens, lower, String.toList_ofList]
  rw [lowerAfter_append_cons h, runs_append_cons (isTokenChar_blank h), List.map_append]

@[simp] theorem textTokens_empty : textTokens "" = [] := by
  rw [textTokens]
  show (runs isTokenChar []).map String.ofList = []
  rw [runs, List.map_nil]

section Blanks

variable {blanks : List Char} (blank : ∀ c ∈ blanks, isBlank c = true)
include blank

theorem textTokens_blanks_append (cs : List Char) :
    textTokens (String.ofList (blanks ++ cs)) = textTokens (String.ofList cs) := by
  induction blanks with
  | nil => rfl
  | cons c blanks ih =>
    obtain ⟨first, others⟩ := List.forall_mem_cons.1 blank
    have parted := textTokens_append_cons first [] (blanks ++ cs)
    rw [String.ofList_nil, textTokens_empty] at parted
    exact parted.trans (ih others)

theorem textTokens_blanks : textTokens (String.ofList blanks) = [] := by
  have none := textTokens_blanks_append blank []
  rwa [List.append_nil, String.ofList_nil, textTokens_empty] at none

theorem textTokens_append_blanks (cs : List Char) :
    textTokens (String.ofList (cs ++ blanks)) = textTokens (String.ofList cs) := by
  cases blanks with
  | nil => rw [List.append_nil]
  | cons c blanks =>
    obtain ⟨first, others⟩ := List.forall_mem_cons.1 blank
    rw [textTokens_append_cons first, textTokens_blanks others, List.append_nil]

end Blanks

/-- Blanks at the ends of a text are in no token. -/
theorem textTokens_trim (s : String) : textTokens (trim s) = textTokens s := by
  have front := List.takeWhile_append_dropWhile (p := isBlank) (l := s.toList)
  have back := List.rdropWhile_append_rtakeWhile (p := isBlank) (l := s.toList.dropWhile isBlank)
  show textTokens (String.ofList ((s.toList.dropWhile isBlank).rdropWhile isBlank)) = _
  conv => rhs; rw [← String.ofList_toList (s := s), ← front, ← back]
  rw [textTokens_blanks_append fun c mem => List.mem_takeWhile_imp mem,
    textTokens_append_blanks fun c mem => List.mem_rtakeWhile_imp mem]

theorem textTokens_of_isBlankLine {line : String} (h : isBlankLine line = true) : textTokens line = [] := by
  have none := textTokens_blanks (List.all_eq_true.1 h)
  rwa [String.ofList_toList] at none

/-! ### Lines -/

section Separator

variable {separator : String} {c : Char} (single : separator.toList = [c]) (h : isBlank c = true)
include single h

theorem textTokens_append (s t : String) : textTokens (s ++ separator ++ t) = textTokens s ++ textTokens t := by
  have chars : s ++ separator ++ t = String.ofList (s.toList ++ c :: t.toList) := by
    rw [← String.toList_inj, String.toList_ofList]
    simp [single]
  rw [chars, textTokens_append_cons h, String.ofList_toList, String.ofList_toList]

/-- The tokens of lines with a blank between them are those of each. -/
theorem textTokens_intercalate_blank (ls : List String) :
    textTokens (separator.intercalate ls) = ls.flatMap textTokens := by
  induction ls with
  | nil => simp
  | cons l ls ih =>
    cases ls with
    | nil => simp
    | cons next ls =>
      rw [String.intercalate_cons_cons, textTokens_append single h, ih]
      rfl

end Separator

/-- Blank lines have no tokens. -/
theorem flatMap_textTokens_filter (ls : List String) :
    (ls.filter (!isBlankLine ·)).flatMap textTokens = ls.flatMap textTokens := by
  induction ls with
  | nil => rfl
  | cons l ls ih =>
    cases blank : isBlankLine l with
    | false => rw [List.filter_cons_of_pos (by simp [blank]), List.flatMap_cons, List.flatMap_cons, ih]
    | true =>
      rw [List.filter_cons_of_neg (by simp [blank]), List.flatMap_cons, ih, textTokens_of_isBlankLine blank,
        List.nil_append]

/-- The tokens of lines that are joined are those of each. -/
theorem textTokens_joinLines (ls : List String) : textTokens (Corpus.joinLines ls) = ls.flatMap textTokens := by
  rw [Corpus.joinLines, textTokens_intercalate_blank (c := ' ') rfl rfl, List.flatMap_map,
    ← flatMap_textTokens_filter ls]
  simp only [textTokens_trim]

namespace Normalizer

theorem termsOfLines_eq (n : Normalizer) (ls : List String) :
    n.termsOfLines ls = ((ls.flatMap textTokens).filter n.keeps).map n.stem := by
  rw [List.filter_flatMap, List.map_flatMap]
  rfl

/-- **Terms of lines.** They are those of the text that the lines make with newlines between them, and those of the one
line to which they are joined. -/
theorem termsOfLines_eq_terms (n : Normalizer) (ls : List String) :
    n.termsOfLines ls = n.terms ("\n".intercalate ls) ∧ n.termsOfLines ls = n.terms (Corpus.joinLines ls) := by
  constructor
  · rw [termsOfLines_eq, terms, textTokens_intercalate_blank (c := '\n') rfl rfl]
  · rw [termsOfLines_eq, terms, textTokens_joinLines]

end Normalizer

end Retrieval
