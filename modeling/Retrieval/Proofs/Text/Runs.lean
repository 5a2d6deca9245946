import Retrieval.Text.Blank

/-!
# Runs of characters, and lines

A run is a part of a text that is not empty and holds characters of one class only; so a word holds no blank. It ends
where a character of another class comes, or the text ends (`span_append`), so the runs of a text are read off where it
is put together from runs and separators (`runs_append`, `runs_intercalate`), or cut at a separator
(`runs_append_cons`). The lines of two texts with a newline between them are those of each (`lines_append_newline`).
-/

set_option autoImplicit false

namespace Retrieval.Text

theorem forall_mem_runs {p : Char → Bool} {cs run : List Char} (h : run ∈ runs p cs) :
    run ≠ [] ∧ ∀ c ∈ run, p c = true := by
  induction hn : cs.length using Nat.strongRecOn generalizing cs with
  | ind n ih =>
    cases cs with
    | nil =>
      rw [runs] at h
      cases h
    | cons c cs =>
      rw [List.length_cons] at hn
      rw [runs] at h
      split at h
      · rename_i first
        rcases List.mem_cons.1 h with rfl | later
        · refine ⟨List.cons_ne_nil _ _, ?_⟩
          intro d hd
          rcases List.mem_cons.1 hd with rfl | hd
          · exact first
          · exact List.all_eq_true.1 List.all_takeWhile d hd
        · have shorter := (cs.dropWhile_sublist p).length_le
          exact ih _ (by omega) later rfl
      · exact ih _ (by omega) h rfl

/-- A word is not empty, and none of its characters is blank. -/
theorem forall_mem_words {s word : String} (h : word ∈ words s) :
    word.toList ≠ [] ∧ ∀ c ∈ word.toList, isBlank c = false := by
  obtain ⟨run, mem, rfl⟩ := List.mem_map.1 h
  rw [String.toList_ofList]
  simpa using forall_mem_runs mem

/-- A run ends where its predicate fails. -/
theorem span_append {p : Char → Bool} {ds rest : List Char} (all : ∀ c ∈ ds, p c = true)
    (stop : ∀ c cs, rest = c :: cs → p c = false) :
    (ds ++ rest).takeWhile p = ds ∧ (ds ++ rest).dropWhile p = rest := by
  have front : rest.takeWhile p = [] ∧ rest.dropWhile p = rest := by
    cases rest with
    | nil => exact ⟨rfl, rfl⟩
    | cons c cs =>
      have fails := stop c cs rfl
      exact ⟨List.takeWhile_cons_of_neg (by simp [fails]), List.dropWhile_cons_of_neg (by simp [fails])⟩
  rw [List.takeWhile_append_of_pos all, List.dropWhile_append_of_pos all, front.1, front.2, List.append_nil]
  exact ⟨rfl, rfl⟩

/-- What a list begins with goes on into the list after it, if at all, with what that begins with. -/
theorem exists_takeWhile_append {α : Type} (p : α → Bool) (xs ys : List α) :
    ∃ more, (xs ++ ys).takeWhile p = xs.takeWhile p ++ more ∧ more ⊆ ys.takeWhile p := by
  rw [List.takeWhile_append]
  split
  · rename_i all
    refine ⟨ys.takeWhile p, ?_, List.Subset.refl _⟩
    rw [(List.takeWhile_prefix p).eq_of_length all]
  · exact ⟨[], by simp, List.nil_subset _⟩

/-- A separator is in no run. -/
theorem runs_cons_of_neg {p : Char → Bool} {c : Char} (h : p c = false) (cs : List Char) :
    runs p (c :: cs) = runs p cs := by
  rw [runs, h, if_neg Bool.false_ne_true]

/-- A text without runs consists of separators. -/
theorem runs_eq_nil_iff {p : Char → Bool} {cs : List Char} : runs p cs = [] ↔ ∀ c ∈ cs, p c = false := by
  induction cs with
  | nil => simp [runs]
  | cons c cs ih =>
    rw [List.forall_mem_cons, ← ih]
    cases first : p c with
    | false => simp [runs_cons_of_neg first]
    | true => simp [runs, first]

theorem words_eq_nil_iff {s : String} : words s = [] ↔ isBlankLine s = true := by
  rw [words, List.map_eq_nil_iff, runs_eq_nil_iff, isBlankLine, List.all_eq_true]
  simp

/-- A run in front of a separator, or of nothing, is the first one. -/
theorem runs_append {p : Char → Bool} {run rest : List Char} (some : run ≠ []) (all : ∀ c ∈ run, p c = true)
    (stop : ∀ c cs, rest = c :: cs → p c = false) : runs p (run ++ rest) = run :: runs p rest := by
  cases run with
  | nil => exact absurd rfl some
  | cons c cs =>
    obtain ⟨first, others⟩ := List.forall_mem_cons.1 all
    obtain ⟨taken, left⟩ := span_append others stop
    rw [List.cons_append, runs, if_pos first, taken, left]

theorem span_append_cons {p : Char → Bool} {c : Char} (h : p c = false) (xs ys : List Char) :
    (xs ++ c :: ys).takeWhile p = xs.takeWhile p ∧ (xs ++ c :: ys).dropWhile p = xs.dropWhile p ++ c :: ys := by
  induction xs with
  | nil => simp [h]
  | cons x xs ih => cases first : p x <;> simp [first, ih]

/-- A separator parts the runs before it from those after it. -/
theorem runs_append_cons {p : Char → Bool} {c : Char} (h : p c = false) (xs ys : List Char) :
    runs p (xs ++ c :: ys) = runs p xs ++ runs p ys := by
  induction size : xs.length using Nat.strongRecOn generalizing xs with
  | ind n ih =>
    cases xs with
    | nil => rw [List.nil_append, runs_cons_of_neg h, runs, List.nil_append]
    | cons x xs =>
      rw [List.length_cons] at size
      rw [List.cons_append]
      cases first : p x with
      | false => rw [runs_cons_of_neg first, runs_cons_of_neg first, ih _ (by omega) xs rfl]
      | true =>
        obtain ⟨taken, left⟩ := span_append_cons h xs ys
        have shorter := (xs.dropWhile_sublist p).length_le
        rw [runs, if_pos first, taken, left, ih _ (by omega) _ rfl, runs, if_pos first, List.cons_append]

/-- Runs with separators between them are the runs of their text. -/
theorem runs_intercalate {p : Char → Bool} {separator : Char} (separates : p separator = false)
    {pieces : List (List Char)} (h : ∀ piece ∈ pieces, piece ≠ [] ∧ ∀ c ∈ piece, p c = true) :
    runs p ([separator].intercalate pieces) = pieces := by
  induction pieces with
  | nil => rw [List.intercalate_nil, runs]
  | cons piece pieces ih =>
    obtain ⟨⟨some, all⟩, others⟩ := List.forall_mem_cons.1 h
    cases pieces with
    | nil =>
      have single : runs p (piece ++ []) = piece :: runs p [] := runs_append some all (by simp)
      rw [List.append_nil, runs] at single
      rw [List.intercalate_singleton, single]
    | cons next pieces =>
      have stop : ∀ c cs, [separator] ++ [separator].intercalate (next :: pieces) = c :: cs → p c = false := by
        rintro c cs e
        cases e
        exact separates
      rw [List.intercalate_cons_cons, List.append_assoc, runs_append some all stop, List.singleton_append,
        runs_cons_of_neg separates, ih others]

/-- Texts of one run each with spaces between them are the runs of the whole text. -/
theorem map_ofList_runs_intercalate {p : Char → Bool} (separates : p ' ' = false) {ws : List String}
    (h : ∀ w ∈ ws, w ≠ "" ∧ ∀ c ∈ w.toList, p c = true) :
    (runs p (" ".intercalate ws).toList).map String.ofList = ws := by
  have pieces : ∀ piece ∈ ws.map String.toList, piece ≠ [] ∧ ∀ c ∈ piece, p c = true := by
    intro piece mem
    obtain ⟨w, hw, rfl⟩ := List.mem_map.1 mem
    exact ⟨by simpa using (h w hw).1, (h w hw).2⟩
  rw [String.toList_intercalate]
  show (runs p ([' '].intercalate (ws.map String.toList))).map String.ofList = ws
  rw [runs_intercalate separates pieces, List.map_map]
  simp [Function.comp_def]

/-- Words with spaces between them are the words of their text. -/
theorem words_intercalate {ws : List String} (h : ∀ w ∈ ws, w ≠ "" ∧ ∀ c ∈ w.toList, isBlank c = false) :
    words (" ".intercalate ws) = ws :=
  map_ofList_runs_intercalate (by decide) fun w hw => ⟨(h w hw).1, fun c hc => by rw [(h w hw).2 c hc]; rfl⟩

/-! ### Pieces and separators -/

/-- What holds of separators and pieces holds of all characters of their text. -/
theorem forall_mem_intercalate {P : Char → Prop} {separator : List Char} {pieces : List (List Char)}
    (hs : ∀ c ∈ separator, P c) (hp : ∀ piece ∈ pieces, ∀ c ∈ piece, P c) :
    ∀ c ∈ separator.intercalate pieces, P c := by
  induction pieces with
  | nil => simp
  | cons piece pieces ih =>
    obtain ⟨first, others⟩ := List.forall_mem_cons.1 hp
    cases pieces with
    | nil => simpa using first
    | cons next pieces =>
      rw [List.intercalate_cons_cons]
      intro c hc
      rcases List.mem_append.1 hc with hc | hc
      · exact (List.mem_append.1 hc).elim (first c) (hs c)
      · exact ih others c hc

/-- The pieces of a text between separators hold its characters without the separator. -/
theorem forall_mem_splitOn {x : Char} {cs : List Char} : ∀ g ∈ cs.splitOn x, ∀ c ∈ g, c ≠ x ∧ c ∈ cs := by
  induction cs with
  | nil => simp
  | cons d cs ih =>
    rw [List.splitOn_cons_eq_if_modifyHead]
    have keep : ∀ g ∈ cs.splitOn x, ∀ c ∈ g, c ≠ x ∧ c ∈ d :: cs := fun g mem c hc =>
      (ih g mem c hc).imp_right (List.mem_cons_of_mem d)
    split
    · simpa using keep
    · rename_i other
      obtain ⟨first, rest, split⟩ := List.exists_cons_of_ne_nil (List.splitOn_ne_nil x cs)
      rw [split] at keep ⊢
      obtain ⟨head, tail⟩ := List.forall_mem_cons.1 keep
      exact List.forall_mem_cons.2
        ⟨List.forall_mem_cons.2 ⟨⟨by simpa using other, List.mem_cons_self ..⟩, head⟩, tail⟩

/-! ### Lines -/

/-- A newline parts the lines before it from those after it. -/
theorem lines_append_newline (s t : String) : lines (s ++ "\n" ++ t) = lines s ++ lines t := by
  have chars : (s ++ "\n" ++ t).toList = s.toList ++ '\n' :: t.toList := by simp
  rw [lines, chars, List.splitOn_append_cons_self, List.map_append]
  rfl

/-- Lines with a newline after each are read back, and the empty one after the last newline. -/
theorem lines_join {ls : List String} (h : ∀ l ∈ ls, '\n' ∉ l.toList) :
    lines (String.join (ls.map (· ++ "\n"))) = ls ++ [""] := by
  induction ls with
  | nil => rfl
  | cons l ls ih =>
    obtain ⟨whole, others⟩ := List.forall_mem_cons.1 h
    have single : lines l = [l] := by
      rw [lines, List.splitOn_eq_singleton whole, List.map_singleton, String.ofList_toList]
    rw [List.map_cons, String.join_cons, lines_append_newline, single, ih others]
    rfl

end Retrieval.Text
