import Mathlib
import Retrieval.Proofs.Query.WrongToken
import Retrieval.Query.Node

/-!
# The functional form of a query

A query is written in functional form, such as `OR(AND(a, b), NOT(c))`. For names of any kind that form is ambiguous: a
term may be named `NOT(a)`. The trees that parsing gives are those whose names are words (`exists_parse_iff`). Among
them the first character tells what a tree is (`capital?_eq_of_sexpr`), and a tree ends where its form does, whatever
comes after it (`sexpr_append_inj`). So the form of a parsed tree can be read back in one way only.
-/

set_option autoImplicit false

namespace Retrieval.Query

/-! ### The trees that parsing gives -/

/-- Whether all names of a query are words. -/
def Worded : Query → Prop
  | .term name => IsWord name
  | .not arg => arg.Worded
  | .join _ left right => left.Worded ∧ right.Worded

theorem Derives.worded {p : Phrase} {ts : List String} {q : Query} (h : Derives p ts q) : q.Worded := by
  induction h with
  | word hname => exact hname
  | group _ ih => exact ih
  | not _ ih => exact ih
  | ofTerm _ ih => exact ih
  | and _ _ ihl ihr => exact ⟨ihl, ihr⟩
  | ofConj _ ih => exact ih
  | or _ _ ihl ihr => exact ⟨ihl, ihr⟩

/-- The texts of tokens in parentheses. -/
def enclosed (ts : List String) : List String := "(" :: ts ++ [")"]

/-- The tokens of a query with parentheses around each operand. -/
def written : Query → List String
  | .term name => [name]
  | .not arg => notText :: enclosed arg.written
  | .join op left right => enclosed left.written ++ op.text :: enclosed right.written

/-- With parentheses, any tree of words is derived. -/
theorem derives_written {q : Query} (h : q.Worded) : Derives .expr q.written q := by
  induction q with
  | term name => exact .ofConj (.ofTerm (.word h))
  | not arg ih => exact .ofConj (.ofTerm (.not (.group (ih h))))
  | join op left right ihl ihr =>
    have left := Derives.group (ihl h.1)
    have right := Derives.group (ihr h.2)
    cases op with
    | and => exact .ofConj (.and (.ofTerm left) right)
    | or => exact .or (.ofConj (.ofTerm left)) (.ofTerm right)

/-- The trees that parsing gives are those whose names are words. -/
theorem exists_parse_iff (tree : Query) :
    (∃ (query : String) (p later : Parser), (Parser.parse query).run p = (.ok tree, later)) ↔ tree.Worded := by
  constructor
  · rintro ⟨query, p, later, parsed⟩
    rw [Parser.run_parse, Prod.mk.injEq] at parsed
    exact ((result_eq_ok_iff query tree).1 parsed.1).worded
  · intro worded
    have derived := derives_written worded
    have parsed := result_eq_ok_iff (" ".intercalate tree.written) tree
    rw [texts_tokenize_join derived.isTokenText] at parsed
    exact ⟨_, {}, _, by rw [Parser.run_parse, parsed.2 derived]⟩

/-! ### Reading the form back -/

theorem sexpr_term (name : String) : (term name).sexpr.toList = name.toList := rfl

theorem sexpr_not (arg : Query) : arg.not.sexpr.toList = notText.toList ++ '(' :: (arg.sexpr.toList ++ [')']) := by
  show (notText ++ "(" ++ arg.sexpr ++ ")").toList = _
  simp

theorem sexpr_join (op : Connective) (left right : Query) :
    (join op left right).sexpr.toList =
      op.text.toList ++ '(' :: (left.sexpr.toList ++ ',' :: ' ' :: (right.sexpr.toList ++ [')'])) := by
  show (op.text ++ "(" ++ left.sexpr ++ ", " ++ right.sexpr ++ ")").toList = _
  simp

/-- The capital letter that the form of a query begins with, none for a term. -/
def capital? : Query → Option Char
  | .term _ => none
  | .not _ => some 'N'
  | .join .and _ _ => some 'A'
  | .join .or _ _ => some 'O'

theorem exists_capital? {q : Query} (h : q.Worded) :
    ∃ c cs, q.sexpr.toList = c :: cs ∧ q.capital? = if isSmallLetter c then none else some c := by
  cases q with
  | term name =>
    obtain ⟨c, cs, chars⟩ := List.exists_cons_of_ne_nil (IsWord.toList_ne_nil h)
    have small := h.2 c (by simp [chars])
    exact ⟨c, cs, chars, by rw [if_pos small]; rfl⟩
  | not arg => exact ⟨_, _, sexpr_not arg, rfl⟩
  | join op left right => cases op <;> exact ⟨_, _, sexpr_join _ left right, rfl⟩

/-- The first character tells what a tree is. -/
theorem capital?_eq_of_sexpr {q q' : Query} (hq : q.Worded) (hq' : q'.Worded) {rest rest' : List Char}
    (h : q.sexpr.toList ++ rest = q'.sexpr.toList ++ rest') : q.capital? = q'.capital? := by
  obtain ⟨c, cs, chars, kind⟩ := exists_capital? hq
  obtain ⟨c', cs', chars', kind'⟩ := exists_capital? hq'
  rw [chars, chars'] at h
  rw [kind, kind', (List.cons.inj h).1]

/-- Whether what follows a name is no letter of it. -/
def Stops (rest : List Char) : Prop := ∀ c cs, rest = c :: cs → isSmallLetter c = false

theorem stops_cons {c : Char} (h : isSmallLetter c = false) (cs : List Char) : Stops (c :: cs) := by
  rintro d ds same
  cases same
  exact h

/-- A tree ends where its form does, whatever comes after it. -/
theorem sexpr_append_inj {q q' : Query} (hq : q.Worded) (hq' : q'.Worded) {rest rest' : List Char} (hr : Stops rest)
    (hr' : Stops rest') (h : q.sexpr.toList ++ rest = q'.sexpr.toList ++ rest') : q = q' ∧ rest = rest' := by
  have closing (cs : List Char) : Stops (')' :: cs) := stops_cons (by decide) cs
  have comma (cs : List Char) : Stops (',' :: cs) := stops_cons (by decide) cs
  induction q generalizing q' rest rest' with
  | term name =>
    have kinds := capital?_eq_of_sexpr hq hq' h
    cases q' with
    | term name' =>
      obtain ⟨word, left⟩ := Text.span_append hq.2 hr
      obtain ⟨word', left'⟩ := Text.span_append hq'.2 hr'
      rw [sexpr_term, sexpr_term] at h
      rw [h] at word left
      have names : name = name' := String.toList_injective (word.symm.trans word')
      exact ⟨congrArg term names, left.symm.trans left'⟩
    | not arg' => cases kinds
    | join op' left' right' => cases op' <;> cases kinds
  | not arg ih =>
    have kinds := capital?_eq_of_sexpr hq hq' h
    cases q' with
    | term name' => cases kinds
    | not arg' =>
      simp only [sexpr_not, List.append_assoc, List.cons_append, List.nil_append] at h
      obtain ⟨-, inner⟩ := List.cons.inj (List.append_cancel_left h)
      have worded : arg'.Worded := hq'
      obtain ⟨rfl, same⟩ := ih hq worded (closing rest) (closing rest') inner
      exact ⟨rfl, (List.cons.inj same).2⟩
    | join op' left' right' => cases op' <;> simp [capital?] at kinds
  | join op left right ihl ihr =>
    have kinds := capital?_eq_of_sexpr hq hq' h
    cases q' with
    | term name' => cases op <;> cases kinds
    | not arg' => cases op <;> simp [capital?] at kinds
    | join op' left' right' =>
      obtain rfl : op = op' := by
        cases op <;> cases op' <;> first | rfl | simp [capital?] at kinds
      simp only [sexpr_join, List.append_assoc, List.cons_append, List.nil_append] at h
      obtain ⟨-, inner⟩ := List.cons.inj (List.append_cancel_left h)
      obtain ⟨rfl, later⟩ := ihl hq.1 hq'.1 (comma _) (comma _) inner
      obtain ⟨-, later⟩ := List.cons.inj later
      obtain ⟨-, later⟩ := List.cons.inj later
      obtain ⟨rfl, same⟩ := ihr hq.2 hq'.2 (closing rest) (closing rest') later
      exact ⟨rfl, (List.cons.inj same).2⟩

/-- Queries in functional form are the same if their names are words and their texts are the same. -/
theorem sexpr_inj {q q' : Query} (hq : q.Worded) (hq' : q'.Worded) (h : q.sexpr = q'.sexpr) : q = q' := by
  have nothing : Stops [] := by
    rintro c cs same
    cases same
  have chars : q.sexpr.toList ++ [] = q'.sexpr.toList ++ [] := by rw [h]
  exact (sexpr_append_inj hq hq' nothing nothing chars).1

/-- **The functional form of a parsed query is unambiguous.** Whatever parsers, having parsed whatever before, give two
trees: these are the same exactly if they are written alike in functional form. -/
theorem sexpr_eq_iff_of_parsed {query query' : String} {p p' later later' : Parser} {tree tree' : Query}
    (h : (Parser.parse query).run p = (.ok tree, later)) (h' : (Parser.parse query').run p' = (.ok tree', later')) :
    tree.sexpr = tree'.sexpr ↔ tree = tree' := by
  have worded : tree.Worded := (exists_parse_iff tree).1 ⟨query, p, later, h⟩
  have worded' : tree'.Worded := (exists_parse_iff tree').1 ⟨query', p', later', h'⟩
  constructor
  · intro same
    exact sexpr_inj worded worded' same
  · intro same
    rw [same]

/-- Two queries that differ in their parentheses only are parsed as different trees, which are written differently. -/
theorem sexpr_of_other_grouping :
    ∃ tree tree' later later',
      (Parser.parse "a OR b AND NOT c").run {} = (.ok tree, later) ∧
      (Parser.parse "(a OR b) AND NOT c").run {} = (.ok tree', later') ∧
      tree.sexpr = "OR(a, AND(b, NOT(c)))" ∧ tree'.sexpr = "AND(OR(a, b), NOT(c))" ∧ tree ≠ tree' := by
  have first : (Parser.parse "a OR b AND NOT c").run {} =
      (.ok (.join .or (.term "a") (.join .and (.term "b") (.not (.term "c")))),
        ⟨tokenize "a OR b AND NOT c", 6⟩) := by
    rw [Parser.run_parse]
    cbv
  have second : (Parser.parse "(a OR b) AND NOT c").run {} =
      (.ok (.join .and (.join .or (.term "a") (.term "b")) (.not (.term "c"))),
        ⟨tokenize "(a OR b) AND NOT c", 8⟩) := by
    rw [Parser.run_parse]
    cbv
  refine ⟨_, _, _, _, first, second, by decide, by decide, ?_⟩
  rw [Ne, ← sexpr_eq_iff_of_parsed first second]
  decide

/-- A name that is no word can be written like another tree. -/
example : (term "NOT(a)").sexpr = (not (term "a")).sexpr := by decide

end Retrieval.Query
