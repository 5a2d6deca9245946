import Mathlib.Logic.Relation
import Retrieval.Proofs.Query.TokenPlaces

/-!
# Blanks between tokens

Blanks part the tokens of a query and do no more. A stretch of blanks may be changed into another, and may vanish where
the tokens are parted without it (`Respacing`); that leaves the tokens as they are (`Respacing.tokensOf_eq`). Every query
becomes its tokens with a blank after each in this way (`respaced_spaced`). So queries have the same tokens exactly if
they differ in their blanks only (`respaced_iff`), and then parsing has the same outcome.
-/

set_option autoImplicit false

namespace Retrieval.Query
open Retrieval.Text

/-- Whether there is nothing but blanks. -/
def Blanks (cs : List Char) : Prop := ∀ c ∈ cs, isBlank c = true

/-- Whether two parts of a text are parted without a blank between them: one of them is empty, or a parenthesis stands
where they meet. -/
def Parted (before after : List Char) : Prop :=
  (∀ c ∈ before.getLast?, isParen c = true) ∨ ∀ c ∈ after.head?, isParen c = true

/-- Whether two texts differ in one stretch of blanks only. It may be there in the one and not in the other where the
text is parted without it. -/
inductive Respacing : List Char → List Char → Prop where
  | swap (before after : List Char) {blanks blanks' : List Char} : Blanks blanks → Blanks blanks' →
      (blanks = [] ↔ blanks' = []) ∨ Parted before after →
      Respacing (before ++ blanks ++ after) (before ++ blanks' ++ after)

/-- Whether two texts differ in their blanks only. -/
def Respaced : List Char → List Char → Prop := Relation.ReflTransGen Respacing

theorem Respacing.symm {cs ds : List Char} (h : Respacing cs ds) : Respacing ds cs := by
  cases h with
  | swap before after hb hb' alike => exact .swap before after hb' hb (alike.imp_left Iff.symm)

theorem Respaced.symm {cs ds : List Char} (h : Respaced cs ds) : Respaced ds cs := by
  induction h with
  | refl => exact .refl
  | tail _ step ih => exact .head step.symm ih

/-! ### Changing blanks does not change the tokens -/

/-- Whether no run goes on from one part into the other. -/
def Apart (before after : List Char) : Prop :=
  (∀ c ∈ before.getLast?, isRunChar c = false) ∨ ∀ c ∈ after.head?, isRunChar c = false

theorem Parted.apart {before after : List Char} (h : Parted before after) : Apart before after :=
  h.imp (fun ends c mem => isRunChar_of_isParen (ends c mem)) fun begins c mem => isRunChar_of_isParen (begins c mem)

theorem Apart.of_append {first rest after : List Char} (h : Apart (first ++ rest) after) : Apart rest after := by
  refine h.imp_left fun ends c last => ends c ?_
  rw [List.getLast?_append, last]
  rfl

/-- What stops a run also stops it in front of another part. -/
theorem Apart.stops {run rest after : List Char} (h : Apart (run ++ rest) after) (some : run ≠ [])
    (all : ∀ c ∈ run, isRunChar c = true) (stops : ∀ c cs, rest = c :: cs → isRunChar c = false) :
    ∀ c cs, rest ++ after = c :: cs → isRunChar c = false := by
  intro c cs front
  cases rest with
  | cons d ds =>
    cases front
    exact stops c ds rfl
  | nil =>
    rcases h with ends | begins
    · have last := ends (run.getLast some) (by rw [List.append_nil, List.getLast?_eq_some_getLast some]; rfl)
      rw [all _ (List.getLast_mem some)] at last
      cases last
    · exact begins c (by rw [show after = c :: cs from front]; rfl)

/-- The tokens of two parts that are apart are those of each. -/
theorem tokensOf_append_of_apart {before after : List Char} (h : Apart before after) :
    tokensOf (before ++ after) = tokensOf before ++ tokensOf after := by
  induction before using text_induction with
  | nil => rw [tokensOf_nil, List.nil_append, List.nil_append]
  | paren c cs paren ih =>
    have rest : Apart cs after := Apart.of_append (show Apart ([c] ++ cs) after from h)
    rw [List.cons_append, tokensOf_cons_of_paren paren, tokensOf_cons_of_paren paren, ih rest, List.cons_append]
  | blank c cs blank ih =>
    have rest : Apart cs after := Apart.of_append (show Apart ([c] ++ cs) after from h)
    rw [List.cons_append, tokensOf_cons_of_blank blank, tokensOf_cons_of_blank blank, ih rest]
  | run run rest some all ends ih =>
    rw [List.append_assoc, tokensOf_append some all (h.stops some all ends), tokensOf_append some all ends,
      ih h.of_append, List.cons_append]

theorem tokensOf_blanks {blanks : List Char} (h : Blanks blanks) : tokensOf blanks = [] := by
  induction blanks with
  | nil => exact tokensOf_nil
  | cons c cs ih =>
    obtain ⟨first, others⟩ := List.forall_mem_cons.1 h
    rw [tokensOf_cons_of_blank first, ih others]

/-- A stretch of blanks parts the tokens before it from those after it. -/
theorem tokensOf_around {before blanks after : List Char} (h : Blanks blanks)
    (parted : blanks ≠ [] ∨ Parted before after) :
    tokensOf (before ++ blanks ++ after) = tokensOf before ++ tokensOf after := by
  by_cases none : blanks = []
  · subst none
    rw [List.append_nil]
    exact tokensOf_append_of_apart (parted.resolve_left fun some => some rfl).apart
  · have ends : Apart (before ++ blanks) after := by
      refine .inl fun c last => isRunChar_of_isBlank (h c ?_)
      rw [List.getLast?_append_of_ne_nil _ none] at last
      exact List.mem_of_getLast? last
    have begins : Apart before blanks :=
      .inr fun c first => isRunChar_of_isBlank (h c (List.mem_of_mem_head? first))
    rw [tokensOf_append_of_apart ends, tokensOf_append_of_apart begins, tokensOf_blanks h, List.append_nil]

/-- The step: changing one stretch of blanks does not change the tokens. -/
theorem Respacing.tokensOf_eq {cs ds : List Char} (h : Respacing cs ds) : tokensOf cs = tokensOf ds := by
  cases h with
  | @swap before after blanks blanks' hb hb' alike =>
    by_cases parted : blanks ≠ [] ∨ Parted before after
    · have parted' : blanks' ≠ [] ∨ Parted before after := by
        rcases alike with empty | parted
        · exact parted.imp_left fun some none => some (empty.2 none)
        · exact .inr parted
      rw [tokensOf_around hb parted, tokensOf_around hb' parted']
    · obtain ⟨none, whole⟩ := not_or.1 parted
      have none : blanks = [] := not_not.1 none
      rw [none, (alike.resolve_right whole).1 none]

/-! ### Every query becomes its tokens -/

/-- The texts of tokens with a blank after each. -/
def spaced (ts : List Token) : List Char := ts.flatMap fun t => t.text.toList ++ [' ']

theorem spaced_cons (t : Token) (ts : List Token) : spaced (t :: ts) = t.text.toList ++ ' ' :: spaced ts := by
  simp [spaced]

theorem blanks_singleton {c : Char} (h : isBlank c = true) : Blanks [c] := List.forall_mem_singleton.2 h

/-- Behind a blank, blanks may come and go as at the beginning. -/
theorem Respacing.behind {cs ds : List Char} (h : Respacing cs ds) (first : List Char) :
    Respacing (first ++ ' ' :: cs) (first ++ ' ' :: ds) := by
  have space : isBlank ' ' = true := by decide
  cases h with
  | @swap before after blanks blanks' hb hb' alike =>
    cases before with
    | nil =>
      have longer := Respacing.swap first after (List.forall_mem_cons.2 ⟨space, hb⟩)
        (List.forall_mem_cons.2 ⟨space, hb'⟩) (.inl (by simp))
      simpa using longer
    | cons c before =>
      have parted (h : Parted (c :: before) after) : Parted (first ++ ' ' :: c :: before) after := by
        refine h.imp_left fun ends d last => ends d ?_
        simpa [List.getLast?_append] using last
      simpa using Respacing.swap (first ++ ' ' :: c :: before) after hb hb' (alike.imp_right parted)

theorem Respaced.behind {cs ds : List Char} (h : Respaced cs ds) (first : List Char) :
    Respaced (first ++ ' ' :: cs) (first ++ ' ' :: ds) := by
  induction h with
  | refl => exact .refl
  | tail _ step ih => exact ih.tail (step.behind first)

/-- Any query becomes its tokens with a blank after each. -/
theorem respaced_spaced (cs : List Char) : Respaced cs (spaced (tokensOf cs)) := by
  have space : Blanks [' '] := blanks_singleton (by decide)
  have nothing : Blanks [] := by simp [Blanks]
  induction cs using text_induction with
  | nil =>
    rw [tokensOf_nil]
    exact .refl
  | paren c cs paren ih =>
    have step : Respacing ([c] ++ [] ++ cs) ([c] ++ [' '] ++ cs) :=
      .swap [c] cs nothing space (.inr (.inl (by simp [paren])))
    rw [tokensOf_cons_of_paren paren, spaced_cons, text_ofText_paren paren, String.toList_ofList]
    exact .head step (ih.behind [c])
  | blank c cs blank ih =>
    have step : Respacing ([] ++ [c] ++ cs) ([] ++ [] ++ cs) :=
      .swap [] cs (blanks_singleton blank) nothing (.inr (.inl (by simp)))
    rw [tokensOf_cons_of_blank blank]
    exact .head step ih
  | run run rest some all ends ih =>
    have step : Respacing (run ++ rest) (run ++ ' ' :: rest) := by
      have insert : Parted run rest → Respacing (run ++ [] ++ rest) (run ++ [' '] ++ rest) := fun parted =>
        .swap run rest nothing space (.inr parted)
      cases rest with
      | nil => simpa using insert (.inr (by simp))
      | cons c cs =>
        rcases isParen_or_isBlank (ends c cs rfl) with paren | blank
        · simpa using insert (.inr (by simp [paren]))
        · have two : Blanks [' ', c] := List.forall_mem_cons.2 ⟨by decide, blanks_singleton blank⟩
          simpa using Respacing.swap run cs (blanks_singleton blank) two (.inl (by simp))
    rw [tokensOf_append some all ends, spaced_cons, Token.text_ofRun, String.toList_ofList]
    exact .head step (ih.behind run)

/-- Texts differ in their blanks only exactly if they have the same tokens. -/
theorem respaced_iff (cs ds : List Char) : Respaced cs ds ↔ tokensOf cs = tokensOf ds := by
  constructor
  · intro h
    induction h with
    | refl => rfl
    | tail _ step ih => rw [ih, step.tokensOf_eq]
  · intro same
    have back := (respaced_spaced ds).symm
    rw [← same] at back
    exact (respaced_spaced cs).trans back

/-! ### Parsing -/

/-- The outcome of parsing a query, and where the parser is after it, are settled by the tokens, and settle them. -/
theorem run_parse_eq_iff (query other : String) :
    (∀ p p' : Parser, (Parser.parse query).run p = (Parser.parse other).run p') ↔ tokenize query = tokenize other := by
  simp only [Parser.run_parse, Parse.position, parse]
  constructor
  · intro same
    exact congrArg (fun outcome => outcome.2.tokens) (same {} {})
  · intro same p p'
    rw [same]

/-- **Tokens by maximal munch.** The tokens of a query are, from left to right, each parenthesis and each maximal run of
characters that are neither blanks nor parentheses. They are the words of the query once blanks have been put around
its parentheses; together they are the query without its blanks; and joined by spaces they have themselves as their
tokens. Two queries have the same outcome in any parsers, with the same error at the same place if there is one, exactly
if they differ in their blanks only: in blanks that stand beside a parenthesis or at an end, and in which blanks and how
many stand in one place elsewhere. -/
theorem tokens_maximal_munch (query : String) :
    (∃ spans : List (Nat × Nat),
      (∀ start stop, (start, stop) ∈ spans ↔ TokenAt query.toList start stop) ∧
      spans.Pairwise (fun s t => s.2 ≤ t.1) ∧
      texts (tokenize query) = spans.map fun s => String.ofList (query.toList.extract s.1 s.2)) ∧
    texts (tokenize query) = words (String.ofList (padded query.toList)) ∧
    String.join (texts (tokenize query)) = String.ofList (query.toList.filter fun c => !isBlank c) ∧
    tokenize (" ".intercalate (texts (tokenize query))) = tokenize query ∧
    ∀ other : String, Respaced query.toList other.toList ↔
      ∀ p p' : Parser, (Parser.parse query).run p = (Parser.parse other).run p' := by
  obtain ⟨spans, placed⟩ := exists_places query.toList
  refine ⟨⟨spans, placed.mem_iff, placed.ascending, placed.texts⟩, ?_, ?_, ?_, fun other => ?_⟩
  · rw [words, String.toList_ofList]
    exact texts_eq_runs_padded query.toList
  · exact join_texts query.toList
  · exact tokenize_join query
  · rw [run_parse_eq_iff]
    exact respaced_iff query.toList other.toList

/-- Blanks beside a parenthesis and at an end, and another blank between words. -/
example : Respaced "(a)\tAND  b".toList " ( a )AND b".toList :=
  (respaced_iff _ _).2 (by cbv)

end Retrieval.Query
