import Retrieval.Proofs.Query.Evaluation
import Retrieval.Searcher

/-!
# Malformed trees

A node of a tree is malformed by itself, whatever its operands are (`Node.defect?`). Evaluating a tree fails exactly if
one of its nodes is malformed, and reports the first of them, where a node comes before its operands and the left operand
before the right one (`evaluate_eq_elim`). So a malformed operand is never passed over because the other operand has no
documents. The trees without malformed nodes are those of queries (`sound_iff`); a boolean search, which evaluates what
the parser made, has no errors but the parser's (`evaluate_rejects_malformed`).
-/

set_option autoImplicit false

namespace Retrieval.Query

/-- The texts that stand for a connective. -/
theorem Connective.ofText?_isSome_iff {op : Option String} :
    (Connective.ofText? op).isSome = true ↔ op = some Connective.and.text ∨ op = some Connective.or.text := by
  simp [Connective.ofText?]

namespace Node

/-- The nodes of a tree, each before its operands and the left operand before the right one. -/
def nodes : Node → List Node
  | .term name => [.term name]
  | .unary op arg => .unary op arg :: arg.nodes
  | .binary op left right => .binary op left right :: (left.nodes ++ right.nodes)
  | .raw v => [.raw v]

/-- What is wrong with a node itself: a unary operator other than negation, a binary one that is no connective, or a
value that is no node. -/
def defect? : Node → Option NodeError
  | .term _ => none
  | .unary op _ => if op = some notText then none else some (.unknownUnary op)
  | .binary op _ _ =>
    if op = some Connective.and.text ∨ op = some Connective.or.text then none else some (.unknownBinary op)
  | .raw v => some (.unknownNode (typeName v))

/-- No node of the tree is malformed. -/
def Sound (n : Node) : Prop := ∀ m ∈ n.nodes, m.defect? = none

/-- What is wrong with the first malformed node of a tree. -/
def firstDefect? (n : Node) : Option NodeError := n.nodes.findSome? defect?

/-! ### The first defect, by the form of a tree -/

theorem firstDefect?_unary (op : Option String) (arg : Node) :
    (Node.unary op arg).firstDefect? = if op = some notText then arg.firstDefect? else some (.unknownUnary op) := by
  by_cases known : op = some notText
  · simp [firstDefect?, nodes, defect?, known]
  · simp [firstDefect?, nodes, defect?, known]

theorem firstDefect?_binary (op : Option String) (left right : Node) :
    (Node.binary op left right).firstDefect? =
      if (Connective.ofText? op).isSome then left.firstDefect?.or right.firstDefect?
      else some (.unknownBinary op) := by
  simp only [Connective.ofText?_isSome_iff]
  by_cases known : op = some Connective.and.text ∨ op = some Connective.or.text
  · simp [firstDefect?, nodes, defect?, known]
  · simp [firstDefect?, nodes, defect?, known]

theorem sound_iff_firstDefect? {n : Node} : n.Sound ↔ n.firstDefect? = none :=
  List.findSome?_eq_none_iff.symm

/-- The first defect is that of a malformed node before which there is none. -/
theorem firstDefect?_eq_some_iff {n : Node} {e : NodeError} :
    n.firstDefect? = some e ↔ ∃ before m after, n.nodes = before ++ m :: after ∧
      (∀ k ∈ before, k.defect? = none) ∧ m.defect? = some e := by
  rw [firstDefect?, List.findSome?_eq_some_iff]
  constructor
  · rintro ⟨before, m, after, place, wrong, sound⟩
    exact ⟨before, m, after, place, sound, wrong⟩
  · rintro ⟨before, m, after, place, sound, wrong⟩
    exact ⟨before, m, after, place, wrong, sound⟩

theorem exists_firstDefect?_iff {n : Node} :
    (∃ e, n.firstDefect? = some e) ↔ ∃ m ∈ n.nodes, ∃ e, m.defect? = some e := by
  constructor
  · rintro ⟨e, first⟩
    obtain ⟨m, mem, wrong⟩ := List.exists_of_findSome?_eq_some first
    exact ⟨m, mem, e, wrong⟩
  · rintro ⟨m, mem, e, wrong⟩
    rw [← Option.ne_none_iff_exists', ne_eq, ← sound_iff_firstDefect?]
    intro sound
    rw [sound m mem] at wrong
    cases wrong

/-! ### Evaluation -/

/-- Evaluating a tree reports its first defect, and gives a list if there is none. -/
theorem evaluate_eq_elim {α : Type} (ix : Index α) (among : Option (List Int)) (stem : Option (String → String))
    (n : Node) : ∃ ids, n.evaluate ix among stem = n.firstDefect?.elim (.ok ids) .error := by
  induction n with
  | term name => exact ⟨_, rfl⟩
  | unary op arg ih =>
    obtain ⟨ids, h⟩ := ih
    refine ⟨Merge.complement ids (among.getD ix.allDocs), ?_⟩
    rw [evaluate, firstDefect?_unary, h]
    split
    · cases arg.firstDefect? <;> rfl
    · rfl
  | binary op left right ihl ihr =>
    obtain ⟨ids, hl⟩ := ihl
    obtain ⟨ids', hr⟩ := ihr
    rw [firstDefect?_binary]
    cases known : Connective.ofText? op with
    | none =>
      refine ⟨[], ?_⟩
      rw [evaluate, known]
      rfl
    | some c =>
      refine ⟨c.merge ids ids', ?_⟩
      rw [evaluate, known, hl, hr]
      -- The right operand is evaluated whatever the left one gives, unless that is an error.
      cases left.firstDefect? with
      | some e => rfl
      | none => cases right.firstDefect? <;> rfl
  | raw v => exact ⟨[], rfl⟩

/-! ### Trees of queries -/

theorem sound_ofQuery (q : Query) : (ofQuery q).Sound := by
  rw [sound_iff_firstDefect?]
  induction q with
  | term name => rfl
  | not arg ih => rw [ofQuery, firstDefect?_unary, if_pos rfl, ih]
  | join op left right ihl ihr =>
    rw [ofQuery, firstDefect?_binary, Connective.ofText?_text, ihl, ihr]
    rfl

/-- The trees without malformed nodes are those of queries. -/
theorem sound_iff {n : Node} : n.Sound ↔ ∃ q, n = ofQuery q := by
  constructor
  · rw [sound_iff_firstDefect?]
    intro sound
    induction n with
    | term name => exact ⟨.term name, rfl⟩
    | unary op arg ih =>
      rw [firstDefect?_unary] at sound
      split at sound
      · rename_i known
        obtain ⟨q, rfl⟩ := ih sound
        exact ⟨.not q, by rw [ofQuery, known]⟩
      · cases sound
    | binary op left right ihl ihr =>
      rw [firstDefect?_binary] at sound
      split at sound
      · rename_i known
        obtain ⟨soundLeft, soundRight⟩ := Option.or_eq_none_iff.1 sound
        obtain ⟨l, rfl⟩ := ihl soundLeft
        obtain ⟨r, rfl⟩ := ihr soundRight
        rcases Connective.ofText?_isSome_iff.1 known with rfl | rfl
        · exact ⟨.join .and l r, rfl⟩
        · exact ⟨.join .or l r, rfl⟩
      · cases sound
    | raw v => cases sound
  · rintro ⟨q, rfl⟩
    exact sound_ofQuery q

/-- **Evaluation rejects exactly the malformed trees.** On every index, relative to any documents and with any stemmer,
evaluating a tree is an error exactly if one of its nodes is malformed, the error is that of the first such node, and
otherwise there is a list. What the parser makes has no malformed nodes, so a boolean search that parses a query and
evaluates its tree has no errors but those of the parser. -/
theorem evaluate_rejects_malformed {α : Type} (ix : Index α) (among : Option (List Int))
    (stem : Option (String → String)) (n : Node) :
    ((∃ e, n.evaluate ix among stem = .error e) ↔ ∃ m ∈ n.nodes, ∃ e, m.defect? = some e) ∧
      (∀ e, n.evaluate ix among stem = .error e → ∃ before m after, n.nodes = before ++ m :: after ∧
        (∀ k ∈ before, k.defect? = none) ∧ m.defect? = some e) ∧
      ((∃ ids, n.evaluate ix among stem = .ok ids) ↔ n.Sound) ∧
      (n.Sound ↔ ∃ q, n = ofQuery q) ∧
      ∀ (s : Searcher α) (query : String),
        match (parse query).result with
        | .error e => s.boolean query = .error e
        | .ok tree => (ofQuery tree).Sound ∧
          ∃ ids, (ofQuery tree).evaluate s.index (some s.index.allDocs) (some s.normalizer.stem) = .ok ids ∧
            s.boolean query = .ok ids := by
  obtain ⟨ids, evaluated⟩ := evaluate_eq_elim ix among stem n
  have fails (e : NodeError) : n.evaluate ix among stem = .error e ↔ n.firstDefect? = some e := by
    rw [evaluated]
    cases n.firstDefect? <;> simp
  have succeeds : (∃ ids, n.evaluate ix among stem = .ok ids) ↔ n.Sound := by
    rw [evaluated, sound_iff_firstDefect?]
    cases n.firstDefect? <;> simp
  refine ⟨?_, fun e failed => firstDefect?_eq_some_iff.1 ((fails e).1 failed), succeeds, sound_iff, fun s query => ?_⟩
  · simp only [fails]
    exact exists_firstDefect?_iff
  · cases parsed : (parse query).result with
    | error e =>
      show s.boolean query = .error e
      rw [Searcher.boolean, parsed]
      rfl
    | ok tree =>
      refine ⟨sound_ofQuery tree, s.matching tree, evaluate_ofQuery _ _ _ tree, ?_⟩
      rw [Searcher.boolean, parsed]
      rfl

end Node
end Retrieval.Query
