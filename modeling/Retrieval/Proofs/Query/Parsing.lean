import Retrieval.Proofs.Query.Grammar
import Retrieval.Proofs.Steps

/-!
# The parser reads the grammar

The readers of the parser hand on what is left together with a proof that it is shorter; `takeTerm`, `takeChain` and
`takeOperand` are the same readers without the proofs. What waits on the stack has been read as far as the connective
after it, conjunctions above disjunctions (`Pending`); reading a term and the chain after it keeps that
(`Pending.push`) and ends in a query (`Pending.unwind`). Whatever such steps keep holds of all that is read
(`Keeps.take`). The other direction is an induction on derivations: a phrase in front of other tokens is read as far as
it goes (`reads_of_derives`).
-/

set_option autoImplicit false

namespace Retrieval.Query

/-! ### The readers without their bounds -/

/-- What is read, and what is left as a mere list of tokens. -/
def forget {P : List Token → Prop} (r : Except Failure (Query × { rest : List Token // P rest })) :
    Except Failure (Query × List Token) :=
  r.map fun (q, rest) => (q, rest.val)

/-- Reads a term. -/
def takeTerm (ts : List Token) : Except Failure (Query × List Token) := forget (readTerm ts)

/-- Reads the connectives and terms that follow the current query. -/
def takeChain (waiting : Waiting) (current : Query) (ts : List Token) : Except Failure (Query × List Token) :=
  forget (readChain waiting current ts)

/-- Reads a term and what follows it, where other queries may be waiting. -/
def takeOperand (waiting : Waiting) (ts : List Token) : Except Failure (Query × List Token) :=
  match takeTerm ts with
  | .error e => .error e
  | .ok (q, rest) => takeChain waiting q rest

/-- What waits once a connective has been read after the current query. -/
def push (op : Connective) (waiting : Waiting) (current : Query) : Waiting :=
  ((reduce op waiting current).2, op) :: (reduce op waiting current).1

theorem forget_readExpression (ts : List Token) : forget (readExpression ts) = takeOperand [] ts := by
  rw [readExpression, takeOperand, takeTerm]
  cases readTerm ts with
  | error e => rfl
  | ok p =>
    obtain ⟨q, rest, h⟩ := p
    simp only [forget, Except.map, takeChain]
    cases readChain [] q rest <;> rfl

theorem takeTerm_nil : takeTerm [] = .error ⟨.endOfQuery, []⟩ := by
  rw [takeTerm, readTerm]
  rfl

theorem takeTerm_word (name : String) (ts : List Token) : takeTerm (.word name :: ts) = .ok (.term name, ts) := by
  rw [takeTerm, readTerm]
  rfl

theorem takeTerm_leftParen (ts : List Token) :
    takeTerm (.leftParen :: ts) =
      match takeOperand [] ts with
      | .error e => .error e
      | .ok (q, .rightParen :: rest) => .ok (q, rest)
      | .ok (_, []) => .error ⟨.unclosed, []⟩
      | .ok (_, token :: rest) => .error ⟨.expectedOperatorOrClosing token, token :: rest⟩ := by
  rw [← forget_readExpression, takeTerm, readTerm]
  cases readExpression ts with
  | error e => rfl
  | ok p =>
    obtain ⟨q, rest, h⟩ := p
    cases rest with
    | nil => rfl
    | cons t rest => cases t <;> rfl

theorem takeTerm_not (ts : List Token) :
    takeTerm (.not :: ts) =
      match takeTerm ts with
      | .error e => .error e
      | .ok (q, rest) => .ok (.not q, rest) := by
  rw [takeTerm, takeTerm, readTerm]
  cases readTerm ts with
  | error e => rfl
  | ok p => rfl

theorem takeTerm_connective (op : Connective) (ts : List Token) :
    takeTerm (.connective op :: ts) = .error ⟨.operatorInPlaceOfTerm op, .connective op :: ts⟩ := by
  rw [takeTerm, readTerm]
  rfl

theorem takeTerm_rightParen (ts : List Token) :
    takeTerm (.rightParen :: ts) = .error ⟨.unexpectedClosing, .rightParen :: ts⟩ := by
  rw [takeTerm, readTerm]
  rfl

theorem takeTerm_other (text : String) (ts : List Token) :
    takeTerm (.other text :: ts) = .error ⟨.invalidToken text, .other text :: ts⟩ := by
  rw [takeTerm, readTerm]
  rfl

theorem takeChain_connective (waiting : Waiting) (current : Query) (op : Connective) (ts : List Token) :
    takeChain waiting current (.connective op :: ts) = takeOperand (push op waiting current) ts := by
  rw [takeChain, readChain, takeOperand, takeTerm]
  cases readTerm ts with
  | error e => rfl
  | ok p =>
    obtain ⟨q, rest, h⟩ := p
    simp only [forget, Except.map, takeChain, push]
    cases readChain (((reduce op waiting current).2, op) :: (reduce op waiting current).1) q rest <;> rfl

theorem takeChain_of_not_connective {ts : List Token} (h : ∀ op us, ts ≠ .connective op :: us) (waiting : Waiting)
    (current : Query) : takeChain waiting current ts = .ok (unwind waiting current, ts) := by
  rw [takeChain]
  cases ts with
  | nil =>
    rw [readChain]
    · rfl
    · simp
  | cons t ts =>
    rw [readChain]
    · rfl
    · rintro op us e
      exact h op us e

/-- The parser reads one expression, which has to take all tokens. -/
theorem ofTokens_eq_ok_iff {ts : List Token} {q : Query} : ofTokens ts = .ok q ↔ takeOperand [] ts = .ok (q, []) := by
  rw [ofTokens, ← forget_readExpression]
  by_cases h : ts = []
  · subst h
    rw [if_pos rfl, readExpression, readTerm]
    simp [forget, Except.map]
  · rw [if_neg h]
    cases readExpression ts with
    | error e => simp [forget, Except.map]
    | ok p =>
      obtain ⟨q', rest, hr⟩ := p
      cases rest with
      | nil => simp [forget, Except.map]
      | cons t rest => cases t <;> simp [forget, Except.map]

/-! ### What waits -/

/-- Whether only disjunctions wait. -/
def OrOnly (waiting : Waiting) : Prop := ∀ p ∈ waiting, p.2 = .or

/-- The texts that have been read up to the current query, given what waits: at most a query before a disjunction, and
above it at most a conjunction. -/
inductive Pending : Waiting → List String → Prop where
  | nothing : Pending [] []
  | or {ts : List String} {l : Query} : Derives .expr ts l → Pending [(l, .or)] (ts ++ ["OR"])
  | and {waiting : Waiting} {us ts : List String} {l : Query} : Pending waiting us → OrOnly waiting →
      Derives .conj ts l → Pending ((l, .and) :: waiting) (us ++ (ts ++ ["AND"]))

/-- A waiting conjunction is joined to the current query whatever connective comes. -/
theorem push_and (op : Connective) (l : Query) (waiting : Waiting) (q : Query) :
    push op ((l, .and) :: waiting) q = push op waiting (.join .and l q) := by
  cases op <;> rfl

theorem unwind_cons (l : Query) (op : Connective) (waiting : Waiting) (q : Query) :
    unwind ((l, op) :: waiting) q = unwind waiting (.join op l q) := rfl

/-- The current query may as well be joined to a waiting conjunction at once. -/
theorem takeChain_and (l : Query) (waiting : Waiting) (q : Query) (ts : List Token) :
    takeChain ((l, .and) :: waiting) q ts = takeChain waiting (.join .and l q) ts := by
  by_cases h : ∃ op us, ts = .connective op :: us
  · obtain ⟨op, us, rfl⟩ := h
    rw [takeChain_connective, takeChain_connective, push_and]
  · have h : ∀ op us, ts ≠ .connective op :: us := fun op us e => h ⟨op, us, e⟩
    rw [takeChain_of_not_connective h, takeChain_of_not_connective h, unwind_cons]

/-- A conjunction comes first; otherwise the current query may as well be joined to a waiting disjunction at once. -/
theorem takeChain_or (l q : Query) {ts : List Token} (h : ∀ us, ts ≠ .connective .and :: us) :
    takeChain [(l, .or)] q ts = takeChain [] (.join .or l q) ts := by
  by_cases hc : ∃ op us, ts = .connective op :: us
  · obtain ⟨op, us, rfl⟩ := hc
    cases op with
    | and => exact absurd rfl (h us)
    | or => rw [takeChain_connective, takeChain_connective]; rfl
  · have hc : ∀ op us, ts ≠ .connective op :: us := fun op us e => hc ⟨op, us, e⟩
    rw [takeChain_of_not_connective hc, takeChain_of_not_connective hc, unwind_cons]

/-- Above disjunctions a connective may follow any conjunction. -/
theorem Pending.push_conj {waiting : Waiting} {us ts : List String} {q : Query} (h : Pending waiting us)
    (only : OrOnly waiting) (hq : Derives .conj ts q) (op : Connective) :
    Pending (push op waiting q) (us ++ (ts ++ [op.text])) := by
  cases h with
  | nothing =>
    cases op with
    | and => exact .and .nothing only hq
    | or => exact .or (.ofConj hq)
  | or hl =>
    cases op with
    | and => exact .and (.or hl) only hq
    | or =>
      have joined := Pending.or (Derives.or hl hq)
      simpa [Query.push, reduce, Connective.precedence, Connective.text] using joined
  | and => exact absurd (only _ (List.mem_cons_self ..)) (by simp)

/-- The step: a term and the connective after it have been read. -/
theorem Pending.push {waiting : Waiting} {us ts : List String} {q : Query} (h : Pending waiting us)
    (hq : Derives .term ts q) (op : Connective) : Pending (push op waiting q) (us ++ (ts ++ [op.text])) := by
  cases h with
  | nothing => exact Pending.nothing.push_conj (by simp [OrOnly]) (.ofTerm hq) op
  | or hl => exact (Pending.or hl).push_conj (by simp [OrOnly]) (.ofTerm hq) op
  | and below only hl =>
    rw [push_and]
    simpa using below.push_conj only (.and hl hq) op

theorem Pending.unwind_conj {waiting : Waiting} {us ts : List String} {q : Query} (h : Pending waiting us)
    (only : OrOnly waiting) (hq : Derives .conj ts q) : Derives .expr (us ++ ts) (unwind waiting q) := by
  cases h with
  | nothing => exact .ofConj hq
  | or hl =>
    rw [List.append_assoc]
    exact .or hl hq
  | and => exact absurd (only _ (List.mem_cons_self ..)) (by simp)

/-- The end: the last term has been read. -/
theorem Pending.unwind {waiting : Waiting} {us ts : List String} {q : Query} (h : Pending waiting us)
    (hq : Derives .term ts q) : Derives .expr (us ++ ts) (unwind waiting q) := by
  cases h with
  | nothing => exact Pending.nothing.unwind_conj (by simp [OrOnly]) (.ofTerm hq)
  | or hl => exact (Pending.or hl).unwind_conj (by simp [OrOnly]) (.ofTerm hq)
  | and below only hl =>
    rw [unwind_cons]
    simpa using below.unwind_conj only (.and hl hq)

/-! ### What is read is derived -/

/-- What the steps of reading keep: `term` holds of the tokens and the tree of a term, `waits` of what waits and the
tokens up to the current term, and `expr` of the tokens and the tree of a query. Tokens count as what `view` makes of
them, where `valid` holds of each. -/
structure Keeps {β : Type} (view : Token → β) (valid : Token → Prop) (term : List β → Query → Prop)
    (waits : Waiting → List β → Prop) (expr : List β → Query → Prop) : Prop where
  word {name : String} : valid (.word name) → term [view (.word name)] (.term name)
  group {ts : List β} {q : Query} : expr ts q → term (view .leftParen :: ts ++ [view .rightParen]) q
  not {ts : List β} {q : Query} : term ts q → term (view .not :: ts) (.not q)
  start : waits [] []
  push {waiting : Waiting} {us ts : List β} {q : Query} : waits waiting us → term ts q →
    ∀ op, waits (Query.push op waiting q) (us ++ (ts ++ [view (.connective op)]))
  unwind {waiting : Waiting} {us ts : List β} {q : Query} : waits waiting us → term ts q →
    expr (us ++ ts) (Query.unwind waiting q)

/-- What each step keeps holds of a term that is read, and of a query that is read with what waits before it. -/
theorem Keeps.take {β : Type} {view : Token → β} {valid : Token → Prop} {term expr : List β → Query → Prop}
    {waits : Waiting → List β → Prop} (keeps : Keeps view valid term waits expr) (ts : List Token)
    (all : ∀ t ∈ ts, valid t) :
    (∀ q rest, takeTerm ts = .ok (q, rest) → ∃ used, ts = used ++ rest ∧ used ≠ [] ∧ term (used.map view) q) ∧
    (∀ waiting us q rest, waits waiting us → takeOperand waiting ts = .ok (q, rest) →
      ∃ used, ts = used ++ rest ∧ used ≠ [] ∧ expr (us ++ used.map view) q ∧
        ∀ op vs, rest ≠ .connective op :: vs) := by
  induction h : ts.length using Nat.strongRecOn generalizing ts with
  | ind n ih =>
    -- a term is read first, and a query from the term and what is left after it
    have terms : ∀ q rest, takeTerm ts = .ok (q, rest) →
        ∃ used, ts = used ++ rest ∧ used ≠ [] ∧ term (used.map view) q := by
      intro q rest read
      cases ts with
      | nil => simp [takeTerm_nil] at read
      | cons t ts =>
        have shorter := ih ts.length (by simp [← h]) ts (fun u hu => all u (List.mem_cons_of_mem t hu)) rfl
        cases t with
        | word name =>
          rw [takeTerm_word] at read
          cases read
          exact ⟨[.word name], rfl, by simp, keeps.word (all _ (List.mem_cons_self ..))⟩
        | leftParen =>
          rw [takeTerm_leftParen] at read
          cases inner : takeOperand [] ts with
          | error e => simp [inner] at read
          | ok p =>
            obtain ⟨q', rest'⟩ := p
            obtain ⟨used, hts, -, kept, -⟩ := shorter.2 [] [] q' rest' keeps.start inner
            rw [inner] at read
            cases rest' with
            | nil => cases read
            | cons u rest' =>
              cases u <;> cases read
              exact ⟨.leftParen :: used ++ [.rightParen], by simp [hts], by simp, by simpa using keeps.group kept⟩
        | not =>
          rw [takeTerm_not] at read
          cases inner : takeTerm ts with
          | error e => simp [inner] at read
          | ok p =>
            obtain ⟨q', rest'⟩ := p
            obtain ⟨used, hts, -, kept⟩ := shorter.1 q' rest' inner
            rw [inner] at read
            cases read
            exact ⟨.not :: used, by simp [hts], by simp, keeps.not kept⟩
        | connective op => simp [takeTerm_connective] at read
        | rightParen => simp [takeTerm_rightParen] at read
        | other text => simp [takeTerm_other] at read
    refine ⟨terms, fun waiting us q rest waits read => ?_⟩
    rw [takeOperand] at read
    cases first : takeTerm ts with
    | error e => simp [first] at read
    | ok p =>
      obtain ⟨q', rest'⟩ := p
      obtain ⟨used, hts, some_used, kept⟩ := terms q' rest' first
      have read : takeChain waiting q' rest' = .ok (q, rest) := by
        rw [first] at read
        exact read
      by_cases hc : ∃ op vs, rest' = .connective op :: vs
      · obtain ⟨op, vs, rfl⟩ := hc
        rw [takeChain_connective] at read
        have shorter := ih vs.length (by simp only [← h, hts, List.length_append, List.length_cons]; omega) vs
          (fun u hu => all u (by simp [hts, hu])) rfl
        obtain ⟨used', hvs, -, kept', stops⟩ := shorter.2 _ _ q rest (keeps.push waits kept op) read
        refine ⟨used ++ .connective op :: used', by simp [hts, hvs], by simp, ?_, stops⟩
        simpa using kept'
      · have stops : ∀ op vs, rest' ≠ .connective op :: vs := fun op vs e => hc ⟨op, vs, e⟩
        rw [takeChain_of_not_connective stops] at read
        cases read
        exact ⟨used, hts, some_used, keeps.unwind waits kept, stops⟩

/-- Reading keeps to the grammar. -/
theorem keeps_derives : Keeps Token.text Token.Lexed (Derives .term) Pending (Derives .expr) where
  word lexed := .word lexed.isWord
  group := .group
  not := .not
  start := .nothing
  push := Pending.push
  unwind := Pending.unwind

/-- A term that is read is a term of the grammar, and so is a query with what waits before it. -/
theorem derives_of_take (ts : List Token) (lexed : ∀ t ∈ ts, t.Lexed) :
    (∀ q rest, takeTerm ts = .ok (q, rest) → ∃ used, ts = used ++ rest ∧ Derives .term (texts used) q) ∧
    (∀ waiting us q rest, Pending waiting us → takeOperand waiting ts = .ok (q, rest) →
      ∃ used, ts = used ++ rest ∧ used ≠ [] ∧ Derives .expr (us ++ texts used) q ∧
        ∀ op vs, rest ≠ .connective op :: vs) := by
  obtain ⟨terms, queries⟩ := keeps_derives.take ts lexed
  refine ⟨fun q rest read => ?_, queries⟩
  obtain ⟨used, hts, -, derived⟩ := terms q rest read
  exact ⟨used, hts, derived⟩

/-! ### What is derived is read -/

/-- What reading a phrase in front of other tokens comes to. -/
def Reads (ts : List Token) (q : Query) : Phrase → Prop
  | .term => ∀ rest, takeTerm (ts ++ rest) = .ok (q, rest)
  | .conj => ∀ waiting rest, OrOnly waiting → takeOperand waiting (ts ++ rest) = takeChain waiting q rest
  | .expr => ∀ rest, (∀ us, rest ≠ .connective .and :: us) → takeOperand [] (ts ++ rest) = takeChain [] q rest

theorem reads_of_derives {p : Phrase} {words : List String} {q : Query} (h : Derives p words q) :
    ∀ ts, (∀ t ∈ ts, t.Lexed) → texts ts = words → Reads ts q p := by
  induction h with
  | @word name hname =>
    intro ts lexed e rest
    obtain ⟨t, hts, ht⟩ := List.map_eq_singleton_iff.1 e
    have ht : t = .word name :=
      (lexed t (by simp [hts])).eq_of_text (by rw [ht, Token.ofText_of_isWord hname])
    rw [hts, ht]
    exact takeTerm_word name rest
  | @group words q _ ih =>
    intro ts lexed e rest
    obtain ⟨front, back, rfl, hf, hb⟩ := List.map_eq_append_iff.1 e
    obtain ⟨t, inner, rfl, ht, hinner⟩ := List.map_eq_cons_iff.1 hf
    obtain ⟨u, rfl, hu⟩ := List.map_eq_singleton_iff.1 hb
    obtain rfl := (lexed t (by simp)).eq_of_text (u := .leftParen) (by rw [ht]; rfl)
    obtain rfl := (lexed u (by simp)).eq_of_text (u := .rightParen) (by rw [hu]; rfl)
    have read := ih inner (fun v hv => lexed v (by simp [hv])) hinner (.rightParen :: rest) (by simp)
    rw [takeChain_of_not_connective (by simp)] at read
    simp only [List.cons_append, List.append_assoc, List.nil_append]
    rw [takeTerm_leftParen, read]
    rfl
  | @not words q _ ih =>
    intro ts lexed e rest
    obtain ⟨t, inner, rfl, ht, hinner⟩ := List.map_eq_cons_iff.1 e
    obtain rfl := (lexed t (by simp)).eq_of_text (u := .not) (by rw [ht]; decide)
    rw [List.cons_append, takeTerm_not, ih inner (fun v hv => lexed v (by simp [hv])) hinner rest]
  | ofTerm _ ih =>
    intro ts lexed e waiting rest _
    rw [takeOperand, ih ts lexed e rest]
  | @and words words' l r _ _ ihl ihr =>
    intro ts lexed e waiting rest only
    obtain ⟨front, back, rfl, hf, hb⟩ := List.map_eq_append_iff.1 e
    obtain ⟨t, inner, rfl, ht, hinner⟩ := List.map_eq_cons_iff.1 hb
    obtain rfl := (lexed t (by simp)).eq_of_text (u := .connective .and) (by rw [ht]; decide)
    have left := ihl front (fun v hv => lexed v (by simp [hv])) hf waiting (.connective .and :: (inner ++ rest)) only
    have right := ihr inner (fun v hv => lexed v (by simp [hv])) hinner rest
    have pushed : push .and waiting l = (l, .and) :: waiting := by
      cases waiting with
      | nil => rfl
      | cons p waiting =>
        obtain ⟨l', op⟩ := p
        obtain rfl : op = .or := only (l', op) (by simp)
        rfl
    rw [List.append_assoc, List.cons_append, left, takeChain_connective, pushed, takeOperand, right]
    exact takeChain_and l waiting r rest
  | ofConj _ ih =>
    intro ts lexed e rest _
    exact ih ts lexed e [] rest (by simp [OrOnly])
  | @or words words' l r _ _ ihl ihr =>
    intro ts lexed e rest hrest
    obtain ⟨front, back, rfl, hf, hb⟩ := List.map_eq_append_iff.1 e
    obtain ⟨t, inner, rfl, ht, hinner⟩ := List.map_eq_cons_iff.1 hb
    obtain rfl := (lexed t (by simp)).eq_of_text (u := .connective .or) (by rw [ht]; decide)
    have left := ihl front (fun v hv => lexed v (by simp [hv])) hf (.connective .or :: (inner ++ rest)) (by simp)
    have right := ihr inner (fun v hv => lexed v (by simp [hv])) hinner [(l, .or)] rest (by simp [OrOnly])
    rw [List.append_assoc, List.cons_append, left, takeChain_connective]
    show takeOperand [(l, .or)] (inner ++ rest) = _
    rw [right, takeChain_or l r hrest]

/-- Lexed tokens are read as a query exactly if the grammar derives it from their texts. -/
theorem ofTokens_ok_iff {ts : List Token} (lexed : ∀ t ∈ ts, t.Lexed) {q : Query} :
    ofTokens ts = .ok q ↔ Derives .expr (texts ts) q := by
  rw [ofTokens_eq_ok_iff]
  constructor
  · intro read
    obtain ⟨used, hts, -, derived, -⟩ := (derives_of_take ts lexed).2 [] [] q [] .nothing read
    rw [hts, List.append_nil]
    exact derived
  · intro derived
    have read := reads_of_derives derived ts lexed rfl [] (by simp)
    rw [List.append_nil, takeChain_of_not_connective (by simp)] at read
    exact read

/-- A query is parsed as a tree exactly if the grammar derives the tree. -/
theorem result_eq_ok_iff (query : String) (tree : Query) :
    (parse query).result = .ok tree ↔ Derives .expr (texts (tokenize query)) tree := by
  have lexed : ∀ t ∈ tokenize query, t.Lexed := lexed_of_mem_tokensOf query.toList
  rw [← ofTokens_ok_iff lexed, parse, mapError_eq_ok_iff]

/-- **The parser accepts exactly its grammar.** A query is parsed as a tree exactly if the grammar derives the tree
from the texts of its tokens, so that there is no more than one; and there is an error exactly if it derives none. -/
theorem parse_ok_iff (query : String) :
    (∀ tree, (parse query).result = .ok tree ↔ Derives .expr ((parse query).tokens.map Token.text) tree) ∧
    ((∃ e, (parse query).result = .error e) ↔
      ∀ tree, ¬ Derives .expr ((parse query).tokens.map Token.text) tree) := by
  have lexed : ∀ t ∈ (parse query).tokens, t.Lexed := lexed_of_mem_tokensOf query.toList
  have accepted : ∀ tree,
      (parse query).result = .ok tree ↔ Derives .expr ((parse query).tokens.map Token.text) tree := by
    intro tree
    refine Iff.trans ?_ (ofTokens_ok_iff lexed)
    show (ofTokens (tokenize query)).mapError _ = _ ↔ ofTokens (tokenize query) = _
    cases ofTokens (tokenize query) <;> simp [Except.mapError]
  refine ⟨accepted, ?_⟩
  simp only [← accepted]
  cases (parse query).result <;> simp

end Retrieval.Query
