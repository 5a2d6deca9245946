import Mathlib.Data.List.Forall2
import Retrieval.Proofs.Query.Parsing

/-!
# The stack of the parser

Seen as one list, what waits and the current query are trees and operators in turn (`stack`). A query is read in
rounds, and `Head` is what stands on the stack when a round begins. A round reduces, shifts a connective and reads a
term; it keeps the precedences of the waiting connectives ascending towards the top (`binding_push`), so that no more
than two wait, and the stack goes on accounting for the tokens that have been read (`Accounts.push`). Terms begin at
places that only move forward (`calls_forward`), so there are no more of them than tokens.
-/

set_option autoImplicit false

namespace Retrieval.Query

/-! ### The stack as one list -/

/-- An entry of the stack. -/
inductive Entry where
  | tree (q : Query)
  | operator (op : Connective)

/-- Whether the entry is a tree. -/
def Entry.isTree : Entry → Bool
  | .tree _ => true
  | .operator _ => false

/-- The operator that the entry is. -/
def Entry.operator? : Entry → Option Connective
  | .tree _ => none
  | .operator op => some op

/-- The stack from bottom to top: what waits, and the current query on top of it. -/
def stack : Waiting → Query → List Entry
  | [], current => [.tree current]
  | (left, op) :: waiting, current => stack waiting left ++ [.operator op, .tree current]

theorem length_stack (waiting : Waiting) (current : Query) :
    (stack waiting current).length = 2 * waiting.length + 1 := by
  induction waiting generalizing current with
  | nil => rfl
  | cons p waiting ih =>
    rw [stack, List.length_append, ih, List.length_cons, List.length_cons, List.length_cons, List.length_nil]
    omega

/-- Trees stand at the even places and operators at the odd ones. -/
theorem isTree_iff_of_stack {waiting : Waiting} {current : Query} {i : Nat} {e : Entry}
    (h : (stack waiting current)[i]? = some e) : e.isTree = true ↔ i % 2 = 0 := by
  induction waiting generalizing current with
  | nil =>
    rw [stack, List.getElem?_singleton] at h
    split at h
    · rename_i first
      cases h
      exact iff_of_true rfl (by omega)
    · cases h
  | cons p waiting ih =>
    obtain ⟨left, op⟩ := p
    rw [stack, List.getElem?_append] at h
    split at h
    · exact ih h
    · rename_i above
      rw [length_stack, Nat.not_lt] at above
      rw [length_stack] at h
      obtain place | place | place : i = 2 * waiting.length + 1 ∨ i = 2 * waiting.length + 2 ∨
          2 * waiting.length + 3 ≤ i := by omega
      · rw [place, Nat.sub_self] at h
        cases h
        exact iff_of_false Bool.false_ne_true (by omega)
      · rw [place, Nat.add_sub_cancel_left (2 * waiting.length + 1) 1] at h
        cases h
        exact iff_of_true rfl (by omega)
      · rw [List.getElem?_eq_none (by simp only [List.length_cons, List.length_nil]; omega)] at h
        cases h

/-- The operators of the stack are the waiting connectives, of which the last one comes first. -/
theorem operators_stack (waiting : Waiting) (current : Query) :
    (stack waiting current).filterMap Entry.operator? = (waiting.map Prod.snd).reverse := by
  induction waiting generalizing current with
  | nil => rfl
  | cons p waiting ih =>
    rw [stack, List.filterMap_append, ih, List.map_cons, List.reverse_cons]
    rfl

/-! ### Precedences -/

/-- Whether each waiting connective binds more tightly than those below it. -/
def Binding (waiting : Waiting) : Prop :=
  waiting.Pairwise fun above below => below.2.precedence < above.2.precedence

/-- After a reduction only connectives wait that bind less tightly than the one to come. -/
theorem binding_reduce (op : Connective) {waiting : Waiting} (current : Query) (h : Binding waiting) :
    Binding (reduce op waiting current).1 ∧
      ∀ p ∈ (reduce op waiting current).1, p.2.precedence < op.precedence := by
  fun_induction reduce op waiting current with
  | case1 current => exact ⟨h, by simp⟩
  | case2 left above waiting current le ih => exact ih (List.pairwise_cons.1 h).2
  | case3 left above waiting current gt =>
    refine ⟨h, List.forall_mem_cons.2 ⟨Nat.lt_of_not_le gt, fun p below => ?_⟩⟩
    have lower : p.2.precedence < above.precedence := (List.pairwise_cons.1 h).1 p below
    omega

theorem binding_push (op : Connective) {waiting : Waiting} (current : Query) (h : Binding waiting) :
    Binding (push op waiting current) := by
  obtain ⟨binding, lower⟩ := binding_reduce op current h
  exact List.pairwise_cons.2 ⟨lower, binding⟩

theorem precedence_range (op : Connective) : 1 ≤ op.precedence ∧ op.precedence ≤ 2 := by
  cases op <;> decide

/-- There are two precedences, so no more than two connectives wait. -/
theorem length_le_of_binding {waiting : Waiting} (h : Binding waiting) : waiting.length ≤ 2 := by
  match waiting, h with
  | [], _ => exact Nat.zero_le _
  | [_], _ => exact Nat.le_succ 1
  | [_, _], _ => exact Nat.le_refl 2
  | a :: b :: c :: _, h =>
    obtain ⟨first, rest⟩ := List.pairwise_cons.1 h
    have upper := first b (List.mem_cons_self ..)
    have lower := (List.pairwise_cons.1 rest).1 c (List.mem_cons_self ..)
    have least := precedence_range c.2
    have greatest := precedence_range a.2
    omega

/-! ### Tokens -/

/-- Whether a query accounts for tokens: they are those of its names and operators, in order, with parentheses around
the tokens of any part of it. -/
inductive AccountsFor : Query → List Token → Prop where
  | word (name : String) : AccountsFor (.term name) [.word name]
  | group {q : Query} {ts : List Token} : AccountsFor q ts → AccountsFor q (.leftParen :: ts ++ [.rightParen])
  | not {q : Query} {ts : List Token} : AccountsFor q ts → AccountsFor (.not q) (.not :: ts)
  | join (op : Connective) {l r : Query} {ts us : List Token} : AccountsFor l ts → AccountsFor r us →
      AccountsFor (.join op l r) (ts ++ .connective op :: us)

/-- Whether an entry accounts for tokens: an operator for its own, a tree for those that it is read from. -/
def Entry.AccountsFor : Entry → List Token → Prop
  | .tree q, ts => Query.AccountsFor q ts
  | .operator op, ts => ts = [.connective op]

/-- Whether the stack accounts for tokens. -/
inductive Accounts : Waiting → Query → List Token → Prop where
  | bottom {q : Query} {ts : List Token} : AccountsFor q ts → Accounts [] q ts
  | above (op : Connective) {waiting : Waiting} {left current : Query} {ts us : List Token} :
      Accounts waiting left ts → AccountsFor current us →
      Accounts ((left, op) :: waiting) current (ts ++ .connective op :: us)

/-- A query that is joined to the one below it accounts for the tokens of both. -/
theorem Accounts.join {op : Connective} {waiting : Waiting} {left current : Query} {ts : List Token}
    (h : Accounts ((left, op) :: waiting) current ts) : Accounts waiting (.join op left current) ts := by
  cases h with
  | above _ below top =>
    cases below with
    | bottom own => exact .bottom (.join op own top)
    | above op' below own =>
      rw [List.append_assoc, List.cons_append]
      exact .above op' below (.join op own top)

theorem Accounts.reduce (op : Connective) {waiting : Waiting} {current : Query} {ts : List Token}
    (h : Accounts waiting current ts) :
    Accounts (Query.reduce op waiting current).1 (Query.reduce op waiting current).2 ts := by
  fun_induction Query.reduce op waiting current with
  | case1 current => exact h
  | case2 left above waiting current le ih => exact ih h.join
  | case3 left above waiting current gt => exact h

/-- The step: a connective and a term are read. -/
theorem Accounts.push (op : Connective) {waiting : Waiting} {current q : Query} {ts us : List Token}
    (h : Accounts waiting current ts) (hq : AccountsFor q us) :
    Accounts (Query.push op waiting current) q (ts ++ .connective op :: us) :=
  .above op (h.reduce op) hq

theorem Accounts.unwind {waiting : Waiting} {current : Query} {ts : List Token} (h : Accounts waiting current ts) :
    AccountsFor (Query.unwind waiting current) ts := by
  induction waiting generalizing current with
  | nil =>
    cases h with
    | bottom own => exact own
  | cons p waiting ih =>
    obtain ⟨left, op⟩ := p
    rw [unwind_cons]
    exact ih h.join

/-- The tokens fall into parts, one for each entry of the stack. -/
theorem Accounts.exists_parts {waiting : Waiting} {current : Query} {ts : List Token}
    (h : Accounts waiting current ts) :
    ∃ parts, List.Forall₂ Entry.AccountsFor (stack waiting current) parts ∧ parts.flatten = ts := by
  induction h with
  | @bottom q ts own => exact ⟨[ts], .cons own .nil, by simp⟩
  | @above op waiting left current ts us below own ih =>
    obtain ⟨parts, accounted, rfl⟩ := ih
    refine ⟨parts ++ [[.connective op], us], ?_, by simp⟩
    exact List.rel_append accounted (.cons rfl (.cons own .nil))

/-- Reading loses no token. -/
theorem keeps_accounts :
    Keeps id (fun _ => True) (fun ts q => AccountsFor q ts)
      (fun waiting us => ∀ q ts, AccountsFor q ts → Accounts waiting q (us ++ ts)) (fun ts q => AccountsFor q ts) where
  word _ := .word _
  group := .group
  not := .not
  start _ _ := .bottom
  push := by
    intro waiting us ts q waits own op q' ts' own'
    have next := (waits q ts own).push op own'
    simpa using next
  unwind waits own := (waits _ _ own).unwind

/-- A term that is read accounts for the tokens that it takes, at least one. -/
theorem accountsFor_of_takeTerm {ts : List Token} {q : Query} {rest : List Token} (read : takeTerm ts = .ok (q, rest)) :
    ∃ used, ts = used ++ rest ∧ used ≠ [] ∧ AccountsFor q used := by
  obtain ⟨used, hts, some_used, own⟩ := (keeps_accounts.take ts fun _ _ => trivial).1 q rest read
  rw [List.map_id] at own
  exact ⟨used, hts, some_used, own⟩

/-! ### Rounds -/

/-- What stands on the stack, and what is left, when a round of reading a query from tokens begins: after the first
term, and again after each connective and the term that follows it. -/
inductive Head (ts : List Token) : Nat → Waiting → Query → List Token → Prop where
  | first {q : Query} {rest : List Token} : takeTerm ts = .ok (q, rest) → Head ts 0 [] q rest
  | next {n : Nat} {waiting : Waiting} {current q : Query} {op : Connective} {us rest : List Token} :
      Head ts n waiting current (.connective op :: us) → takeTerm us = .ok (q, rest) →
      Head ts (n + 1) (push op waiting current) q rest

section

variable {ts rest : List Token} {n : Nat} {waiting : Waiting} {current : Query}

/-- Reading goes on from each round as it does from the beginning. -/
theorem Head.takeOperand_eq (h : Head ts n waiting current rest) :
    takeOperand [] ts = takeChain waiting current rest := by
  induction h with
  | first read => rw [takeOperand, read]
  | next _ read ih => rw [ih, takeChain_connective, takeOperand, read]

theorem Head.binding (h : Head ts n waiting current rest) : Binding waiting := by
  induction h with
  | first => exact .nil
  | next _ _ ih => exact binding_push _ _ ih

/-- The tokens up to a round are those that the stack accounts for; each round takes at least two. -/
theorem Head.exists_used (h : Head ts n waiting current rest) :
    ∃ used, ts = used ++ rest ∧ Accounts waiting current used ∧ 2 * n < used.length := by
  induction h with
  | first read =>
    obtain ⟨used, hts, some_used, own⟩ := accountsFor_of_takeTerm read
    exact ⟨used, hts, .bottom own, List.length_pos_iff.2 some_used⟩
  | @next n waiting current q op us rest _ read ih =>
    obtain ⟨used, hts, accounts, long⟩ := ih
    obtain ⟨used', hus, some_used, own⟩ := accountsFor_of_takeTerm read
    have more := List.length_pos_iff.2 some_used
    refine ⟨used ++ .connective op :: used', by rw [hts, hus, List.append_assoc]; rfl, accounts.push op own, ?_⟩
    rw [List.length_append, List.length_cons]
    omega

/-- Reading ends in a round: without a connective, or where the term after it cannot be read. -/
theorem Head.exists_last (h : Head ts n waiting current rest) :
    ∃ m waiting' current' rest', Head ts m waiting' current' rest' ∧
      ((∀ op us, rest' ≠ .connective op :: us) ∧ takeOperand [] ts = .ok (unwind waiting' current', rest') ∨
        ∃ op us e, rest' = .connective op :: us ∧ takeTerm us = .error e ∧ takeOperand [] ts = .error e) := by
  induction left : rest.length using Nat.strongRecOn generalizing n waiting current rest with
  | ind l ih =>
    by_cases hc : ∃ op us, rest = .connective op :: us
    · obtain ⟨op, us, rfl⟩ := hc
      cases read : takeTerm us with
      | error e =>
        refine ⟨n, waiting, current, _, h, .inr ⟨op, us, e, rfl, read, ?_⟩⟩
        rw [h.takeOperand_eq, takeChain_connective, takeOperand, read]
      | ok p =>
        obtain ⟨q, rest⟩ := p
        obtain ⟨used, rfl, -⟩ := accountsFor_of_takeTerm read
        refine ih rest.length ?_ (h.next read) rfl
        rw [← left, List.length_cons, List.length_append]
        omega
    · have stops : ∀ op us, rest ≠ .connective op :: us := fun op us e => hc ⟨op, us, e⟩
      refine ⟨n, waiting, current, rest, h, .inl ⟨stops, ?_⟩⟩
      rw [h.takeOperand_eq, takeChain_of_not_connective stops]

end

/-! ### Places where terms begin -/

mutual

/-- The tokens that are left wherever a term begins when a term is read, in the order in which reading comes to them:
the term itself, and the terms in it. -/
def termCalls : List Token → List (List Token)
  | .leftParen :: ts => (.leftParen :: ts) :: expressionCalls ts
  | .not :: ts => (.not :: ts) :: termCalls ts
  | ts => [ts]
termination_by ts => (ts.length, 0)

/-- The tokens that are left wherever a term begins when a query is read. -/
def expressionCalls (ts : List Token) : List (List Token) :=
  termCalls ts ++
    match readTerm ts with
    | .ok (_, ⟨.connective _ :: us, _⟩) => expressionCalls us
    | _ => []
termination_by (ts.length, 1)
decreasing_by
  · exact Prod.Lex.right _ Nat.zero_lt_one
  · rename_i h
    simp only [List.length_cons] at h
    exact Prod.Lex.left _ _ (by omega)

end

theorem expressionCalls_of_connective {ts us : List Token} {q : Query} {op : Connective}
    (read : takeTerm ts = .ok (q, .connective op :: us)) : expressionCalls ts = termCalls ts ++ expressionCalls us := by
  rw [expressionCalls]
  rw [takeTerm] at read
  cases term : readTerm ts with
  | error e =>
    rw [term] at read
    cases read
  | ok p =>
    obtain ⟨q', rest, h⟩ := p
    rw [term] at read
    cases read
    rfl

theorem expressionCalls_of_stop {ts : List Token} (stops : ∀ q op us, takeTerm ts ≠ .ok (q, .connective op :: us)) :
    expressionCalls ts = termCalls ts := by
  rw [expressionCalls]
  cases term : readTerm ts with
  | error e => exact List.append_nil _
  | ok p =>
    obtain ⟨q, rest, h⟩ := p
    cases rest with
    | nil => exact List.append_nil _
    | cons t rest =>
      cases t with
      | connective op => exact absurd (by rw [takeTerm, term]; rfl) (stops q op rest)
      | _ => exact List.append_nil _

/-- Whether places in tokens come one after the other. -/
structure Forward (ts : List Token) (calls : List (List Token)) : Prop where
  ordered : calls.Pairwise fun earlier later => later.length < earlier.length
  within : ∀ us ∈ calls, us <:+ ts

theorem Forward.single (ts : List Token) : Forward ts [ts] :=
  ⟨List.pairwise_singleton .., by simp⟩

theorem Forward.cons {ts : List Token} {calls : List (List Token)} (t : Token) (h : Forward ts calls) :
    Forward (t :: ts) ((t :: ts) :: calls) := by
  refine ⟨List.pairwise_cons.2 ⟨fun us mem => ?_, h.ordered⟩, List.forall_mem_cons.2 ⟨List.suffix_refl _, ?_⟩⟩
  · exact Nat.lt_succ_of_le (h.within us mem).length_le
  · exact fun us mem => (h.within us mem).trans (List.suffix_cons ..)

/-- Places up to a connective and places after it. -/
theorem Forward.append {ts us : List Token} {calls calls' : List (List Token)} {op : Connective}
    (h : Forward ts calls) (h' : Forward us calls') (later : .connective op :: us <:+ ts)
    (before : ∀ vs ∈ calls, us.length < vs.length) : Forward ts (calls ++ calls') := by
  have within : us <:+ ts := (List.suffix_cons ..).trans later
  refine ⟨List.pairwise_append.2 ⟨h.ordered, h'.ordered, fun vs mem ws mem' => ?_⟩,
    List.forall_mem_append.2 ⟨h.within, fun ws mem => (h'.within ws mem).trans within⟩⟩
  exact Nat.lt_of_le_of_lt (h'.within ws mem').length_le (before vs mem)

theorem length_le_of_ordered {calls : List (List Token)} {n : Nat} (below : ∀ us ∈ calls, us.length < n)
    (ordered : calls.Pairwise fun earlier later => later.length < earlier.length) : calls.length ≤ n := by
  induction calls generalizing n with
  | nil => exact Nat.zero_le n
  | cons us calls ih =>
    obtain ⟨later, rest⟩ := List.pairwise_cons.1 ordered
    have few := ih later rest
    have first := below us (List.mem_cons_self ..)
    rw [List.length_cons]
    omega

/-- There are no more places than tokens, and one at their end. -/
theorem Forward.length_le {ts : List Token} {calls : List (List Token)} (h : Forward ts calls) :
    calls.length ≤ ts.length + 1 :=
  length_le_of_ordered (fun us mem => Nat.lt_succ_of_le (h.within us mem).length_le) h.ordered

theorem bound_of_forget {P : List Token → Prop} {r : Except Failure (Query × { rest : List Token // P rest })}
    {q : Query} {rest : List Token} (h : forget r = .ok (q, rest)) : P rest := by
  cases r with
  | error e => cases h
  | ok p =>
    obtain ⟨q', rest', bound⟩ := p
    cases h
    exact bound

/-- Terms begin at places that move forward, and before the place where reading stops. -/
theorem calls_forward (ts : List Token) :
    (Forward ts (termCalls ts) ∧
      ∀ q rest, takeTerm ts = .ok (q, rest) → ∀ us ∈ termCalls ts, rest.length < us.length) ∧
    (Forward ts (expressionCalls ts) ∧
      ∀ waiting q rest, takeOperand waiting ts = .ok (q, rest) → ∀ us ∈ expressionCalls ts, rest.length < us.length) := by
  induction h : ts.length using Nat.strongRecOn generalizing ts with
  | ind n ih =>
    have terms : Forward ts (termCalls ts) ∧
        ∀ q rest, takeTerm ts = .ok (q, rest) → ∀ us ∈ termCalls ts, rest.length < us.length := by
      cases ts with
      | nil =>
        rw [show termCalls [] = [[]] by rw [termCalls] <;> simp]
        exact ⟨.single [], by simp [takeTerm_nil]⟩
      | cons t ts =>
        obtain ⟨⟨forward, before⟩, forward', before'⟩ := ih ts.length (by simp [← h]) ts rfl
        cases t with
        | leftParen =>
          rw [termCalls]
          refine ⟨forward'.cons _, fun q rest read => ?_⟩
          rw [takeTerm_leftParen] at read
          cases inner : takeOperand [] ts with
          | error e => simp [inner] at read
          | ok p =>
            obtain ⟨q', rest'⟩ := p
            rw [inner] at read
            cases rest' with
            | nil => cases read
            | cons u rest' =>
              cases u <;> cases read
              have shorter := bound_of_forget ((forget_readExpression ts).trans inner)
              rw [List.length_cons] at shorter
              refine List.forall_mem_cons.2 ⟨?_, fun us mem => ?_⟩
              · rw [List.length_cons]
                omega
              · exact Nat.lt_trans (Nat.lt_succ_self _) (before' [] _ _ inner us mem)
        | not =>
          rw [termCalls]
          refine ⟨forward.cons _, fun q rest read => ?_⟩
          rw [takeTerm_not] at read
          cases inner : takeTerm ts with
          | error e => simp [inner] at read
          | ok p =>
            obtain ⟨q', rest'⟩ := p
            rw [inner] at read
            cases read
            exact List.forall_mem_cons.2 ⟨Nat.lt_succ_of_lt (bound_of_forget inner), before _ _ inner⟩
        | word | connective | rightParen | other =>
          rw [show termCalls (_ :: ts) = [_ :: ts] by rw [termCalls] <;> simp]
          refine ⟨.single _, fun q rest read => List.forall_mem_singleton.2 ?_⟩
          exact bound_of_forget read
    refine ⟨terms, ?_⟩
    obtain ⟨forward, before⟩ := terms
    by_cases hc : ∃ q op us, takeTerm ts = .ok (q, .connective op :: us)
    · obtain ⟨q', op, us, first⟩ := hc
      have before := before q' _ first
      obtain ⟨used, rfl, -⟩ := accountsFor_of_takeTerm first
      obtain ⟨-, forward', before'⟩ :=
        ih us.length (by simp only [← h, List.length_append, List.length_cons]; omega) us rfl
      rw [expressionCalls_of_connective first]
      refine ⟨forward.append forward' (List.suffix_append ..) fun vs mem => ?_, fun waiting q rest read => ?_⟩
      · exact Nat.lt_trans (Nat.lt_succ_self _) (before vs mem)
      · have read : takeChain waiting q' (.connective op :: us) = .ok (q, rest) := by
          rw [takeOperand, first] at read
          exact read
        refine List.forall_mem_append.2 ⟨fun vs mem => ?_, ?_⟩
        · exact Nat.lt_of_le_of_lt (bound_of_forget read) (before vs mem)
        · rw [takeChain_connective] at read
          exact before' _ q rest read
    · have stops : ∀ q op us, takeTerm ts ≠ .ok (q, .connective op :: us) := fun q op us e => hc ⟨q, op, us, e⟩
      rw [expressionCalls_of_stop stops]
      refine ⟨forward, fun waiting q rest read => ?_⟩
      rw [takeOperand] at read
      cases first : takeTerm ts with
      | error e => simp [first] at read
      | ok p =>
        obtain ⟨q', rest'⟩ := p
        have read : takeChain waiting q' rest' = .ok (q, rest) := by
          rw [first] at read
          exact read
        rw [takeChain_of_not_connective fun op us e => stops q' op us (e ▸ first)] at read
        cases read
        exact before _ _ first

/-! ### The stack in every round -/

/-- Whether a stack is well formed: trees and operators stand in turn, from a tree to a tree, each operator binds more
tightly than those below it, and there are no more than five entries. -/
structure WellFormed (entries : List Entry) : Prop where
  odd : entries.length % 2 = 1
  turns : ∀ i e, entries[i]? = some e → (e.isTree = true ↔ i % 2 = 0)
  binds : (entries.filterMap Entry.operator?).Pairwise fun below above => below.precedence < above.precedence
  short : entries.length ≤ 5

theorem wellFormed_stack {waiting : Waiting} (h : Binding waiting) (current : Query) :
    WellFormed (stack waiting current) where
  odd := by
    rw [length_stack]
    omega
  turns _ _ := isTree_iff_of_stack
  binds := by
    rw [operators_stack, List.pairwise_reverse]
    exact List.pairwise_map.2 h
  short := by
    have few := length_le_of_binding h
    rw [length_stack]
    omega

/-- Whether entries account for the tokens from one place to another, in their order and without a gap. -/
def Covers (tokens : List Token) (start stop : Nat) (entries : List Entry) : Prop :=
  ∃ parts, List.Forall₂ Entry.AccountsFor entries parts ∧ parts.flatten = (tokens.drop start).take (stop - start)

/-- The place behind tokens that have been read. -/
theorem exists_stop {tokens used rest : List Token} {start : Nat} (h : tokens.drop start = used ++ rest)
    (some_used : used ≠ []) :
    ∃ stop, stop = start + used.length ∧ stop ≤ tokens.length ∧ rest = tokens.drop stop ∧
      used = (tokens.drop start).take (stop - start) := by
  have more := List.length_pos_iff.2 some_used
  have length := congrArg List.length h
  rw [List.length_drop, List.length_append] at length
  refine ⟨start + used.length, rfl, by omega, ?_, ?_⟩
  · rw [← List.drop_drop, h, List.drop_left]
  · rw [Nat.add_sub_cancel_left, h, List.take_left]

/-- **The stack is well formed and bounded.** Whatever the tokens are and wherever reading a query starts, the stack is
well formed when a round begins, and accounts for the tokens that have been read since the start, at least two for each
round; reading goes on from there as it does from the start. Where a term can be read, that takes a token or more, and
does not go past the end. Then there is also a last round: no connective follows, and what stands on the stack is
joined, or the term after the connective cannot be read. The terms that are read on the way, at any depth, begin at
places that only move forward, so that there are no more of them than tokens, and one at the end. -/
theorem stack_wellFormed (tokens : List Token) (start : Nat) :
    (∀ n waiting current rest, Head (tokens.drop start) n waiting current rest →
      WellFormed (stack waiting current) ∧
      (∃ stop, start + 2 * n < stop ∧ stop ≤ tokens.length ∧ rest = tokens.drop stop ∧
        Covers tokens start stop (stack waiting current)) ∧
      forget (readExpression (tokens.drop start)) = forget (readChain waiting current rest)) ∧
    (∀ q rest, takeTerm (tokens.drop start) = .ok (q, rest) →
      (∃ stop, start < stop ∧ stop ≤ tokens.length ∧ rest = tokens.drop stop ∧
        AccountsFor q ((tokens.drop start).take (stop - start))) ∧
      ∃ n waiting current rest, Head (tokens.drop start) n waiting current rest ∧
        ((∀ op us, rest ≠ .connective op :: us) ∧
            forget (readExpression (tokens.drop start)) = .ok (unwind waiting current, rest) ∨
          ∃ op us e, rest = .connective op :: us ∧ takeTerm us = .error e ∧
            forget (readExpression (tokens.drop start)) = .error e)) ∧
    Forward (tokens.drop start) (expressionCalls (tokens.drop start)) ∧
    (expressionCalls (tokens.drop start)).length ≤ tokens.length - start + 1 := by
  refine ⟨fun n waiting current rest head => ⟨wellFormed_stack head.binding current, ?_, ?_⟩,
    fun q rest read => ⟨?_, ?_⟩, ?_, ?_⟩
  · obtain ⟨used, taken, accounts, long⟩ := head.exists_used
    obtain ⟨parts, accounted, whole⟩ := accounts.exists_parts
    obtain ⟨stop, place, inside, left, between⟩ := exists_stop taken (List.length_pos_iff.1 (by omega))
    exact ⟨stop, by omega, inside, left, parts, accounted, whole.trans between⟩
  · rw [forget_readExpression, head.takeOperand_eq]
    rfl
  · obtain ⟨used, taken, some_used, own⟩ := accountsFor_of_takeTerm read
    obtain ⟨stop, place, inside, left, between⟩ := exists_stop taken some_used
    have more := List.length_pos_iff.2 some_used
    exact ⟨stop, by omega, inside, left, between ▸ own⟩
  · rw [forget_readExpression]
    exact (Head.first read).exists_last
  · exact (calls_forward _).2.1
  · have few := (calls_forward (tokens.drop start)).2.1.length_le
    rwa [List.length_drop] at few

/-- A disjunction of a conjunction fills the stack before the next connective reduces it. -/
theorem stack_wellFormed_of_conjunction :
    let tokens : List Token :=
      [.word "a", .connective .or, .word "b", .connective .and, .word "c", .connective .or, .word "d"]
    Head (tokens.drop 0) 2 [(.term "b", .and), (.term "a", .or)] (.term "c") [.connective .or, .word "d"] ∧
      (stack [(.term "b", .and), (.term "a", .or)] (.term "c")).length = 5 ∧
      Covers tokens 0 5 (stack [(.term "b", .and), (.term "a", .or)] (.term "c")) := by
  intro tokens
  have head : Head (tokens.drop 0) 2 [(.term "b", .and), (.term "a", .or)] (.term "c") [.connective .or, .word "d"] :=
    ((Head.first (takeTerm_word "a" _)).next (takeTerm_word "b" _)).next (takeTerm_word "c" _)
  obtain ⟨-, ⟨stop, after, inside, left, covers⟩, -⟩ := (stack_wellFormed tokens 0).1 _ _ _ _ head
  have length := congrArg List.length left
  rw [List.length_drop] at length
  have five : stop = 5 := by
    simp only [tokens, List.length_cons, List.length_nil] at inside length
    omega
  exact ⟨head, rfl, five ▸ covers⟩

end Retrieval.Query
