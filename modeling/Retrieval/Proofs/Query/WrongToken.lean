import Retrieval.Proofs.Query.Parsing
import Retrieval.Proofs.Query.Tokens
import Retrieval.Proofs.Steps

/-!
# The first wrong token

A query that is not parsed is refused at its first wrong token. What has been read up to there begins some valid query,
and what comes after the wrong token makes no difference, so that no valid query begins with it (`Pinpoints`). That is
so for each reader of the parser, whatever waits on the stack (`pinpoints_take`), and hence for the whole parser
(`pinpoints_ofTokens`). A parser that parses one query after another tells the same place whatever it has parsed before
(`Parser.run_parse`).
-/

set_option autoImplicit false

namespace Retrieval.Query

/-! ### Beginnings of valid queries -/

/-- Whether the grammar derives a query from its tokens. -/
def IsValid (query : String) : Prop := ∃ tree, Derives .expr (texts (tokenize query)) tree

/-- The valid queries are those that are parsed. -/
theorem isValid_iff (query : String) : IsValid query ↔ ∃ tree, (parse query).result = .ok tree :=
  exists_congr fun tree => (result_eq_ok_iff query tree).symm

/-- Whether some valid query begins with tokens of the given texts. -/
def Viable (ts : List String) : Prop := ∃ query, IsValid query ∧ ts <+: texts (tokenize query)

theorem Derives.isTokenText {p : Phrase} {ts : List String} {q : Query} (h : Derives p ts q) :
    ∀ s ∈ ts, IsTokenText s := by
  induction h with
  | word hname => exact List.forall_mem_singleton.2 hname.isTokenText
  | group _ ih =>
    intro s hs
    simp only [List.mem_cons, List.mem_append, List.not_mem_nil, or_false] at hs
    rcases hs with (rfl | hs) | rfl
    · exact .inl rfl
    · exact ih s hs
    · exact .inr (.inl rfl)
  | not _ ih =>
    refine List.forall_mem_cons.2 ⟨.inr (.inr ⟨by decide, ?_⟩), ih⟩
    exact List.all_eq_true.1 (by decide)
  | ofTerm _ ih => exact ih
  | ofConj _ ih => exact ih
  | and _ _ ihl ihr =>
    exact List.forall_mem_append.2 ⟨ihl, List.forall_mem_cons.2 ⟨isTokenText_connective .and, ihr⟩⟩
  | or _ _ ihl ihr =>
    exact List.forall_mem_append.2 ⟨ihl, List.forall_mem_cons.2 ⟨isTokenText_connective .or, ihr⟩⟩

/-- What is derived from texts are the tokens of a valid query, so it is enough to derive something from more of them. -/
theorem viable_of_derives {ts more : List String} {tree : Query} (h : Derives .expr (ts ++ more) tree) : Viable ts := by
  have tokens := texts_tokenize_join h.isTokenText
  exact ⟨_, ⟨tree, by rw [tokens]; exact h⟩, more, tokens.symm⟩

/-- Lexed tokens with the same texts are the same. -/
theorem eq_of_texts {ts us : List Token} (hts : ∀ t ∈ ts, t.Lexed) (hus : ∀ u ∈ us, u.Lexed)
    (same : texts ts = texts us) : ts = us := by
  have read : ∀ {vs : List Token}, (∀ v ∈ vs, v.Lexed) → (texts vs).map Token.ofText = vs := by
    intro vs lexed
    rw [texts, List.map_map]
    conv_rhs => rw [← List.map_id vs]
    exact List.map_congr_left fun v hv => (lexed v hv).2
  rw [← read hts, same, read hus]

/-! ### Where reading fails -/

/-- Whether a failure is at the first wrong token after those that have been read: they can be completed, and what
comes after the wrong token makes no difference. -/
structure Pinpoints {β : Type} (read : List Token → Except Failure β) (derives : List String → Query → Prop)
    (used : List Token) (e : Failure) : Prop where
  completes : ∃ more q, derives (texts used ++ more) q
  settled : ∀ t rest, e.rest = t :: rest → ∀ rest', read (used ++ t :: rest') = .error ⟨e.cause, t :: rest'⟩

theorem derives_a : Derives .term ["a"] (.term "a") := .word ⟨by decide, List.all_eq_true.1 (by decide)⟩

/-- A term that cannot begin as it does is wrong at once. -/
theorem pinpoints_first {e : Failure}
    (settled : ∀ t rest, e.rest = t :: rest → ∀ rest', takeTerm (t :: rest') = .error ⟨e.cause, t :: rest'⟩) :
    Pinpoints takeTerm (Derives .term) [] e :=
  ⟨⟨["a"], .term "a", derives_a⟩, settled⟩

/-- A query that has been read is read again, whatever comes after the token at which reading has stopped. -/
theorem takeOperand_again {ts : List Token} (lexed : ∀ t ∈ ts, t.Lexed) {q : Query} {rest : List Token}
    (read : takeOperand [] ts = .ok (q, rest)) :
    ∃ used, ts = used ++ rest ∧ Derives .expr (texts used) q ∧
      ∀ t us, rest = t :: us → ∀ rest', takeOperand [] (used ++ t :: rest') = .ok (q, t :: rest') := by
  obtain ⟨used, hts, -, derived, stops⟩ := (derives_of_take ts lexed).2 [] [] q rest .nothing read
  refine ⟨used, hts, derived, fun t us hrest rest' => ?_⟩
  have stops : ∀ op vs, t :: rest' ≠ .connective op :: vs := fun op vs h =>
    stops op us (by rw [hrest, (List.cons.inj h).1])
  rw [reads_of_derives derived used (fun u hu => lexed u (by simp [hts, hu])) rfl _ fun vs => stops .and vs,
    takeChain_of_not_connective stops]
  rfl

theorem takeTerm_of_derives {used : List Token} (lexed : ∀ t ∈ used, t.Lexed) {q : Query}
    (derived : Derives .term (texts used) q) (rest : List Token) : takeTerm (used ++ rest) = .ok (q, rest) :=
  reads_of_derives derived used lexed rfl rest

/-- A query in parentheses goes wrong where the query does, or right after it. -/
theorem pinpoints_leftParen {ts : List Token} (lexed : ∀ t ∈ ts, t.Lexed)
    (inner : ∀ e, takeOperand [] ts = .error e →
      ∃ used, ts = used ++ e.rest ∧ Pinpoints (takeOperand []) (Derives .expr) used e)
    {e : Failure} (failed : takeTerm (.leftParen :: ts) = .error e) :
    ∃ used, .leftParen :: ts = used ++ e.rest ∧ Pinpoints takeTerm (Derives .term) used e := by
  rw [takeTerm_leftParen] at failed
  cases read : takeOperand [] ts with
  | error d =>
    rw [read] at failed
    cases failed
    obtain ⟨used, hts, ⟨more, q, derived⟩, settled⟩ := inner _ read
    refine ⟨.leftParen :: used, by rw [List.cons_append, ← hts], ⟨more ++ [")"], q, ?_⟩, fun t rest he rest' => ?_⟩
    · simpa [texts, Token.text] using Derives.group derived
    · rw [List.cons_append, takeTerm_leftParen, settled t rest he rest']
  | ok p =>
    obtain ⟨q, rest⟩ := p
    obtain ⟨used, hts, derived, again⟩ := takeOperand_again lexed read
    rw [read] at failed
    have closed : ∃ more q, Derives .term (texts (.leftParen :: used) ++ more) q := ⟨[")"], q, .group derived⟩
    cases rest with
    | nil =>
      cases failed
      exact ⟨.leftParen :: used, by rw [List.cons_append, ← hts], closed, by simp⟩
    | cons t rest =>
      have place : .leftParen :: ts = (.leftParen :: used) ++ t :: rest := by rw [List.cons_append, ← hts]
      cases t <;> cases failed <;>
        exact ⟨.leftParen :: used, place, closed, fun t rest he rest' => by
          cases he
          rw [List.cons_append, takeTerm_leftParen, again _ _ rfl]⟩

/-- A negated term goes wrong where the term does. -/
theorem pinpoints_not {ts : List Token}
    (inner : ∀ e, takeTerm ts = .error e →
      ∃ used, ts = used ++ e.rest ∧ Pinpoints takeTerm (Derives .term) used e)
    {e : Failure} (failed : takeTerm (.not :: ts) = .error e) :
    ∃ used, .not :: ts = used ++ e.rest ∧ Pinpoints takeTerm (Derives .term) used e := by
  rw [takeTerm_not] at failed
  cases read : takeTerm ts with
  | ok p => simp [read] at failed
  | error d =>
    rw [read] at failed
    cases failed
    obtain ⟨used, hts, ⟨more, q, derived⟩, settled⟩ := inner _ read
    refine ⟨.not :: used, by rw [List.cons_append, ← hts], ⟨more, .not q, .not derived⟩, fun t rest he rest' => ?_⟩
    rw [List.cons_append, takeTerm_not, settled t rest he rest']

/-- A query goes wrong where its first term does, or where what follows the connective after that does. -/
theorem pinpoints_operand {ts : List Token} (lexed : ∀ t ∈ ts, t.Lexed) {waiting : Waiting} {us : List String}
    (pending : Pending waiting us)
    (terms : ∀ e, takeTerm ts = .error e →
      ∃ used, ts = used ++ e.rest ∧ Pinpoints takeTerm (Derives .term) used e)
    (later : ∀ vs : List Token, vs.length < ts.length → (∀ v ∈ vs, v.Lexed) → ∀ waiting us e, Pending waiting us →
      takeOperand waiting vs = .error e → ∃ used, vs = used ++ e.rest ∧
        Pinpoints (takeOperand waiting) (fun ws => Derives .expr (us ++ ws)) used e)
    {e : Failure} (failed : takeOperand waiting ts = .error e) :
    ∃ used, ts = used ++ e.rest ∧
      Pinpoints (takeOperand waiting) (fun vs => Derives .expr (us ++ vs)) used e := by
  rw [takeOperand] at failed
  cases first : takeTerm ts with
  | error d =>
    rw [first] at failed
    cases failed
    obtain ⟨used, hts, ⟨more, q, derived⟩, settled⟩ := terms _ first
    refine ⟨used, hts, ⟨more, _, pending.unwind derived⟩, fun t rest he rest' => ?_⟩
    rw [takeOperand, settled t rest he rest']
  | ok p =>
    obtain ⟨q, left⟩ := p
    obtain ⟨used, hts, derived⟩ := (derives_of_take ts lexed).1 q left first
    have failed : takeChain waiting q left = .error e := by
      rw [first] at failed
      exact failed
    by_cases hc : ∃ op vs, left = .connective op :: vs
    · obtain ⟨op, vs, rfl⟩ := hc
      rw [takeChain_connective] at failed
      have shorter : vs.length < ts.length := by
        simp only [hts, List.length_append, List.length_cons]
        omega
      obtain ⟨used', hvs, ⟨more, q', derived'⟩, settled⟩ :=
        later vs shorter (fun u hu => lexed u (by simp [hts, hu])) _ _ e (pending.push derived op) failed
      refine ⟨used ++ .connective op :: used', by simp [hts, hvs], ⟨more, q', ?_⟩, fun t rest he rest' => ?_⟩
      · simpa [texts, Token.text] using derived'
      · rw [List.append_assoc, List.cons_append, takeOperand,
          takeTerm_of_derives (fun u hu => lexed u (by simp [hts, hu])) derived]
        show takeChain waiting q _ = _
        rw [takeChain_connective, settled t rest he rest']
    · rw [takeChain_of_not_connective fun op vs he => hc ⟨op, vs, he⟩] at failed
      cases failed

/-- Reading a term, or a query with what waits before it, fails at the first wrong token. -/
theorem pinpoints_take (ts : List Token) (lexed : ∀ t ∈ ts, t.Lexed) :
    (∀ e, takeTerm ts = .error e → ∃ used, ts = used ++ e.rest ∧ Pinpoints takeTerm (Derives .term) used e) ∧
    (∀ waiting us e, Pending waiting us → takeOperand waiting ts = .error e →
      ∃ used, ts = used ++ e.rest ∧
        Pinpoints (takeOperand waiting) (fun vs => Derives .expr (us ++ vs)) used e) := by
  induction h : ts.length using Nat.strongRecOn generalizing ts with
  | ind n ih =>
    -- the order of the readers: a term first, and a query from the term and what is left after it
    have terms : ∀ e, takeTerm ts = .error e →
        ∃ used, ts = used ++ e.rest ∧ Pinpoints takeTerm (Derives .term) used e := by
      intro e failed
      cases ts with
      | nil =>
        rw [takeTerm_nil] at failed
        cases failed
        exact ⟨[], rfl, pinpoints_first (by simp)⟩
      | cons t ts =>
        have others : ∀ u ∈ ts, u.Lexed := fun u hu => lexed u (List.mem_cons_of_mem t hu)
        have inner := ih ts.length (by simp [← h]) ts others rfl
        cases t with
        | word name => simp [takeTerm_word] at failed
        | leftParen => exact pinpoints_leftParen others (fun e => inner.2 [] [] e .nothing) failed
        | not => exact pinpoints_not inner.1 failed
        | connective op =>
          rw [takeTerm_connective] at failed
          cases failed
          exact ⟨[], rfl, pinpoints_first fun t rest he rest' => by cases he; exact takeTerm_connective op rest'⟩
        | rightParen =>
          rw [takeTerm_rightParen] at failed
          cases failed
          exact ⟨[], rfl, pinpoints_first fun t rest he rest' => by cases he; exact takeTerm_rightParen rest'⟩
        | other text =>
          rw [takeTerm_other] at failed
          cases failed
          exact ⟨[], rfl, pinpoints_first fun t rest he rest' => by cases he; exact takeTerm_other text rest'⟩
    refine ⟨terms, fun waiting us e pending failed => ?_⟩
    exact pinpoints_operand lexed pending terms
      (fun vs shorter lexed => (ih vs.length (by omega) vs lexed rfl).2) failed

theorem ofTokens_of_take {ts : List Token} (some : ts ≠ []) :
    ofTokens ts =
      match takeOperand [] ts with
      | .error e => .error e
      | .ok (q, []) => .ok q
      | .ok (_, .rightParen :: rest) => .error ⟨.unmatchedClosing, .rightParen :: rest⟩
      | .ok (_, token :: rest) => .error ⟨.expectedOperator token, token :: rest⟩ := by
  rw [ofTokens, if_neg some, ← forget_readExpression]
  cases readExpression ts with
  | error e => rfl
  | ok p =>
    obtain ⟨q, rest, h⟩ := p
    cases rest with
    | nil => rfl
    | cons t rest => cases t <;> rfl

/-- A query that takes not all tokens is wrong right after it. -/
theorem pinpoints_ofTokens {ts : List Token} (lexed : ∀ t ∈ ts, t.Lexed) {e : Failure}
    (failed : ofTokens ts = .error e) :
    ∃ used, ts = used ++ e.rest ∧ Pinpoints ofTokens (Derives .expr) used e := by
  have some_of : ∀ (used : List Token) t rest', used ++ t :: rest' ≠ [] := by simp
  by_cases some : ts = []
  · rw [some] at failed ⊢
    cases failed
    exact ⟨[], rfl, ⟨["a"], .term "a", .ofConj (.ofTerm derives_a)⟩, by simp⟩
  rw [ofTokens_of_take some] at failed
  cases read : takeOperand [] ts with
  | error d =>
    rw [read] at failed
    cases failed
    obtain ⟨used, hts, completes, settled⟩ := (pinpoints_take ts lexed).2 [] [] _ .nothing read
    refine ⟨used, hts, completes, fun t rest he rest' => ?_⟩
    rw [ofTokens_of_take (some_of _ _ _), settled t rest he rest']
  | ok p =>
    obtain ⟨q, rest⟩ := p
    obtain ⟨used, hts, derived, again⟩ := takeOperand_again lexed read
    rw [read] at failed
    cases rest with
    | nil => cases failed
    | cons t rest =>
      have completes : ∃ more q, Derives .expr (texts used ++ more) q := ⟨[], q, by rw [List.append_nil]; exact derived⟩
      cases t <;> cases failed <;>
        exact ⟨used, hts, completes, fun t rest he rest' => by
          cases he
          rw [ofTokens_of_take (some_of _ _ _), again _ _ rfl]⟩

/-- No valid query begins with what has been read and the wrong token. -/
theorem Pinpoints.not_viable {used rest : List Token} {t : Token} {e : Failure}
    (h : Pinpoints ofTokens (Derives .expr) used e) (he : e.rest = t :: rest) (lexed : ∀ u ∈ used ++ [t], u.Lexed) :
    ¬ Viable (texts (used ++ [t])) := by
  rintro ⟨query, ⟨tree, derived⟩, more, hmore⟩
  have all : ∀ u ∈ tokenize query, u.Lexed := lexed_of_mem_tokensOf query.toList
  obtain ⟨front, back, hquery, hfront, -⟩ := List.map_eq_append_iff.1 hmore.symm
  have same : front = used ++ [t] := eq_of_texts (fun u hu => all u (by simp [hquery, hu])) lexed hfront
  have read := (ofTokens_ok_iff all).2 derived
  rw [hquery, same, List.append_assoc, List.singleton_append, h.settled t rest he] at read
  cases read

/-! ### A parser that goes from query to query -/

namespace Parser

/-- Where tokens are left, the parser is in front of them. -/
theorem left_of_append (used rest : List Token) : left ⟨used ++ rest, (used ++ rest).length - rest.length⟩ = rest := by
  rw [left, List.length_append, Nat.add_sub_cancel, List.drop_left]

theorem run_fail (cause : ParseCause) (p : Parser) :
    (fail cause).run p = (.error ⟨cause, p.position, p.left.head?.map Token.text⟩, p) := rfl

/-- Failing where tokens are left is failing at their place. -/
theorem run_fail_of_append (used : List Token) (e : Failure) :
    (fail e.cause).run ⟨used ++ e.rest, (used ++ e.rest).length - e.rest.length⟩ =
      (.error (e.locate (used ++ e.rest)), ⟨used ++ e.rest, (used ++ e.rest).length - e.rest.length⟩) := by
  rw [run_fail, left_of_append]
  rfl

/-- Reading an expression stops where the reader does. -/
theorem run_expression (p : Parser) (lexed : ∀ t ∈ p.left, t.Lexed) :
    expression.run p =
      match takeOperand [] p.left with
      | .ok (q, rest) => (.ok q, ⟨p.tokens, p.tokens.length - rest.length⟩)
      | .error e => (.error (e.locate p.tokens), ⟨p.tokens, p.tokens.length - e.rest.length⟩) := by
  have read := forget_readExpression p.left
  rw [expression, run_bind_ok (show (get : Step Parser).run p = (.ok p, p) from rfl)]
  cases h : readExpression p.left with
  | error e =>
    rw [h] at read
    obtain ⟨used, hleft, -⟩ := (pinpoints_take p.left lexed).2 [] [] e .nothing read.symm
    have all : p.tokens = (p.tokens.take p.position ++ used) ++ e.rest := by
      rw [List.append_assoc, ← hleft, left, List.take_append_drop]
    rw [← read]
    show (fail e.cause).run ⟨p.tokens, p.tokens.length - e.rest.length⟩ = _
    rw [all]
    exact run_fail_of_append _ e
  | ok found =>
    rw [h] at read
    rw [← read]
    rfl

/-- Parsing a query starts afresh: the outcome, and where the parser is after it, are those of the query alone. -/
theorem run_parse (query : String) (p : Parser) :
    (parse query).run p =
      ((Query.parse query).result, ⟨(Query.parse query).tokens, (Query.parse query).position⟩) := by
  generalize hts : tokenize query = ts
  have lexed : ∀ t ∈ ts, t.Lexed := hts ▸ lexed_of_mem_tokensOf query.toList
  have outcome : Query.parse query = ⟨ts, (ofTokens ts).mapError (·.locate ts)⟩ := by rw [Query.parse, hts]
  rw [outcome, parse, hts,
    run_bind_ok (show (set ({ tokens := ts } : Parser) : Step Unit).run p = (.ok (), ⟨ts, 0⟩) from rfl),
    run_bind_ok (show (get : Step Parser).run ⟨ts, 0⟩ = (.ok ⟨ts, 0⟩, ⟨ts, 0⟩) from rfl)]
  by_cases some : ts = []
  · rw [some]
    rfl
  rw [if_neg (show left ⟨ts, 0⟩ ≠ [] from some)]
  have first := run_expression ⟨ts, 0⟩ lexed
  rw [show left ⟨ts, 0⟩ = ts from rfl] at first
  rw [ofTokens_of_take some]
  cases read : takeOperand [] ts with
  | error e =>
    rw [read] at first
    rw [run_bind_error first]
    rfl
  | ok found =>
    obtain ⟨q, rest⟩ := found
    obtain ⟨used, rfl, -⟩ := takeOperand_again lexed read
    rw [read] at first
    rw [run_bind_ok first, run_bind_ok (show (get : Step Parser).run _ = (.ok _, _) from rfl), left_of_append]
    cases rest with
    | nil => rfl
    | cons t rest => cases t <;> exact run_fail_of_append used ⟨_, _⟩

/-- **An error is at the first wrong token.** Whatever a parser has parsed before: where it fails, it stays among the
tokens of the query at the place of the error, which carries the token there or, at the end of the query, none. The
tokens before that place begin a valid query. With the one there they begin none; and if there is none, then more
tokens would have to follow. -/
theorem stops_at_first_wrong_token (p : Parser) (earlier : List String) (query : String) {e : ParseError}
    {later : Parser} (h : (parse query).run (p.after earlier) = (.error e, later)) :
    e.position ≤ (texts (tokenize query)).length ∧
    later.position = e.position ∧ texts later.tokens = texts (tokenize query) ∧
    e.token = (texts (tokenize query))[e.position]? ∧
    Viable ((texts (tokenize query)).take e.position) ∧
    (e.position < (texts (tokenize query)).length → ¬ Viable ((texts (tokenize query)).take (e.position + 1))) ∧
    (e.position = (texts (tokenize query)).length → Viable (texts (tokenize query)) ∧ ¬ IsValid query) := by
  rw [run_parse, Prod.mk.injEq] at h
  obtain ⟨failed, rfl⟩ := h
  have invalid : ¬ IsValid query := by
    rw [isValid_iff]
    simp [failed]
  have lexed : ∀ t ∈ tokenize query, t.Lexed := lexed_of_mem_tokensOf query.toList
  obtain ⟨d, wrong, rfl⟩ := exists_of_mapError failed
  obtain ⟨used, place, pinpointed⟩ := pinpoints_ofTokens lexed wrong
  obtain ⟨more, tree, derived⟩ := pinpointed.completes
  have viable := viable_of_derives derived
  have position : (d.locate (tokenize query)).position = used.length := by
    show (tokenize query).length - d.rest.length = _
    rw [place, List.length_append, Nat.add_sub_cancel]
  have tokens : texts (tokenize query) = texts used ++ texts d.rest := by rw [place, texts, List.map_append]; rfl
  have reached : (Query.parse query).position = used.length := by
    rw [Parse.position, failed]
    exact position
  have length : (texts used).length = used.length := List.length_map ..
  rw [position, reached, tokens]
  refine ⟨?_, rfl, tokens, ?_, ?_, fun inside => ?_, fun atEnd => ⟨?_, invalid⟩⟩
  · rw [List.length_append]
    omega
  · show d.rest.head?.map Token.text = _
    rw [← length, List.getElem?_append_right (Nat.le_refl _), Nat.sub_self, ← List.head?_eq_getElem?, texts,
      List.head?_map]
  · rw [← length, List.take_left]
    exact viable
  · -- there is a wrong token, and the theorem about it applies
    cases rest : d.rest with
    | nil =>
      rw [rest, List.length_append] at inside
      simp [texts] at inside
    | cons t others =>
      have place : tokenize query = (used ++ [t]) ++ others := by
        rw [place, rest, List.append_assoc, List.singleton_append]
      have upTo : (texts used ++ texts (t :: others)).take (used.length + 1) = texts (used ++ [t]) := by
        rw [← rest, ← tokens, place, texts, List.map_append]
        exact List.take_left' (by simp)
      rw [upTo]
      apply pinpointed.not_viable rest
      intro u hu
      apply lexed
      rw [place]
      exact List.mem_append_left _ hu
  · have none_left : texts d.rest = [] := by
      apply List.eq_nil_of_length_eq_zero
      rw [List.length_append] at atEnd
      omega
    rw [none_left, List.append_nil]
    exact viable

/-- After three queries, one of them valid, the wrong token is still the one that comes third. -/
theorem wrong_token_after_queries :
    (∃ later, (parse "(a b").run (({} : Parser).after ["a AND", ")", "a"]) =
      (.error ⟨.expectedOperatorOrClosing (.word "b"), 2, some "b"⟩, later)) ∧
    Viable ["(", "a"] ∧ ¬ Viable ["(", "a", "b"] := by
  have tokens : texts (tokenize "(a b") = ["(", "a", "b"] := by cbv
  have failed : (parse "(a b").run (({} : Parser).after ["a AND", ")", "a"]) =
      (.error ⟨.expectedOperatorOrClosing (.word "b"), 2, some "b"⟩, ⟨[.leftParen, .word "a", .word "b"], 2⟩) := by
    rw [run_parse]
    cbv
  have all := stops_at_first_wrong_token {} ["a AND", ")", "a"] "(a b" failed
  rw [tokens] at all
  exact ⟨⟨_, failed⟩, all.2.2.2.2.1, all.2.2.2.2.2.1 (by decide)⟩

end Parser

end Retrieval.Query
