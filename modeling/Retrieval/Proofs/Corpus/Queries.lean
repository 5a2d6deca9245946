import Retrieval.Proofs.Corpus.Documents
import Retrieval.Proofs.SharedTerms

/-!
# Queries, and documents read as queries

A file of queries is read exactly if only blank lines come before its first `.I` line and every block has an id and a
body; the queries are then the bodies, each joined to one line, numbered by their position (`readQueries_ok_iff`). So
every collection is also a file of queries, of as many as it has documents, and each has the terms of its document
(`normalised_alike`).
-/

set_option autoImplicit false

namespace Retrieval.Corpus
open Text

/-! ### Reading -/

/-- The text of the query that a block describes, if it has an id and a body. -/
def Block.query? (b : Block) : Option String := do
  let _ ← recordId? b.head
  let body ← fieldLines? .body b.tail
  return joinLines body

theorem Block.query?_eq_some_iff {b : Block} {text : String} :
    b.query? = some text ↔
      ∃ n, recordId? b.head = some n ∧ ∃ body, fieldLines? .body b.tail = some body ∧ text = joinLines body := by
  rw [query?]
  constructor
  · intro described
    obtain ⟨n, own, described⟩ := Option.bind_eq_some_iff.1 described
    obtain ⟨body, holds, described⟩ := Option.bind_eq_some_iff.1 described
    cases described
    exact ⟨n, own, body, holds, rfl⟩
  · rintro ⟨n, own, body, holds, rfl⟩
    rw [own, holds]
    rfl

/-- Queries with the given texts, numbered from `k` on. -/
def numbered (k : Nat) (texts : List String) : List Query := (texts.zipIdx k).map fun p => ⟨p.2, p.1⟩

@[simp] theorem map_text_numbered (k : Nat) (texts : List String) : (numbered k texts).map Query.text = texts := by
  rw [numbered, List.map_map]
  exact List.zipIdx_map_fst k texts

theorem addQuery_ok_iff {queries queries' : List Query} {r : Record} :
    addQuery queries r = .ok queries' ↔
      ∃ body, r.field? .body = some body ∧ queries' = ⟨queries.length + 1, joinLines body⟩ :: queries := by
  unfold addQuery
  cases r.field? .body with
  | none => simp
  | some body => simp [eq_comm]

/-- A block is handed over to a file of queries exactly if it describes a query. -/
theorem Block.handOver_addQuery_ok_iff {b : Block} {done queries : List Query} :
    b.handOver addQuery done = .ok queries ↔
      ∃ text, b.query? = some text ∧ queries = ⟨done.length + 1, text⟩ :: done := by
  constructor
  · intro h
    obtain ⟨r, read, taken⟩ := exists_of_bind h
    obtain ⟨own, -, fields⟩ := Block.of_record_ok read
    obtain ⟨body, holds, rfl⟩ := addQuery_ok_iff.1 taken
    rw [fields] at holds
    exact ⟨_, query?_eq_some_iff.2 ⟨r.id, own, body, holds, rfl⟩, rfl⟩
  · rintro ⟨text, described, rfl⟩
    obtain ⟨n, own, body, holds, rfl⟩ := query?_eq_some_iff.1 described
    obtain ⟨r, read⟩ := Block.exists_record own
    rw [← (Block.of_record_ok read).2.2] at holds
    rw [handOver, bind_eq read]
    exact addQuery_ok_iff.2 ⟨body, holds, rfl⟩

/-- Blocks are handed over in turn exactly if they describe queries, which are numbered on from those before. -/
theorem foldlM_addQuery_ok_iff {bs : List Block} {done queries : List Query} :
    bs.foldlM (Block.handOver addQuery) done = .ok queries ↔
      ∃ texts, bs.map Block.query? = texts.map some ∧
        queries = (numbered (done.length + 1) texts).reverse ++ done := by
  induction bs generalizing done with
  | nil =>
    constructor
    · rintro ⟨⟩
      exact ⟨[], rfl, rfl⟩
    · rintro ⟨texts, none, rfl⟩
      obtain rfl : texts = [] := by simpa using none
      rfl
  | cons b bs ih =>
    have next (text : String) (texts : List String) :
        (numbered (done.length + 1) (text :: texts)).reverse ++ done =
          (numbered (done.length + 1 + 1) texts).reverse ++ ⟨done.length + 1, text⟩ :: done := by
      simp [numbered, List.zipIdx_cons]
    rw [List.foldlM_cons]
    constructor
    · intro h
      obtain ⟨done', first, rest⟩ := exists_of_bind h
      obtain ⟨text, described, rfl⟩ := Block.handOver_addQuery_ok_iff.1 first
      obtain ⟨texts, others, rfl⟩ := ih.1 rest
      exact ⟨text :: texts, by simp [described, others], (next text texts).symm⟩
    · rintro ⟨_ | ⟨text, texts⟩, all, rfl⟩
      · simp at all
      · obtain ⟨described, others⟩ := List.cons.inj all
        rw [bind_eq (Block.handOver_addQuery_ok_iff.2 ⟨text, described, rfl⟩)]
        exact ih.2 ⟨texts, others, next text texts⟩

/-- **A file of queries is read exactly if it describes queries.** Only blank lines come before its first `.I` line, and
each of its blocks describes a query. They are numbered by their position. -/
theorem readQueries_ok_iff {text : String} {queries : List Query} :
    readQueries text = .ok queries ↔
      (∀ l ∈ (lines text).takeWhile continues, isBlankLine l = true) ∧
        ∃ texts, (blocks (numberedLines text)).map Block.query? = texts.map some ∧ queries = numbered 1 texts := by
  rw [readQueries, readRecords_reverse_ok_iff, foldlM_addQuery_ok_iff]
  refine and_congr_right fun _ => exists_congr fun texts => and_congr_right fun _ => ?_
  rw [List.append_nil, List.reverse_inj]
  rfl

/-! ### Documents as queries -/

/-- Blank lines at the end of a body have no terms. -/
theorem termsOfLines_withoutTrailingBlanks (n : Normalizer) (body : List String) :
    n.termsOfLines (withoutTrailingBlanks body) = n.termsOfLines body := by
  have whole := List.rdropWhile_append_rtakeWhile (p := isBlankLine) (l := body)
  rw [n.termsOfLines_eq, n.termsOfLines_eq]
  conv => rhs; rw [← whole, List.flatMap_append]
  have none : (body.rtakeWhile isBlankLine).flatMap textTokens = [] :=
    List.flatMap_eq_nil_iff.2 fun line mem => textTokens_of_isBlankLine (List.mem_rtakeWhile_imp mem)
  rw [none, List.append_nil]
  rfl

/-- A block that describes a document describes a query with the same terms. -/
theorem Block.query?_of_document? {b : Block} {d : Document} (h : b.document? = some d) :
    ∃ text, b.query? = some text ∧ ∀ n : Normalizer, n.terms text = n.termsOfLines d.lines := by
  obtain ⟨own, -, -, body, holds, kept⟩ := document?_eq_some_iff.1 h
  refine ⟨joinLines body, query?_eq_some_iff.2 ⟨d.id, own, body, holds, rfl⟩, fun n => ?_⟩
  rw [kept, termsOfLines_withoutTrailingBlanks, (n.termsOfLines_eq_terms body).2]

theorem exists_queries_of_documents {bs : List Block} {documents : List Document}
    (h : bs.map Block.document? = documents.map some) :
    ∃ texts : List String, bs.map Block.query? = texts.map some ∧
      ∀ n : Normalizer, texts.map n.terms = documents.map fun d => n.termsOfLines d.lines := by
  induction bs generalizing documents with
  | nil =>
    obtain rfl : documents = [] := by simpa using h.symm
    exact ⟨[], rfl, fun n => rfl⟩
  | cons b bs ih =>
    obtain ⟨d, documents, rfl, own, others⟩ := List.map_eq_cons_iff.1 h.symm
    obtain ⟨text, described, same⟩ := Block.query?_of_document? own.symm
    obtain ⟨texts, rest, alike⟩ := ih others.symm
    exact ⟨text :: texts, by simp [described, rest], fun n => by simp [same n, alike n]⟩

/-- **Documents and queries are normalised alike.** The terms of lines are those of the text that they make with newlines
between them, and those of the one line to which they are joined. So a collection is also a file of queries, and the
terms of each query are those of the document at its place. -/
theorem normalised_alike (n : Normalizer) :
    (∀ ls, n.termsOfLines ls = n.terms ("\n".intercalate ls) ∧ n.termsOfLines ls = n.terms (joinLines ls)) ∧
    ∀ text documents, readCollection text = .ok documents → ∃ queries, readQueries text = .ok queries ∧
      queries.map (fun q => n.terms q.text) = documents.map fun d => n.termsOfLines d.lines := by
  refine ⟨n.termsOfLines_eq_terms, fun text documents read => ?_⟩
  obtain ⟨blank, described, -⟩ := readCollection_ok_iff.1 read
  obtain ⟨texts, asked, same⟩ := exists_queries_of_documents described
  refine ⟨numbered 1 texts, readQueries_ok_iff.2 ⟨blank, texts, asked, rfl⟩, ?_⟩
  calc (numbered 1 texts).map (fun q => n.terms q.text)
    _ = ((numbered 1 texts).map Query.text).map n.terms := by rw [List.map_map]; rfl
    _ = documents.map fun d => n.termsOfLines d.lines := by rw [map_text_numbered, same]

/-- A document with a blank line in its body, and a blank at the end of a line, as a query. -/
theorem normalised_alike_of_broken_lines :
    let n : Normalizer := .ofWords ["of"] id
    readCollection ".I 7\n.W\nOf ab \n\n cd\n\n" = .ok [⟨7, "", "", ["Of ab ", "", " cd"]⟩] ∧
      ∃ queries, readQueries ".I 7\n.W\nOf ab \n\n cd\n\n" = .ok queries ∧
        queries.map (fun q => n.terms q.text) = [["ab", "cd"]] := by
  intro n
  have read : readCollection ".I 7\n.W\nOf ab \n\n cd\n\n" = .ok [⟨7, "", "", ["Of ab ", "", " cd"]⟩] := by cbv
  have terms : n.termsOfLines ["Of ab ", "", " cd"] = ["ab", "cd"] := by cbv
  obtain ⟨queries, asked, same⟩ := (normalised_alike n).2 _ _ read
  exact ⟨read, queries, asked, by rw [same, List.map_singleton, terms]⟩

end Retrieval.Corpus
