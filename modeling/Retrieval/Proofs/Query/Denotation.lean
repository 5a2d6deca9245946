import Retrieval.Proofs.Merge
import Retrieval.Query.Node

/-!
# What a query denotes

A query is true or false of a document, the connectives and negation taken as in propositional logic (`Query.Holds`).
`Query.Denotes` is the same relative to a list of all documents: a term may reach beyond that list, a negation may
not. On ascending lists evaluation gives exactly the documents denoted, in ascending order (`mem_eval`,
`ascending_eval`).
-/

set_option autoImplicit false

namespace Retrieval.Query

/-- Whether a query is true where the terms `p` are true. -/
def Holds (p : String → Prop) : Query → Prop
  | .term name => p name
  | .not arg => ¬ arg.Holds p
  | .join .and left right => left.Holds p ∧ right.Holds p
  | .join .or left right => left.Holds p ∨ right.Holds p

/-- Whether a document is among those that a query denotes. -/
def Denotes (docs : String → List Int) (allDocs : List Int) (d : Int) : Query → Prop
  | .term name => d ∈ docs name
  | .not arg => d ∈ allDocs ∧ ¬ arg.Denotes docs allDocs d
  | .join .and left right => left.Denotes docs allDocs d ∧ right.Denotes docs allDocs d
  | .join .or left right => left.Denotes docs allDocs d ∨ right.Denotes docs allDocs d

section

variable {docs : String → List Int} {allDocs : List Int} (hdocs : ∀ name, (docs name).Pairwise (· < ·))
  (hall : allDocs.Pairwise (· < ·))
include hdocs hall

theorem ascending_eval (q : Query) : (q.eval docs allDocs).Pairwise (· < ·) := by
  induction q with
  | term name => exact hdocs name
  | not arg ih => exact Merge.ascending_complement ih hall
  | join op left right ihl ihr =>
    cases op with
    | and => exact Merge.ascending_intersect ihl
    | or => exact Merge.ascending_union ihl ihr

theorem mem_eval (q : Query) (d : Int) : d ∈ q.eval docs allDocs ↔ q.Denotes docs allDocs d := by
  have ascending := ascending_eval hdocs hall
  induction q with
  | term name => exact Iff.rfl
  | not arg ih =>
    rw [eval, Merge.mem_complement (ascending arg) hall]
    exact and_congr_right fun _ => not_congr ih
  | join op left right ihl ihr =>
    cases op with
    | and =>
      have shared := Merge.mem_intersect (d := d) (Merge.le_of_ascending (ascending left))
        (Merge.le_of_ascending (ascending right))
      exact shared.trans (and_congr ihl ihr)
    | or => exact Merge.mem_union.trans (or_congr ihl ihr)

end

/-- Where terms stay within the list of all documents, a query denotes the documents of the list of which it is
true. -/
theorem denotes_iff_holds {docs : String → List Int} {allDocs : List Int}
    (hsub : ∀ name, ∀ d ∈ docs name, d ∈ allDocs) (q : Query) (d : Int) :
    q.Denotes docs allDocs d ↔ d ∈ allDocs ∧ q.Holds (fun name => d ∈ docs name) := by
  induction q with
  | term name => exact ⟨fun h => ⟨hsub name d h, h⟩, And.right⟩
  | not arg ih =>
    rw [Denotes, Holds, ih]
    constructor
    · rintro ⟨hd, h⟩
      exact ⟨hd, fun hq => h ⟨hd, hq⟩⟩
    · rintro ⟨hd, h⟩
      exact ⟨hd, fun hq => h hq.2⟩
  | join op left right ihl ihr =>
    cases op with
    | and =>
      rw [Denotes, Holds, ihl, ihr]
      exact and_and_left.symm
    | or =>
      rw [Denotes, Holds, ihl, ihr]
      exact and_or_left.symm

theorem holds_congr {p p' : String → Prop} (h : ∀ name, p name ↔ p' name) (q : Query) : q.Holds p ↔ q.Holds p' := by
  rw [show p = p' from funext fun name => propext (h name)]

end Retrieval.Query
