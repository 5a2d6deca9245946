import Retrieval.Sorting.Merge
import Retrieval.Sorting.Run

/-!
# Sorting by merging runs

A list is sorted by taking it apart into runs and merging neighbouring runs. Which two are merged first is decided
by their power: the depth at which their middles part in the halving of the whole list; runs that part deeper are
merged before. For an order this is the stable sort. Elements that compare with nothing stay where the searches
leave them, and a comparison that fails ends the sorting.
-/

set_option autoImplicit false

namespace Retrieval.Sorting

variable {m : Type → Type} [Monad m] {α : Type}

/-- A run and the place where it starts. -/
structure Placed (α : Type) where
  start : Nat
  run : List α

/-- A run that waits to be merged, with the power of it and the run after it. -/
structure Waiting (α : Type) extends Placed α where
  power : Nat

/-- Twice the place of a run's middle. -/
def Placed.middle (p : Placed α) : Nat := 2 * p.start + p.run.length

/-- The depth at which two middles part in the halving of a list of `n` elements. -/
def power (n : Nat) (p q : Placed α) : Nat :=
  (List.range (Nat.log2 n + 1)).findIdx fun depth =>
    p.middle * Nat.pow 2 depth / n ≠ q.middle * Nat.pow 2 depth / n

/-- Merges a run with those before it, last first, that part from it deeper than `limit`. -/
def settle (before : α → α → m Bool) (limit patience : Nat) (last : Placed α) :
    List (Waiting α) → m (Nat × Placed α × List (Waiting α))
  | [] => return (patience, last, [])
  | earlier :: rest =>
    if limit < earlier.power then do
      let (patience, run) ← mergeRuns before patience earlier.run last.run
      settle before limit patience ⟨earlier.start, run⟩ rest
    else return (patience, last, earlier :: rest)

/-- Merges all runs, last first, that are left at the end: the last two, or the two before the last when the last
is longer than the third. -/
def collapse (before : α → α → m Bool) (patience : Nat) : List (List α) → m (List α)
  | [] => return []
  | [run] => return run
  | [last, second] => do
    let (_, run) ← mergeRuns before patience second last
    return run
  | last :: second :: third :: rest => do
    if third.length < last.length then
      let (patience, run) ← mergeRuns before patience third second
      collapse before patience (last :: run :: rest)
    else
      let (patience, run) ← mergeRuns before patience second last
      collapse before patience (run :: third :: rest)
termination_by runs => runs.length

/-- Merges runs of a list of `n` elements, where `last` is the last run so far and those before it wait. -/
def mergeAll (before : α → α → m Bool) (n patience : Nat) (last : Placed α) (waiting : List (Waiting α)) :
    List (List α) → m (List α)
  | [] => collapse before patience (last.run :: waiting.map fun w => w.run)
  | run :: runs => do
    let next : Placed α := ⟨last.start + last.run.length, run⟩
    let limit := power n last next
    let (patience, last, waiting) ← settle before limit patience last waiting
    mergeAll before n patience next (⟨last, limit⟩ :: waiting) runs

/-- Sorts a list, where `before x y` says that `x` has to stand before `y`, or fails. -/
def sortWith (before : α → α → m Bool) (xs : List α) : m (List α) := do
  match ← runs before xs with
  | [] => return []
  | run :: rest => mergeAll before xs.length Merging.longStretch ⟨0, run⟩ [] rest

/-- Sorts a list, where `before x y` says that `x` has to stand before `y`. -/
def sort (before : α → α → Bool) (xs : List α) : List α :=
  Id.run (sortWith (fun x y => pure (before x y)) xs)

end Retrieval.Sorting
