import Retrieval.Sorting.Search

/-!
# Merging runs

Two runs are merged one element at a time until one of them has won several times in a row, and then by whole
stretches until the stretches get short. How often a run has to win, the patience, falls while stretches pay and
rises when they do not. Merging from the end is merging the reversed runs in the reversed order, so that in both
directions the elements of the run that counts as first stand before equal ones of the other.
-/

set_option autoImplicit false

namespace Retrieval.Sorting

variable {m : Type → Type} [Monad m] {α : Type}

/-- Two runs that are being merged, and what has been taken from them; elements of `xs` stand before equal ones
of `ys`. -/
structure Merging (α : Type) where
  taken : List α
  xs : List α
  ys : List α

namespace Merging

/-- Takes elements from the first run. -/
def takeXs (n : Nat) (s : Merging α) : Merging α := { s with taken := s.taken ++ s.xs.take n, xs := s.xs.drop n }

/-- Takes elements from the second run. -/
def takeYs (n : Nat) (s : Merging α) : Merging α := { s with taken := s.taken ++ s.ys.take n, ys := s.ys.drop n }

/-- Whether nothing is left to compare: the second run is used up, or all of the first but its last element, which
stands at the end. -/
def ended (s : Merging α) : Bool := s.ys.isEmpty || s.xs.length ≤ 1

/-- All elements once the merging has ended. -/
def result (s : Merging α) : List α := s.taken ++ s.ys ++ s.xs

/-- Whether the second run has the next element. -/
def ysFirst (before : α → α → m Bool) (s : Merging α) : m Bool :=
  match s.xs, s.ys with
  | x :: _, y :: _ => before y x
  | _, _ => return false

/-- Takes one element at a time until a run has won as often in a row as the patience says; the runs have won
`wonX` and `wonY` times in a row so far. -/
def singly (before : α → α → m Bool) (patience : Nat) : Nat → Nat → Nat → Merging α → m (Merging α)
  | 0, _, _, s => return s
  | fuel + 1, wonX, wonY, s => do
    if ← s.ysFirst before then
      let s := s.takeYs 1
      if s.ended || patience ≤ wonY + 1 then return s else singly before patience fuel 0 (wonY + 1) s
    else
      let s := s.takeXs 1
      if s.ended || patience ≤ wonX + 1 then return s else singly before patience fuel (wonX + 1) 0 s

/-- Takes all elements of the first run that stand before the second one, and one of the second; gives the number
of the former. -/
def stretchOfXs (before : α → α → m Bool) (lower : Bool) (s : Merging α) : m (Nat × Merging α) :=
  match s.ys with
  | [] => return (0, s)
  | y :: _ => do
    let n ← stretch (fun x => do return !(← before y x)) lower s.xs
    return (n, (s.takeXs n).takeYs 1)

/-- Takes all elements of the second run that stand before the first one, and one of the first; gives the number
of the former. -/
def stretchOfYs (before : α → α → m Bool) (lower : Bool) (s : Merging α) : m (Nat × Merging α) :=
  match s.xs with
  | [] => return (0, s)
  | x :: _ => do
    let n ← stretch (fun y => before y x) lower s.ys
    return (n, (s.takeYs n).takeXs 1)

/-- The length from which on a stretch counts as long, and the patience at first. -/
def longStretch : Nat := 7

/-- Takes a stretch of each run in turn until both are short, and gives the patience after it; the second run
has its turn first when `backward` is set. -/
def byStretches (before : α → α → m Bool) (backward : Bool) : Nat → Nat → Merging α → m (Nat × Merging α)
  | 0, patience, s => return (patience, s)
  | fuel + 1, patience, s => do
    let patience := if 1 < patience then patience - 1 else patience
    let (first, s) ← if backward then stretchOfYs before true s else stretchOfXs before false s
    if s.ended then return (patience, s)
    let (second, s) ← if backward then stretchOfXs before true s else stretchOfYs before false s
    if s.ended then return (patience, s)
    if first < longStretch ∧ second < longStretch then return (patience + 1, s)
    byStretches before backward fuel patience s

/-- Merges what is left, and gives the patience after it. -/
def finish (before : α → α → m Bool) (backward : Bool) : Nat → Nat → Merging α → m (Nat × Merging α)
  | 0, patience, s => return (patience, s)
  | fuel + 1, patience, s => do
    if s.ended then return (patience, s)
    let s ← singly before patience (s.xs.length + s.ys.length) 0 0 s
    if s.ended then return (patience, s)
    let (patience, s) ← byStretches before backward (s.xs.length + s.ys.length) (patience + 1) s
    finish before backward fuel patience s

end Merging

/-- Merges two runs, the second of which has the first element, and gives the patience after it. -/
def mergeFrom (before : α → α → m Bool) (backward : Bool) (patience : Nat) (xs ys : List α) :
    m (Nat × List α) := do
  let start : Merging α := ⟨[], xs, ys⟩
  let (patience, s) ← Merging.finish before backward (xs.length + ys.length) patience (start.takeYs 1)
  return (patience, s.result)

/-- Merges two neighbouring runs, and gives the patience after it. What stands in its place already, at the front
of the first and at the end of the second, is left out; what remains is merged from the side of the shorter run. -/
def mergeRuns (before : α → α → m Bool) (patience : Nat) (xs ys : List α) : m (Nat × List α) :=
  match ys with
  | [] => return (patience, xs)
  | y :: _ => do
    let settled ← stretch (fun x => do return !(← before y x)) false xs
    let rest := xs.drop settled
    match rest.getLast? with
    | none => return (patience, xs ++ ys)
    | some last => do
      let done ← stretch (fun z => do return !(← before z last)) true ys.reverse
      let moving := ys.take (ys.length - done)
      let (patience, merged) ←
        if moving.isEmpty then pure (patience, rest)
        else if rest.length ≤ moving.length then mergeFrom before false patience rest moving
        else do
          let (patience, merged) ← mergeFrom (fun a b => before b a) true patience moving.reverse rest.reverse
          pure (patience, merged.reverse)
      return (patience, xs.take settled ++ merged ++ ys.drop moving.length)

end Retrieval.Sorting
