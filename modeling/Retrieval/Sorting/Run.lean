import Retrieval.Sorting.Search

/-!
# Runs

A run is a part of a list in ascending order. A list is taken apart into its natural runs, those that descend
strictly being turned round; a run that is too short is extended by inserting the elements after it one by one,
each after all elements that it does not come before.
-/

set_option autoImplicit false

namespace Retrieval.Sorting

variable {m : Type → Type} [Monad m] {α : Type}

/-- The longest chain at the front of a list in which each element follows its predecessor, starting after
`last`, and the rest. -/
def chain (follows : α → α → m Bool) (last : α) : List α → m (List α × List α)
  | [] => return ([], [])
  | x :: xs => do
    if ← follows last x then
      let (more, rest) ← chain follows x xs
      return (x :: more, rest)
    else return ([], x :: xs)

/-- The natural run at the front of a list, in ascending order, and the rest. -/
def naturalRun (before : α → α → m Bool) : List α → m (List α × List α)
  | [] => return ([], [])
  | [x] => return ([x], [])
  | x :: y :: rest => do
    let descends ← before y x
    let (more, rest) ← chain (fun a b => do return (← before b a) == descends) y rest
    return (if descends then (x :: y :: more).reverse else x :: y :: more, rest)

/-- Inserts an element into a run. -/
def insert (before : α → α → m Bool) (run : List α) (x : α) : m (List α) := do
  let place ← bisect (holdsAt (fun y => do return !(← before x y)) run) false 0 run.length
  return run.insertIdx place x

/-- The run at the front of a list, extended to a least length as far as the list goes, and the rest. -/
def leadingRun (before : α → α → m Bool) (least : Nat) (xs : List α) : m (List α × List α) := do
  let (run, rest) ← naturalRun before xs
  let missing := least - run.length
  let run ← (rest.take missing).foldlM (insert before) run
  return (run, rest.drop missing)

/-- The runs of a list, where `fuel` is at least their number. -/
def runsFrom (before : α → α → m Bool) (least : Nat) : Nat → List α → m (List (List α))
  | 0, _ | _, [] => return []
  | fuel + 1, xs => do
    let (run, rest) ← leadingRun before least xs
    return run :: (← runsFrom before least fuel rest)

/-- The power of two that leaves from 32 to 63 when a number of at least 32 is divided by it, one for a smaller
number. -/
def runUnit (n : Nat) : Nat := Nat.pow 2 (Nat.log2 n - 5)

/-- The length from which on a run needs no extension in a list of `n` elements, such that the number of runs comes
close to a power of two; a list of less than 64 elements is one run. -/
def leastRun (n : Nat) : Nat := (n + runUnit n - 1) / runUnit n

/-- The runs of a list. -/
def runs (before : α → α → m Bool) (xs : List α) : m (List (List α)) :=
  runsFrom before (leastRun xs.length) xs.length xs

end Retrieval.Sorting
