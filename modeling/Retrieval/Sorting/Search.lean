/-!
# Searching for the end of a stretch

A test that holds for the first elements of a list and for none after them has an end, which is found by doubling
the distance from the front until the test fails, and by bisection in between. The test is asked as seldom as that
allows, so a test of another kind gets an answer, too, which depends on the places where it is asked. Asking may
fail: the tests are computations of any monad.
-/

set_option autoImplicit false

namespace Retrieval.Sorting

variable {m : Type → Type} [Monad m]

/-- The end of the stretch between two places, by bisection; of two places in the middle the lower one is asked
when `lower` is set, else the upper one. -/
def bisect (holds : Nat → m Bool) (lower : Bool) (low high : Nat) : m Nat :=
  if low < high then do
    let middle := low + (high - low - (if lower then 1 else 0)) / 2
    if ← holds middle then bisect holds lower (middle + 1) high else bisect holds lower low middle
  else return high
termination_by high - low
decreasing_by
  all_goals
    split <;> omega

/-- Doubles the distance from the front while the test holds; gives the last place where it held and the first
place where it failed, or the number of all places. -/
def reach (holds : Nat → m Bool) (count last next : Nat) : m (Nat × Nat) :=
  if next < count then do
    if ← holds next then reach holds count next (2 * next + 1) else return (last, next)
  else return (last, count)
termination_by count - next

variable {α : Type}

/-- The test of the element at a place, which fails beyond the end. -/
def holdsAt (test : α → m Bool) (xs : List α) (i : Nat) : m Bool :=
  match xs[i]? with
  | some x => test x
  | none => return false

/-- The number of elements at the front for which the test holds. -/
def stretch (test : α → m Bool) (lower : Bool) (xs : List α) : m Nat := do
  if ← holdsAt test xs 0 then
    let (last, next) ← reach (holdsAt test xs) xs.length 0 1
    bisect (holdsAt test xs) lower (last + 1) next
  else return 0

end Retrieval.Sorting
