import Retrieval.Scalar

/-!
# Means and order statistics

Long lists are summed in eight lanes, which are then added in pairs, and lists of more than `laneLimit`
numbers by halves; every order gives the same sum in exact arithmetic. Percentiles are read off the sorted
list, with linear interpolation between neighbours.
-/

set_option autoImplicit false

namespace Retrieval

variable {α : Type} [Scalar α]

/-- Adds eight numbers to eight lanes. -/
def addLanes (lanes block : List α) : List α := List.zipWith (· + ·) lanes block

/-- Adds blocks of eight numbers to eight lanes, and gives the lanes and the numbers left over. -/
def sumLanes (lanes : List α) : List α → List α × List α
  | a :: b :: c :: d :: e :: f :: g :: h :: rest => sumLanes (addLanes lanes [a, b, c, d, e, f, g, h]) rest
  | rest => (lanes, rest)

/-- The sum of neighbouring pairs. -/
def addPairs : List α → List α
  | a :: b :: rest => (a + b) :: addPairs rest
  | rest => rest

/-- The sum of at least eight numbers: in eight lanes, then what is left over one by one. -/
def laneSum (xs : List α) : α :=
  let (lanes, rest) := sumLanes (xs.take 8) (xs.drop 8)
  rest.foldl (· + ·) (sum (addPairs (addPairs lanes)))

/-- The greatest number of values that are summed in one block of lanes. -/
def laneLimit : Nat := 128

/-- The sum of a list of any length: from the left, in lanes, or by halves, as the length grows. -/
def balancedSum (xs : List α) : α :=
  if xs.length < 8 then sum xs
  else if xs.length ≤ laneLimit then laneSum xs
  else
    let half := xs.length / 2 / 8 * 8
    balancedSum (xs.take half) + balancedSum (xs.drop half)
termination_by xs.length
decreasing_by
  all_goals
    simp only [laneLimit, List.length_take, List.length_drop] at *
    omega

/-- The mean of a list, zero for the empty one. -/
def mean (xs : List α) : α := if xs.isEmpty then 0 else Scalar.divNat (balancedSum xs) xs.length

/-- A list in ascending order. -/
def ascending (xs : List α) : List α := xs.mergeSort fun a b => !Scalar.lt b a

/-- Whether a number has a place in the order of numbers; one that has none differs from itself. -/
def placed (x : α) : Bool := x == x

/-- A statistic of a list in ascending order. A member without a place in the order leaves no other answer. -/
def orderStatistic (statistic : List α → α) (xs : List α) : α :=
  (xs.find? fun x => !placed x).getD (statistic (ascending xs))

/-- The mean of the one or two numbers in the middle of a sorted list. -/
def medianOfSorted (sorted : List α) : α :=
  let half := sorted.length / 2
  mean (if sorted.length % 2 = 1 then (sorted.drop half).take 1 else (sorted.drop (half - 1)).take 2)

/-- The point at the fraction `t` of the way from `a` to `b`, reckoned from the nearer end. -/
def interpolate (a b t : α) : α :=
  if Scalar.lt t (Scalar.share 1 2) then a + (b - a) * t else b - (b - a) * (Scalar.ofNat 1 - t)

/-- The number at a position of a sorted list, counted from zero; a position between two members lies between
them, and one beyond the end is the last member. -/
def atPosition (sorted : List α) (position : α) : α :=
  let below := Scalar.floor position
  match sorted.drop below with
  | a :: b :: _ => interpolate a b (position - Scalar.ofNat below)
  | _ => interpolate (sorted.getLastD 0) (sorted.getLastD 0) 0

/-- The number below which the given hundredths of a sorted list lie. -/
def percentileOfSorted (hundredths : Nat) (sorted : List α) : α :=
  atPosition sorted (Scalar.ofNat (sorted.length - 1) * Scalar.share hundredths 100)

end Retrieval
