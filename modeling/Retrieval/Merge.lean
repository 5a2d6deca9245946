/-!
# Merging lists of ids

Intersection, union and complement walk two ascending lists from the front and go past the smaller id. What they
give for lists that do not ascend is what this walk gives.
-/

set_option autoImplicit false

namespace Retrieval.Merge

/-- The ids that two lists share. -/
def intersect : List Int → List Int → List Int
  | x :: xs, y :: ys =>
    if x < y then intersect xs (y :: ys)
    else if y < x then intersect (x :: xs) ys
    else x :: intersect xs ys
  | _, _ => []
termination_by xs ys => xs.length + ys.length

/-- The ids of either list. -/
def union : List Int → List Int → List Int
  | x :: xs, y :: ys =>
    if x < y then x :: union xs (y :: ys)
    else if y < x then y :: union (x :: xs) ys
    else x :: union xs ys
  | [], ys => ys
  | xs, [] => xs
termination_by xs ys => xs.length + ys.length

/-- The ids of a list, such as that of all documents, that are missing from `xs`. -/
def complement (xs : List Int) : List Int → List Int
  | [] => []
  | d :: rest =>
    let xs := xs.dropWhile (· < d)
    if xs.head? = some d then complement xs rest else d :: complement xs rest

end Retrieval.Merge
