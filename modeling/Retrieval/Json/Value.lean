import Retrieval.Numeral.Binary

/-!
# JSON values

The values of a JSON text, with integers kept apart from reals and the members of objects in order. Values
are compared by what they stand for: a number equals any number of the same value, whatever its form, and a
truth value counts as zero or one. What is not a number equals itself, but is neither smaller nor greater than any.
-/

set_option autoImplicit false

namespace Retrieval.Json

/-- A value of a JSON text. -/
inductive Value where
  | null
  | bool (b : Bool)
  | integer (n : Int)
  | real (x : Float)
  | string (s : String)
  | list (items : List Value)
  | object (members : List (String × Value))

namespace Value

/-- Puts a member into an object: in the place of the member with that key, or at the end. -/
def insertMember {β : Type} (key : String) (v : β) : List (String × β) → List (String × β)
  | [] => [(key, v)]
  | (k, w) :: rest => if k = key then (k, v) :: rest else (k, w) :: insertMember key v rest

/-- A number in exact form: not a number, infinite with a sign, or a fraction with its sign. -/
inductive Number where
  | unordered
  | infinite (negative : Bool)
  | fraction (num : Int) (den : Nat)

/-- What a floating-point number stands for, exactly. -/
def Number.ofReal (x : Float) : Number :=
  match Numeral.reading x with
  | .notANumber => .unordered
  | .infinite negative => .infinite negative
  | .finite negative mantissa exponent =>
    let (num, den) := Numeral.fractionOf mantissa exponent
    .fraction (if negative then -(num : Int) else num) den

/-- Whether two numbers are equal; what is no number is the same wherever it stands. -/
def Number.same : Number → Number → Bool
  | .unordered, .unordered => true
  | .infinite a, .infinite b => a == b
  | .fraction a b, .fraction c d => a * d == c * b
  | _, _ => false

/-- Whether the first number is smaller. -/
def Number.lt : Number → Number → Bool
  | .infinite a, .infinite b => a && !b
  | .infinite a, .fraction _ _ => a
  | .fraction _ _, .infinite b => !b
  | .fraction a b, .fraction c d => a * d < c * b
  | _, _ => false

/-- The number that a value stands for, if it is one. -/
def number? : Value → Option Number
  | .bool b => some (.fraction (if b then 1 else 0) 1)
  | .integer n => some (.fraction n 1)
  | .real x => some (Number.ofReal x)
  | _ => none

mutual

/-- Whether two values are equal: numbers by value, lists item by item, objects key by key. -/
def same : Value → Value → Bool
  | .null, .null => true
  | .string a, .string b => a == b
  | .list xs, .list ys => sameItems xs ys
  | .object xs, .object ys => xs.length == ys.length && sameMembers xs ys
  | .bool a, v => v.number?.any (Number.same (.fraction (if a then 1 else 0) 1))
  | .integer a, v => v.number?.any (Number.same (.fraction a 1))
  | .real a, v => v.number?.any (Number.same (Number.ofReal a))
  | _, _ => false

/-- Whether two lists have equal items. -/
def sameItems : List Value → List Value → Bool
  | [], [] => true
  | x :: xs, y :: ys => same x y && sameItems xs ys
  | _, _ => false

/-- Whether each member of the first object has an equal value in the second. -/
def sameMembers : List (String × Value) → List (String × Value) → Bool
  | [], _ => true
  | (k, v) :: rest, ys => (ys.lookup k).any (same v) && sameMembers rest ys

end

mutual

/-- Whether the first value is smaller, for values that have an order between them: two numbers, two texts, or
two lists that differ first in such values. -/
def lt? : Value → Value → Option Bool
  | .string a, .string b => some (decide (a < b))
  | .list xs, .list ys => ltItems? xs ys
  | .bool a, v => v.number?.map (Number.lt (.fraction (if a then 1 else 0) 1))
  | .integer a, v => v.number?.map (Number.lt (.fraction a 1))
  | .real a, v => v.number?.map (Number.lt (Number.ofReal a))
  | _, _ => none

/-- Whether the first list is smaller: at the first difference, or by being shorter. -/
def ltItems? : List Value → List Value → Option Bool
  | [], ys => some (!ys.isEmpty)
  | _ :: _, [] => some false
  | x :: xs, y :: ys => if same x y then ltItems? xs ys else lt? x y

end

/-- Whether the value can be a key or a member of a set: anything but a list or an object. -/
def isAtom : Value → Bool
  | .list _ | .object _ => false
  | _ => true

/-- Whether the value stands for a number. -/
def isNumber (v : Value) : Bool := v.number?.isSome

/-- The text of the value, if it is one. -/
def text? : Value → Option String
  | .string s => some s
  | _ => none

/-- The items of a value: those of a list, the characters of a text, or the keys of an object. -/
def items? : Value → Option (List Value)
  | .list items => some items
  | .string s => some (s.toList.map fun c => .string (String.ofList [c]))
  | .object members => some (members.map fun (key, _) => .string key)
  | _ => none

end Value
end Retrieval.Json
