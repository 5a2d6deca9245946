import Retrieval.Json.Token
import Retrieval.Json.Value

/-!
# Reading JSON texts

The tokens of a text are read one by one, with the lists and objects that are still open on a stack. A key
that comes again keeps its place and takes the later value.
-/

set_option autoImplicit false

namespace Retrieval.Json

/-- Why a text is not read. -/
inductive ReadError where
  /-- The text is no JSON text. -/
  | malformed
  /-- An integer has too many digits. -/
  | integer (e : Numeral.IntegerError)

/-- A list or an object that is still open, with what it holds so far. -/
inductive Frame where
  /-- The items, last first. -/
  | list (items : List Value)
  /-- The members, and the key whose value follows. -/
  | object (members : List (String × Value)) (key : String)

/-- What may come next. -/
inductive Stage where
  | value
  /-- The first item of a list, or its end. -/
  | firstItem
  /-- A comma, or the end of the innermost list or object. -/
  | afterValue
  /-- The first key of an object, or its end. -/
  | firstKey
  | key
  | colon
  /-- Nothing more: this is the value of the text. -/
  | complete (v : Value)

/-- The open lists and objects, innermost first, and what may come next. -/
structure State where
  frames : List Frame
  stage : Stage

/-- The state after a value has been read. -/
def State.close (v : Value) : List Frame → State
  | [] => ⟨[], .complete v⟩
  | .list items :: rest => ⟨.list (v :: items) :: rest, .afterValue⟩
  | .object members key :: rest => ⟨.object (Value.insertMember key v members) key :: rest, .afterValue⟩

/-- The state after a token where a value may come. -/
def State.readValue (frames : List Frame) : Token → Except ReadError State
  | .null => .ok (.close .null frames)
  | .bool b => .ok (.close (.bool b) frames)
  | .integer text =>
    match Numeral.readInteger text with
    | .ok n => .ok (.close (.integer n) frames)
    | .error e => .error (.integer e)
  | .real x => .ok (.close (.real x) frames)
  | .string s => .ok (.close (.string s) frames)
  | .leftBracket => .ok ⟨.list [] :: frames, .firstItem⟩
  | .leftBrace => .ok ⟨.object [] "" :: frames, .firstKey⟩
  | _ => .error .malformed

/-- The state after one more token. -/
def State.step (s : State) (token : Token) : Except ReadError State :=
  match s.stage, token, s.frames with
  | .firstItem, .rightBracket, .list items :: rest => .ok (.close (.list items.reverse) rest)
  | .firstItem, token, frames => State.readValue frames token
  | .value, token, frames => State.readValue frames token
  | .afterValue, .comma, .list items :: rest => .ok ⟨.list items :: rest, .value⟩
  | .afterValue, .rightBracket, .list items :: rest => .ok (.close (.list items.reverse) rest)
  | .afterValue, .comma, .object members key :: rest => .ok ⟨.object members key :: rest, .key⟩
  | .afterValue, .rightBrace, .object members _ :: rest => .ok (.close (.object members) rest)
  | .firstKey, .rightBrace, .object members _ :: rest => .ok (.close (.object members) rest)
  | .firstKey, .string key, .object members _ :: rest => .ok ⟨.object members key :: rest, .colon⟩
  | .key, .string key, .object members _ :: rest => .ok ⟨.object members key :: rest, .colon⟩
  | .colon, .colon, frames => .ok ⟨frames, .value⟩
  | _, _, _ => .error .malformed

/-- Reads a JSON text. -/
def read (s : String) : Except ReadError Value := do
  let final ← (tokens s.toList).foldlM State.step ⟨[], .value⟩
  match final.stage with
  | .complete v => .ok v
  | _ => .error .malformed

end Retrieval.Json
