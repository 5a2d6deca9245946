import Retrieval.Command.Grammar
import Retrieval.Json.Value
import Retrieval.Numeral.Real

/-!
# Reading command lines

Options and positional arguments are read from left to right. Positional arguments are taken in one piece where
the first of them stands, and an option takes its value from its own argument or from the one after it. What
nothing takes is left over, and an argument left over is an error.
-/

set_option autoImplicit false

namespace Retrieval.Command
open Json (Value)

/-- The value of an option. -/
inductive Setting where
  | flag
  /-- The separator stands in the place of the value. -/
  | omitted
  | text (s : String)
  | integer (n : Int)
  | real (x : Float)

/-- The text that is set, none if it is omitted. -/
def Setting.text? : Setting → Option String
  | .text s => some s
  | _ => none

/-- What is set as a value; the empty list is set where the value is omitted. -/
def Setting.value : Setting → Value
  | .flag => .bool true
  | .omitted => .list []
  | .text s => .string s
  | .integer n => .integer n
  | .real x => .real x

/-- What has been read so far: the options, last first, the positional arguments, if they have been taken, and
whether any argument is left over. -/
structure Parsed where
  settings : List (Key × Setting) := []
  positionals : Option (List String) := none
  leftOver : Bool := false

namespace Parsed

/-- What is set last under a key. -/
def get? (p : Parsed) (key : Key) : Option Setting := p.settings.lookup key

/-- The text set last under a key, none if it is omitted or nothing is set. -/
def text? (p : Parsed) (key : Key) : Option String := (p.get? key).bind Setting.text?

/-- What is set last under a key, as a value. -/
def value? (p : Parsed) (key : Key) : Option Value := (p.get? key).map Setting.value

/-- Whether a key is set. -/
def has (p : Parsed) (key : Key) : Bool := p.settings.any (·.1 = key)

end Parsed

/-- An option that an argument sets, with its value if it has one. -/
structure Assignment where
  spec : OptionSpec
  value : String

/-- What one argument with options sets: the options in order, whether a part of it is left over, and whether it
takes the argument after it. -/
structure Expansion where
  assignments : List Assignment
  leftOver : Bool := false
  takesNext : Bool := false

/-- What an option sets that has no value in its own argument, where `next` is the argument after it. -/
def expandLast (spec : OptionSpec) (next : Option String) : Except Exit Expansion :=
  match spec.form, next with
  | .flag, _ => .ok ⟨[⟨spec, ""⟩], false, false⟩
  | _, some value => .ok ⟨[⟨spec, value⟩], false, true⟩
  | _, none => .error .usage

/-- What an option sets that text follows in its own argument. After a flag of one letter the text is read as more
options of one letter. -/
def expandText (g : Grammar) (next : Option String) (spec : OptionSpec) (isLetter : Bool) :
    List Char → Except Exit Expansion
  | [] => if spec.form = .flag then .error .usage else .ok ⟨[⟨spec, ""⟩], false, false⟩
  | c :: rest =>
    if spec.form ≠ .flag then .ok ⟨[⟨spec, String.ofList (c :: rest)⟩], false, false⟩
    else if !isLetter then .error .usage
    else
      match g.find? (String.ofList ['-', c]), rest with
      | none, _ => .error .usage
      | some spec', [] => addFlag spec (expandLast spec' next)
      | some spec', rest => addFlag spec (expandText g next spec' true rest)
where
  /-- Sets a flag before what follows it. -/
  addFlag (spec : OptionSpec) (more : Except Exit Expansion) : Except Exit Expansion :=
    more.map fun e => { e with assignments := ⟨spec, ""⟩ :: e.assignments }

/-- What an option in an argument sets. -/
def Occurrence.expand (g : Grammar) (o : Occurrence) (next : Option String) : Except Exit Expansion :=
  match o.spec, o.value with
  | none, _ => .ok ⟨[], true, false⟩
  | some spec, none => expandLast spec next
  | some spec, some value => expandText g next spec (!beginsWith separatorText o.name) value.toList

/-- The value of an option in its form; the separator in its place omits it. -/
def settingOf (form : Form) (value : String) : Except Exit Setting :=
  match form with
  | .flag => .ok .flag
  | .text => .ok (if value = separatorText then .omitted else .text value)
  | .integer =>
    if value = separatorText then .ok .omitted
    else (Numeral.readInteger value).toOption.elim (.error .usage) fun n => .ok (.integer n)
  | .real =>
    if value = separatorText then .ok .omitted
    else (Numeral.readReal value).toOption.elim (.error .usage) fun x => .ok (.real x)

/-- Sets an option. -/
def Parsed.assign (p : Parsed) (a : Assignment) : Except Exit Parsed :=
  if a.spec.key = .help then .error .help
  else do
    let setting ← settingOf a.spec.form a.value
    return { p with settings := (a.spec.key, setting) :: p.settings }

/-- How many of the arguments at the front the positional arguments take. -/
def positionalCount (positionals : Positionals) (items : List (String × Role)) : Nat :=
  let before := (items.takeWhile (·.2.isSeparator)).length
  let rest := items.drop before
  if !rest.head?.any (·.2.isArgument) then 0
  else
    match positionals with
    | .none => 0
    | .some => before + (rest.takeWhile (!·.2.isOption)).length
    | .command => items.length

/-- The values of positional arguments: all of the arguments they take, without the first separator unless they
are a command. -/
def positionalValues (positionals : Positionals) (args : List String) : List String :=
  if positionals = .command then args else args.erase separatorText

/-- Reads arguments whose roles are known. -/
def readItems (g : Grammar) (p : Parsed) : List (String × Role) → Except Exit Parsed
  | [] => .ok p
  | (_, .option o) :: rest => do
    let next := (rest.head?.filter (·.2.isArgument)).map Prod.fst
    let e ← o.expand g next
    let p ← e.assignments.foldlM Parsed.assign { p with leftOver := p.leftOver || e.leftOver }
    readItems g p (rest.drop (if e.takesNext then 1 else 0))
  | item :: rest =>
    let taken := if p.positionals.isSome then 0 else positionalCount g.positionals (item :: rest)
    if 0 < taken then
      let args := ((item :: rest).take taken).map Prod.fst
      readItems g { p with positionals := some (positionalValues g.positionals args) } (rest.drop (taken - 1))
    else readItems g { p with leftOver := true } (rest.dropWhile (!·.2.isOption))
termination_by items => items.length
decreasing_by
  · simp only [List.length_cons, List.length_drop]
    omega
  · simp only [List.length_cons, List.length_drop]
    omega
  · have := (List.dropWhile_sublist (fun item : String × Role => !item.2.isOption) (l := rest)).length_le
    simp only [List.length_cons]
    omega

/-- Whether all that must be there is there. -/
def Grammar.satisfied (g : Grammar) (p : Parsed) : Bool :=
  g.options.all (fun spec => !spec.required || p.has spec.key) &&
    (g.positionals = .none || p.positionals.isSome)

/-- Reads a command line; what is left over does not end the reading. -/
def Grammar.read (g : Grammar) (args : List String) : Except Exit Parsed := do
  let items ← g.roles args
  let p ← readItems g {} items
  if g.satisfied p then return p else .error .usage

end Retrieval.Command
