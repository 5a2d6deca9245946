import Retrieval.Text.Blank
import Retrieval.Text.Digit

/-!
# Grammar of command lines

A command line is a list of arguments. Which of them are options is decided first, argument by argument: an option
may be abbreviated, may carry its value after `=`, or, when it is one letter, directly after it. What starts with a
dash and is no option is still a value when it looks like a negative number or holds a space.
-/

set_option autoImplicit false

namespace Retrieval.Command

/-- What an option sets. -/
inductive Key where
  | help
  | verbose
  | version
  | stopWords
  | collection
  | output
  | workers
  | index
  | topK
  | queries
  | relevance
  | threshold
  | cutoff
  deriving DecidableEq

/-- The form of an option's value. -/
inductive Form where
  /-- The option has no value. -/
  | flag
  | text
  | integer
  | real
  deriving DecidableEq

/-- An option of a command. -/
structure OptionSpec where
  key : Key
  names : List String
  form : Form := .text
  required : Bool := false

/-- The arguments of a command that are no options. -/
inductive Positionals where
  | none
  /-- One or more, in one piece. -/
  | some
  /-- The name of a command and all that follows it. -/
  | command
  deriving DecidableEq

/-- The options and positional arguments of a command. -/
structure Grammar where
  options : List OptionSpec
  positionals : Positionals

/-- How a command line ends that is not run: after showing help, or after an error in it. -/
inductive Exit where
  | help
  | usage
  deriving DecidableEq

/-- The status of a command line that is not run. -/
def Exit.status : Exit → Nat
  | .help => 0
  | .usage => 2

/-- An option in an argument: which one, unless it is unknown, the name that it was written with, and the value, if
it is part of the argument. -/
structure Occurrence where
  spec : Option OptionSpec
  name : String
  value : Option String := none

/-- How an argument is read. -/
inductive Role where
  | option (o : Occurrence)
  | argument
  /-- The first `--`, after which there are no options. -/
  | separator

/-- The separator. -/
def separatorText : String := "--"

/-- Whether the role is that of an option. -/
def Role.isOption : Role → Bool
  | .option _ => true
  | _ => false

/-- Whether the role is that of an argument. -/
def Role.isArgument : Role → Bool
  | .argument => true
  | _ => false

/-- Whether the role is that of the separator. -/
def Role.isSeparator : Role → Bool
  | .separator => true
  | _ => false

namespace Grammar

/-- The names of all options, each with its option. -/
def namedOptions (g : Grammar) : List (String × OptionSpec) :=
  g.options.flatMap fun spec => spec.names.map fun name => (name, spec)

/-- The option with exactly the given name. -/
def find? (g : Grammar) (name : String) : Option OptionSpec := g.namedOptions.lookup name

end Grammar

/-- The parts of an argument before and after its first `=`, if it has one. -/
def splitAtMark (arg : String) : Option (String × String) :=
  match arg.toList.dropWhile (· ≠ '=') with
  | [] => none
  | _ :: after => some (String.ofList (arg.toList.takeWhile (· ≠ '=')), String.ofList after)

/-- Whether the first text is a beginning of the second. -/
def beginsWith (start text : String) : Bool := start.toList.isPrefixOf text.toList

/-- The options that an argument may abbreviate or begin with. -/
def Grammar.candidates (g : Grammar) (arg : String) : List Occurrence :=
  if beginsWith separatorText arg then
    let (start, value) := (splitAtMark arg).elim (arg, none) fun (start, value) => (start, some value)
    (g.namedOptions.filter fun (name, _) => beginsWith start name).map fun (name, spec) =>
      ⟨some spec, name, value⟩
  else
    g.namedOptions.filterMap fun (name, spec) =>
      if name.toList = arg.toList.take 2 then
        some ⟨some spec, name, some (String.ofList (arg.toList.drop 2))⟩
      else if beginsWith arg name then some ⟨some spec, name, none⟩
      else none

/-- Whether an argument is a negative number: digits of any script with at most one point, some of them after it;
one newline may follow. -/
def isNegativeNumber (arg : String) : Bool :=
  match arg.toList with
  | '-' :: body =>
    let body := if body.getLast? = some '\n' then body.dropLast else body
    match body.dropWhile Text.isDecimal with
    | [] => !body.isEmpty
    | '.' :: places => !places.isEmpty && places.all Text.isDecimal
    | _ => false
  | _ => false

/-- The role of an argument before the separator. -/
def Grammar.role (g : Grammar) (arg : String) : Except Exit Role :=
  if !beginsWith "-" arg then .ok .argument
  else
    match g.find? arg, splitAtMark arg with
    | some spec, _ => .ok (.option ⟨some spec, arg, none⟩)
    | none, mark =>
      if arg = "-" then .ok .argument
      else
        match mark.bind fun (name, value) => (g.find? name).map fun spec => (spec, name, value) with
        | some (spec, name, value) => .ok (.option ⟨some spec, name, some value⟩)
        | none =>
          match g.candidates arg with
          | [o] => .ok (.option o)
          | [] =>
            if isNegativeNumber arg || arg.toList.contains ' ' then .ok .argument
            else .ok (.option ⟨none, arg, none⟩)
          | _ => .error .usage

/-- The roles of all arguments. -/
def Grammar.roles (g : Grammar) : List String → Except Exit (List (String × Role))
  | [] => .ok []
  | arg :: rest =>
    if arg = separatorText then .ok ((arg, .separator) :: rest.map fun arg => (arg, .argument))
    else do
      let role ← g.role arg
      let more ← g.roles rest
      return (arg, role) :: more

end Retrieval.Command
