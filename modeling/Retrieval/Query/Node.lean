import Retrieval.Index.Basic
import Retrieval.Json.Printer
import Retrieval.Merge
import Retrieval.Query.Token

/-!
# Evaluating expression trees

A query denotes a list of document ids: a term the documents it occurs in, negation the other ones of all documents,
and the connectives the intersection and the union of their operands.

A tree that does not come from the parser may have any operators, and values in places where a tree belongs.
Such a tree is written out as it is; it is evaluated node by node, against any list of documents, until a malformed
node is met.

Trees may be nested to any depth. That an interpreter limits how deeply calls are nested, and gives up evaluating a
tree that is deeper, is left out.
-/

set_option autoImplicit false

namespace Retrieval

/-- The merge of a connective. -/
def Query.Connective.merge : Query.Connective → List Int → List Int → List Int
  | .and => Merge.intersect
  | .or => Merge.union

/-- The documents that a query denotes, where `docs` gives those of a term. -/
def Query.eval (docs : String → List Int) (allDocs : List Int) : Query → List Int
  | .term name => docs name
  | .not arg => Merge.complement (arg.eval docs allDocs) allDocs
  | .join op left right => op.merge (left.eval docs allDocs) (right.eval docs allDocs)

namespace Query
open Json (Value)

/-- A node of an expression tree, well formed or not. -/
inductive Node where
  | term (name : String)
  | unary (op : Option String) (arg : Node)
  | binary (op : Option String) (left right : Node)
  /-- A value that is no node. -/
  | raw (v : Value)

/-- What is wrong with a node. -/
inductive NodeError where
  | unknownUnary (op : Option String)
  | unknownBinary (op : Option String)
  | unknownNode (type : String)

/-- The value that an operator is. -/
def operatorValue (op : Option String) : Value := op.elim .null .string

/-- The text of an operator where it is not quoted. -/
def operatorText (op : Option String) : String := op.getD Value.null.shown

/-- The text of the error. -/
def NodeError.message : NodeError → String
  | .unknownUnary op => s!"Unknown unary operator: {(operatorValue op).shown}"
  | .unknownBinary op => s!"Unknown binary operator: {(operatorValue op).shown}"
  | .unknownNode type => s!"Unknown node type: {type}"

/-- The name of the type of a value in messages. -/
def typeName : Value → String
  | .null => "NoneType"
  | .bool _ => "bool"
  | .integer _ => "int"
  | .real _ => "float"
  | .string _ => "str"
  | .list _ => "list"
  | .object _ => "dict"

/-- The connective with a text. -/
def Connective.ofText? (op : Option String) : Option Connective :=
  [Connective.and, Connective.or].find? fun c => op = some c.text

namespace Node

/-- The tree of a query. -/
def ofQuery : Query → Node
  | .term name => .term name
  | .not arg => .unary (some notText) (ofQuery arg)
  | .join op left right => .binary (some op.text) (ofQuery left) (ofQuery right)

/-- The documents of an index that a tree denotes. Negation is relative to the given documents, or to all documents
of the index; names are stemmed, if a stemmer is given, before they are looked up. An operator is checked before its
operands are evaluated, and both operands are evaluated before they are merged. -/
def evaluate {α : Type} (ix : Index α) (among : Option (List Int)) (stem : Option (String → String)) :
    Node → Except NodeError (List Int)
  | .term name => .ok (ix.docs (stem.getD id name))
  | .unary op arg =>
    if op = some notText then do
      let docs ← arg.evaluate ix among stem
      return Merge.complement docs (among.getD ix.allDocs)
    else .error (.unknownUnary op)
  | .binary op left right =>
    match Connective.ofText? op with
    | none => .error (.unknownBinary op)
    | some c => do
      let l ← left.evaluate ix among stem
      let r ← right.evaluate ix among stem
      return c.merge l r
  | .raw v => .error (.unknownNode (typeName v))

/-- The tree in functional form, such as `OR(AND(a, b), NOT(c))`. -/
def sexpr : Node → String
  | .term name => name
  | .unary op arg => operatorText op ++ "(" ++ arg.sexpr ++ ")"
  | .binary op left right => operatorText op ++ "(" ++ left.sexpr ++ ", " ++ right.sexpr ++ ")"
  | .raw v => v.shown

end Node
end Query

/-- A query in functional form. -/
def Query.sexpr (q : Query) : String := (Query.Node.ofQuery q).sexpr

end Retrieval
