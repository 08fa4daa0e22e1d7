import Mathlib.Data.List.Infix

/-!
# Syntax trees

The trees `ast.parse` gives for source text, as far as the analysis looks at them. A node
keeps its class with the names in it, its line, and its children under the fields they
stand in; its text is carried along as `ast.unparse` and `ast.get_source_segment` return it.
-/
namespace CodeResearch.Analysis

/-- `ast.alias`. -/
structure Alias where
  name : String
  asname : Option String
deriving DecidableEq

/-- The class of a node, with the attributes that are names. -/
inductive Kind where
  | functionDef (name : String) | asyncFunctionDef (name : String) | classDef (name : String)
  | importStmt (names : List Alias)
  | importFrom (module : Option String) (names : List Alias) (level : ℕ)
  | assign | annAssign | exprStmt | returnStmt
  | ifStmt | forStmt | whileStmt
  | call | attribute (attr : String) | name (id : String)
  | arguments | arg (name : String)
  | other (className : String)
deriving DecidableEq

/-- The field a child stands in. -/
inductive Field where
  | targets | target | value | func | args | body | bases | other
deriving DecidableEq

inductive Node where
  /-- `text` is what `ast.unparse` returns, `segment` what `ast.get_source_segment` does. -/
  | mk (kind : Kind) (lineno : Option ℕ) (text : String) (segment : Option String)
    (children : List (Field × Node))

namespace Node

def kind : Node → Kind
  | mk kind _ _ _ _ => kind

def lineno : Node → Option ℕ
  | mk _ lineno _ _ _ => lineno

def text : Node → String
  | mk _ _ text _ _ => text

def segment : Node → Option String
  | mk _ _ _ segment _ => segment

def fields : Node → List (Field × Node)
  | mk _ _ _ _ children => children

/-- `ast.iter_child_nodes`. -/
def children (n : Node) : List Node := n.fields.map Prod.snd

def field (n : Node) (f : Field) : List Node :=
  (n.fields.filter fun child => decide (child.1 = f)).map Prod.snd

mutual

def height : Node → ℕ
  | mk _ _ _ _ children => heights children + 1

def heights : List (Field × Node) → ℕ
  | [] => 0
  | (_, n) :: rest => max n.height (heights rest)

end

def level : ℕ → Node → List Node
  | 0, n => [n]
  | k + 1, n => n.children.flatMap (level k)

/-- `ast.walk`: level by level. -/
def walk (n : Node) : List Node := (List.range n.height).flatMap fun k => n.level k

/-- `ast.get_source_segment(source, node) or ast.unparse(node)`. -/
def sourceText (n : Node) : String :=
  match n.segment with
  | some segment => if segment = "" then n.text else segment
  | none => n.text

def IsFunction : Kind → Prop
  | .functionDef _ | .asyncFunctionDef _ => True
  | _ => False

instance (kind : Kind) : Decidable (IsFunction kind) := by
  cases kind <;> unfold IsFunction <;> infer_instance

end Node

/-- What the analysis takes from the interpreter. -/
structure Python where
  /-- `str.lower`. -/
  lower : String → String
  /-- `ast.parse`, or nothing where it raises a `SyntaxError`. -/
  parse : String → Option Node

/-- `part in text`. -/
def occursIn (part text : String) : Bool := decide (part.toList <:+: text.toList)

/-- `text.startswith(start)`. -/
def startsWith (start text : String) : Bool := decide (start.toList <+: text.toList)

/-- `text.endswith(ending)`. -/
def endsWith (ending text : String) : Bool := decide (ending.toList <:+ text.toList)

def splitRoot (name : String) : String × String :=
  (String.ofList (name.toList.takeWhile (· ≠ '.')),
    String.ofList (name.toList.dropWhile (· ≠ '.')))

/-- `aliases.get(name, name)`. -/
def aliasOf (aliases : List (String × String)) (name : String) : String :=
  (aliases.lookup name).getD name

/-- `_canonical_name`. -/
def canonicalName (name : String) (aliases : List (String × String)) : String :=
  aliasOf aliases (splitRoot name).1 ++ (splitRoot name).2

end CodeResearch.Analysis
