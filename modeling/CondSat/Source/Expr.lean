import CondSat.Source.Label
import CondSat.Source.Operator

/-! # Typed expression trees

The closed set of node shapes type resolution hands over.  Every node has a
static type, its source text and possibly a compile-time constant.  A document may put
any value where the text of a node or the name of a declaration is wanted, and the value
is kept.  `walk` visits a tree with an explicit stack of pending nodes; `preorder` is the
same order by recursion over the tree. -/
set_option autoImplicit false
namespace CondSat.Source

/-- A compile-time constant with the kind of its value at run time, which may
differ from the static type of the node. -/
structure Constant where
  value : Json
  kind : Kind
  deriving DecidableEq, Repr, Inhabited

inductive ElementKind where
  | localVariable | parameter | field | constant | other
  deriving DecidableEq, Repr, Inhabited

namespace ElementKind

def all : List ElementKind := [localVariable, parameter, field, constant, other]

def name : ElementKind → String
  | localVariable => "local"
  | parameter => "parameter"
  | field => "field"
  | constant => "constant"
  | other => "other"

def label : ElementKind → String
  | localVariable => "LOCAL"
  | parameter => "PARAMETER"
  | field => "FIELD"
  | constant => "CONSTANT"
  | other => "OTHER"

def ofName? (text : String) : Option ElementKind := all.find? (·.name == text)

end ElementKind

/-- A declaration that references resolve to.  Two references mean the same
thing exactly when their declarations carry the same number. -/
structure Declaration where
  name : Json
  kind : ElementKind
  type : SourceType
  id : Nat
  deriving DecidableEq, Repr, Inhabited

/-- Locals and parameters can take any value of their type. -/
def Declaration.isVariable (declaration : Declaration) : Bool :=
  match declaration.kind with
  | .localVariable | .parameter => true
  | _ => false

inductive Shape where
  | invocation | cast | increment | decrement | memberAccess | elementAccess | conditional
  | assignment | other
  deriving DecidableEq, Repr, Inhabited

namespace Shape

def all : List Shape :=
  [invocation, cast, increment, decrement, memberAccess, elementAccess, conditional, assignment,
   other]

def name : Shape → String
  | invocation => "invocation"
  | cast => "cast"
  | increment => "increment"
  | decrement => "decrement"
  | memberAccess => "member_access"
  | elementAccess => "element_access"
  | conditional => "conditional"
  | assignment => "assignment"
  | other => "other"

def ofName? (text : String) : Option Shape := all.find? (·.name == text)

end Shape

inductive Expr where
  | literal (constant : Constant) (type : SourceType) (text : Json)
  | reference (declaration : Option Declaration) (type : SourceType) (text : Json)
      (constant : Option Constant)
  | unary (operator : Resolution) (operand : Expr) (type : SourceType) (text : Json)
      (constant : Option Constant)
  | binary (operator : Resolution) (left right : Expr) (type : SourceType) (text : Json)
      (constant : Option Constant)
  | unmodelled (shape : Shape) (type : SourceType) (text : Json) (children : List Expr)
      (constant : Option Constant)
  deriving Repr, Inhabited

namespace Expr

def type : Expr → SourceType
  | literal _ type _ => type
  | reference _ type _ _ => type
  | unary _ _ type _ _ => type
  | binary _ _ _ type _ _ => type
  | unmodelled _ type _ _ _ => type

def text : Expr → Json
  | literal _ _ text => text
  | reference _ _ text _ => text
  | unary _ _ _ text _ => text
  | binary _ _ _ _ text _ => text
  | unmodelled _ _ text _ _ => text

def constant? : Expr → Option Constant
  | literal constant _ _ => some constant
  | reference _ _ _ constant => constant
  | unary _ _ _ _ constant => constant
  | binary _ _ _ _ _ constant => constant
  | unmodelled _ _ _ _ constant => constant

def children : Expr → List Expr
  | unary _ operand _ _ _ => [operand]
  | binary _ left right _ _ _ => [left, right]
  | unmodelled _ _ _ children _ => children
  | _ => []

/-- The text of a node as an operand: binary nodes are put in brackets. -/
def operandText : Expr → Json
  | binary _ _ _ _ text _ => .str "(" ++ text ++ .str ")"
  | node => node.text

/-- What a node is looked up by where it is not modelled. -/
def label (node : Expr) : Json := lookupForm node.text

mutual

def size : Expr → Nat
  | unary _ operand _ _ _ => size operand + 1
  | binary _ left right _ _ _ => size left + size right + 1
  | unmodelled _ _ _ children _ => sizes children + 1
  | _ => 1

def sizes : List Expr → Nat
  | [] => 0
  | node :: rest => size node + sizes rest

end

theorem sizes_append (left right : List Expr) : sizes (left ++ right) = sizes left + sizes right := by
  induction left with
  | nil => simp [sizes]
  | cons node rest ih => simp [sizes, ih]; omega

theorem sizes_children_lt (node : Expr) : sizes node.children < size node := by
  cases node <;> simp [children, size, sizes]

def visit : List Expr → List Expr
  | [] => []
  | node :: pending => node :: visit (node.children ++ pending)
termination_by pending => sizes pending
decreasing_by
  have := sizes_children_lt node
  simp only [sizes_append, sizes]
  omega

/-- A node and all its descendants, each parent before its children. -/
def walk (root : Expr) : List Expr := visit [root]

mutual

def preorder : Expr → List Expr
  | .unary operator operand type text constant =>
    .unary operator operand type text constant :: preorder operand
  | .binary operator left right type text constant =>
    .binary operator left right type text constant :: (preorder left ++ preorder right)
  | .unmodelled shape type text children constant =>
    .unmodelled shape type text children constant :: preorders children
  | node => [node]

def preorders : List Expr → List Expr
  | [] => []
  | node :: rest => preorder node ++ preorders rest

end

end Expr

end CondSat.Source
