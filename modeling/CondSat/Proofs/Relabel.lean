import CondSat.Source.Expr
import Mathlib.Data.List.Forall2

/-! # Trees with other declarations and operators

`relabel` replaces every declaration a tree refers to and every resolved operator,
and leaves all else as it is.  Trees that are equal up to the numbers of their
declarations are relabelled into each other by `Declaration.renumber`.  `Matches`
relates trees that differ in their declarations and in their texts. -/
set_option autoImplicit false
namespace CondSat.Source

def Declaration.renumber (number : Nat → Nat) (declaration : Declaration) : Declaration :=
  { declaration with id := number declaration.id }

def Declaration.called (name : Declaration → Json) (declaration : Declaration) : Declaration :=
  { declaration with name := name declaration }

namespace Expr

/-- Induction over all nodes of a tree, those below a node that is not modelled
included. -/
@[elab_as_elim]
theorem treeInduction {motive : Expr → Prop}
    (literal : ∀ constant type text, motive (.literal constant type text))
    (reference : ∀ declaration type text constant,
      motive (.reference declaration type text constant))
    (unary : ∀ operator operand type text constant, motive operand →
      motive (.unary operator operand type text constant))
    (binary : ∀ operator left right type text constant, motive left → motive right →
      motive (.binary operator left right type text constant))
    (unmodelled : ∀ shape type text children constant, (∀ child ∈ children, motive child) →
      motive (.unmodelled shape type text children constant))
    (node : Expr) : motive node :=
  @Expr.rec motive (fun children => ∀ child ∈ children, motive child)
    literal reference
    (fun operator operand type text constant ih => unary operator operand type text constant ih)
    (fun operator left right type text constant leftIh rightIh =>
      binary operator left right type text constant leftIh rightIh)
    (fun shape type text children constant ih => unmodelled shape type text children constant ih)
    (by simp) (fun head tail headIh tailIh => by simpa using ⟨headIh, tailIh⟩) node

mutual

def relabel (declare : Declaration → Declaration) (resolve : Resolution → Resolution) : Expr → Expr
  | literal constant type text => literal constant type text
  | reference declaration type text constant =>
    reference (declaration.map declare) type text constant
  | unary operator operand type text constant =>
    unary (resolve operator) (relabel declare resolve operand) type text constant
  | binary operator left right type text constant =>
    binary (resolve operator) (relabel declare resolve left) (relabel declare resolve right) type
      text constant
  | unmodelled shape type text children constant =>
    unmodelled shape type text (relabels declare resolve children) constant

def relabels (declare : Declaration → Declaration) (resolve : Resolution → Resolution) :
    List Expr → List Expr
  | [] => []
  | node :: rest => relabel declare resolve node :: relabels declare resolve rest

end

section

variable (declare : Declaration → Declaration) (resolve : Resolution → Resolution) (node : Expr)

@[simp] theorem text_relabel : (node.relabel declare resolve).text = node.text := by
  cases node <;> rfl

@[simp] theorem type_relabel : (node.relabel declare resolve).type = node.type := by
  cases node <;> rfl

theorem relabels_eq_map (nodes : List Expr) :
    relabels declare resolve nodes = nodes.map (relabel declare resolve) := by
  induction nodes with
  | nil => rfl
  | cons node rest ih => simp [relabels, ih]

theorem preorders_eq_flatMap (nodes : List Expr) : preorders nodes = nodes.flatMap preorder := by
  induction nodes with
  | nil => rfl
  | cons node rest ih => simp [preorders, ih]

end

/-! ## All nodes of a tree -/

def Everywhere (property : Expr → Prop) (root : Expr) : Prop := ∀ node ∈ root.preorder, property node

def declaration? : Expr → Option Declaration
  | reference declaration _ _ _ => declaration
  | _ => none

def operator? : Expr → Option Resolution
  | unary operator _ _ _ _ => some operator
  | binary operator _ _ _ _ _ => some operator
  | _ => none

def declarations (root : Expr) : List Declaration := root.preorder.filterMap declaration?

section

variable {property : Expr → Prop} (operator : Resolution) (operand left right : Expr)
  (type : SourceType) (text : Json) (constant : Option Constant)

@[simp] theorem everywhere_literal (value : Constant) :
    (literal value type text).Everywhere property ↔ property (literal value type text) :=
  List.forall_mem_singleton

@[simp] theorem everywhere_reference (declaration : Option Declaration) :
    (reference declaration type text constant).Everywhere property ↔
      property (reference declaration type text constant) :=
  List.forall_mem_singleton

@[simp] theorem everywhere_unary :
    (unary operator operand type text constant).Everywhere property ↔
      property (unary operator operand type text constant) ∧ operand.Everywhere property :=
  List.forall_mem_cons

@[simp] theorem everywhere_binary :
    (binary operator left right type text constant).Everywhere property ↔
      property (binary operator left right type text constant) ∧
        left.Everywhere property ∧ right.Everywhere property :=
  List.forall_mem_cons.trans (and_congr_right fun _ => List.forall_mem_append)

@[simp] theorem everywhere_unmodelled (shape : Shape) (children : List Expr) :
    (unmodelled shape type text children constant).Everywhere property ↔
      property (unmodelled shape type text children constant) ∧
        ∀ child ∈ children, child.Everywhere property := by
  simp only [Everywhere, preorder, preorders_eq_flatMap, List.forall_mem_cons, List.mem_flatMap,
    forall_exists_index, and_imp]
  exact and_congr_right fun _ => ⟨fun all child member node inside => all node child member inside,
    fun all node child member inside => all child member node inside⟩

@[simp] theorem declarations_literal (value : Constant) :
    (literal value type text).declarations = [] := rfl

@[simp] theorem declarations_reference (declaration : Option Declaration) :
    (reference declaration type text constant).declarations = declaration.toList := by
  cases declaration <;> rfl

@[simp] theorem declarations_unary :
    (unary operator operand type text constant).declarations = operand.declarations := rfl

@[simp] theorem declarations_binary :
    (binary operator left right type text constant).declarations =
      left.declarations ++ right.declarations := by
  rw [declarations, preorder, List.filterMap_cons_none rfl, List.filterMap_append]
  rfl

@[simp] theorem declarations_unmodelled (shape : Shape) (children : List Expr) :
    (unmodelled shape type text children constant).declarations =
      children.flatMap declarations := by
  rw [declarations, preorder, List.filterMap_cons_none rfl, preorders_eq_flatMap,
    List.filterMap_flatMap]
  rfl

end

/-! ## Trees that differ in numbers only -/

section

variable {declare declare' : Declaration → Declaration} {resolve resolve' : Resolution → Resolution}

theorem operators_of_relabel_eq {node : Expr}
    (same : node.relabel declare resolve = node.relabel declare' resolve') :
    node.Everywhere fun other => ∀ resolution ∈ other.operator?,
      resolve resolution = resolve' resolution := by
  induction node using treeInduction with
  | literal constant type text => simp [operator?]
  | reference declaration type text constant => simp [operator?]
  | unary operator operand type text constant ih =>
      simp only [relabel, unary.injEq] at same
      simpa [operator?] using ⟨same.1, ih same.2.1⟩
  | binary operator left right type text constant leftIh rightIh =>
      simp only [relabel, binary.injEq] at same
      simpa [operator?] using ⟨same.1, leftIh same.2.1, rightIh same.2.2.1⟩
  | unmodelled shape type text children constant ih =>
      simp only [relabel, unmodelled.injEq, relabels_eq_map, List.map_inj_left] at same
      simpa [operator?] using fun child member => ih child member (same.2.2.2.1 child member)

theorem relabel_congr_operators {node : Expr}
    (agree : node.Everywhere fun other => ∀ resolution ∈ other.operator?,
      resolve resolution = resolve' resolution) :
    node.relabel declare resolve = node.relabel declare resolve' := by
  induction node using treeInduction with
  | literal constant type text => rfl
  | reference declaration type text constant => rfl
  | unary operator operand type text constant ih =>
      rw [everywhere_unary] at agree
      rw [relabel, relabel, agree.1 operator rfl, ih agree.2]
  | binary operator left right type text constant leftIh rightIh =>
      rw [everywhere_binary] at agree
      rw [relabel, relabel, agree.1 operator rfl, leftIh agree.2.1, rightIh agree.2.2]
  | unmodelled shape type text children constant ih =>
      rw [everywhere_unmodelled] at agree
      rw [relabel, relabel, relabels_eq_map, relabels_eq_map, List.map_congr_left fun child member =>
        ih child member (agree.2 child member)]

end

/-- The other tree differs from the first one at most in its declarations, which are
those of the first one put through `declare`, and in its texts, each of which `Word`
relates to the first one. -/
inductive Matches (declare : Declaration → Declaration) (Word : Json → Json → Prop) :
    Expr → Expr → Prop
  | literal (constant : Constant) (type : SourceType) {text text' : Json}
      (word : Word text text') :
      Matches declare Word (literal constant type text) (literal constant type text')
  | reference (declaration : Option Declaration) (type : SourceType) {text text' : Json}
      (constant : Option Constant) (word : Word text text') :
      Matches declare Word (reference declaration type text constant)
        (reference (declaration.map declare) type text' constant)
  | unary (operator : Resolution) {operand operand' : Expr} (type : SourceType)
      {text text' : Json} (constant : Option Constant) (word : Word text text')
      (below : Matches declare Word operand operand') :
      Matches declare Word (unary operator operand type text constant)
        (unary operator operand' type text' constant)
  | binary (operator : Resolution) {left left' right right' : Expr} (type : SourceType)
      {text text' : Json} (constant : Option Constant) (word : Word text text')
      (leftBelow : Matches declare Word left left')
      (rightBelow : Matches declare Word right right') :
      Matches declare Word (binary operator left right type text constant)
        (binary operator left' right' type text' constant)
  | unmodelled (shape : Shape) (type : SourceType) {text text' : Json}
      {children children' : List Expr} (constant : Option Constant) (word : Word text text')
      (below : List.Forall₂ (Matches declare Word) children children') :
      Matches declare Word (unmodelled shape type text children constant)
        (unmodelled shape type text' children' constant)

section

variable {declare : Declaration → Declaration} {Word : Json → Json → Prop} {node other : Expr}

theorem Matches.word (matched : node.Matches declare Word other) : Word node.text other.text := by
  cases matched <;> assumption

theorem Matches.type (matched : node.Matches declare Word other) : node.type = other.type := by
  cases matched <;> rfl

theorem matches_relabel (node : Expr) : node.Matches declare Eq (node.relabel declare id) := by
  induction node using treeInduction with
  | literal constant type text => exact .literal constant type rfl
  | reference declaration type text constant => exact .reference declaration type constant rfl
  | unary operator operand type text constant ih => exact .unary operator type constant rfl ih
  | binary operator left right type text constant leftIh rightIh =>
      exact .binary operator type constant rfl leftIh rightIh
  | unmodelled shape type text children constant ih =>
      rw [relabel, relabels_eq_map]
      refine .unmodelled shape type constant rfl ?_
      rw [List.forall₂_map_right_iff, List.forall₂_same]
      exact ih

end

/-- The other tree is the tree with its declarations numbered differently; declarations
that are different stay so. -/
def RenumbersTo (tree other : Expr) : Prop :=
  ∃ number : Nat → Nat, Function.Injective number ∧
    other = tree.relabel (Declaration.renumber number) id

/-- The other tree is the tree with its declarations called by other names, which may
coincide, and with any other texts.  Only where a value is no whole text, the other one is
of the same sort. -/
def RenamesTo (tree other : Expr) : Prop :=
  ∃ name : Declaration → Json,
    (∀ declaration ∈ tree.declarations, FareAlike declaration.name (name declaration)) ∧
    tree.Matches (Declaration.called name) FareAlike other

end Expr

end CondSat.Source
