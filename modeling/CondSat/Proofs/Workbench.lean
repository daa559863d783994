import CondSat.Proofs.Reloading
import CondSat.Proofs.Renumbering
import CondSat.Proofs.StaticSort

/-! # Trees made by the builder

A `Bench` holds the trees built so far.  One step is one call of the builder on
operands that are values or trees of the bench; it adds the tree it made, and a call
that declares something takes a number that was not used before.  Whatever is on a
bench can be put into a document, has its texts kept there, and uses the operators of
the catalogue as they are: `Step.sound` says so of one call and `Reaches.sound` of any
number of them.  So every tree that was built is read back from its document, the same
but for its numbers, and has the same formula. -/
set_option autoImplicit false
namespace CondSat.Source

/-! ## Calls -/

/-- A call of the builder. -/
inductive Call where
  | localVariable (name : String) (type : SourceType)
  | parameter (name : String) (type : SourceType)
  | field (name : String) (type : SourceType) (value : Option Json)
  | enumMember (type : SourceType) (name : String) (value : Json)
  | unresolved (text : String) (type : SourceType)
  | literal (value : Json) (type : Option SourceType)
  | invocation (name : String) (type : SourceType) (arguments : List Operand)
  | cast (type : SourceType) (operand : Operand)
  | apply (tag : Tag) (first : Operand) (second : Option Operand)
  | unary (token : String) (operand : Operand)
  | binary (token : String) (left right : Operand)
  | joined (token : String) (first : Operand) (others : List Operand)

namespace Call

/-- The tree that a call makes; a declaration of its own gets the number. -/
def build (id : Nat) : Call → Except BuildFault Expr
  | localVariable name type => .ok (.localVariable name type id)
  | parameter name type => .ok (.parameter name type id)
  | field name type value => .ok (.field name type value id)
  | enumMember type name value => Expr.enumMember type name value id
  | unresolved text type => .ok (.unresolved text type)
  | literal value none => Expr.ofValue value
  | literal value (some type) => .ok (.ofLiteral value type)
  | invocation name type arguments => do return .call name type (← Operand.liftAll arguments)
  | cast type operand => do return .castTo type (← operand.lift)
  | apply tag first second => applyTag tag first second
  | unary token operand => do Expr.unaryOf token (← operand.lift)
  | binary token left right => combine token left right
  | joined token first others => joinAll token first others

def names : Call → List String
  | localVariable name _ | parameter name _ | field name _ _ | enumMember _ name _
  | unresolved name _ | invocation name _ _ => [name]
  | _ => []

def types : Call → List SourceType
  | localVariable _ type | parameter _ type | field _ type _ | enumMember type _ _
  | unresolved _ type | invocation _ type _ | cast type _ => [type]
  | literal _ type => type.toList
  | _ => []

def operands : Call → List Operand
  | invocation _ _ arguments => arguments
  | cast _ operand | unary _ operand => [operand]
  | apply _ first second => first :: second.toList
  | binary _ left right => [left, right]
  | joined _ first others => first :: others
  | _ => []

/-- Names are not empty, types are ones that documents hold, and trees come from the bench. -/
structure Admitted (call : Call) (trees : List Expr) : Prop where
  named : ∀ name ∈ call.names, name ≠ ""
  typed : ∀ type ∈ call.types, type.Storable
  present : ∀ tree, .node tree ∈ call.operands → tree ∈ trees

end Call

/-! ## Texts made of values -/

theorem append_eq_ofMarks (first second : Json) :
    first ++ second = .ofMarks (first.marks ++ second.marks) := by
  have whole : ∀ text : String, (text.toList.map Text.Mark.char).any Text.Mark.isHalf = false := by
    intro text
    simp [Text.Mark.isHalf]
  have spelled : ∀ text : String,
      (text.toList.map Text.Mark.char).flatMap Text.Mark.spelled = text.toList := by
    intro text
    simp [List.flatMap_map, Text.Mark.spelled]
  change Json.append first second = _
  cases first with
  | torn => rfl
  | _ =>
      cases second with
      | torn => rfl
      | _ => simp [Json.append, Json.ofMarks, Json.marks, whole, spelled]

theorem isTruthy_append {first second : Json} :
    (first ++ second).isTruthy = true ↔ first.marks ≠ [] ∨ second.marks ≠ [] := by
  have joined : (first ++ second).isTruthy = !(first.marks ++ second.marks).isEmpty := by
    rw [append_eq_ofMarks]
    generalize first.marks ++ second.marks = marks
    unfold Json.ofMarks
    split
    · next halved =>
        cases marks with
        | nil => cases halved
        | cons mark rest => rfl
    · cases marks with
      | nil => simp [Json.isTruthy]
      | cons mark rest => cases mark <;> simp [Json.isTruthy, Text.Mark.spelled]
  rw [joined]
  simp [or_iff_not_imp_left]

theorem isTruthy_str {text : String} : (Json.str text).isTruthy = true ↔ text ≠ "" := by
  simp [Json.isTruthy]

theorem marks_str_ne_nil {text : String} (nonempty : text ≠ "") : (Json.str text).marks ≠ [] := by
  simpa [Json.marks, Json.display] using nonempty

theorem marks_ne_nil {value : Json} (nonempty : value ≠ .str "") : value.marks ≠ [] := by
  obtain ⟨c, rest, starts, -⟩ := value.quoted_starts
  cases value with
  | str text => exact marks_str_ne_nil fun empty => nonempty (congrArg Json.str empty)
  | torn text =>
      intro empty
      have halved := text.torn
      rw [show text.marks = [] from empty] at halved
      cases halved
  | _ => simp [Json.marks, Json.display, starts]

/-! ## What a call makes -/

/-- What every node that the builder makes is like. -/
structure Expr.Made (node : Expr) : Prop where
  storable : node.StorableNode
  kept : node.KeepsText
  catalogued : ∀ resolution ∈ node.operator?, resolution.catalogued = resolution

/-- A tree of such nodes that refers to declarations of other trees only. -/
structure Composed (trees : List Expr) (tree : Expr) : Prop where
  made : tree.Everywhere Expr.Made
  declared : tree.declarations ⊆ trees.flatMap Expr.declarations

section Calls

variable {trees : List Expr}

theorem composed_ofLiteral (value : Json) {type : SourceType} (storable : type.Storable) :
    Composed trees (.ofLiteral value type) := by
  refine ⟨(Expr.everywhere_literal ..).mpr ⟨storable, Or.inr rfl, ?_⟩, List.nil_subset _⟩
  rintro resolution ⟨⟩

theorem ofValue_composed {value : Json} {tree : Expr} (built : Expr.ofValue value = .ok tree) :
    Composed trees tree := by
  obtain ⟨type, guarded, built⟩ := bind_ok built
  cases built
  cases typed : literalType value with
  | error fault =>
      rw [typed] at guarded
      cases guarded
  | ok found =>
      rw [typed] at guarded
      cases guarded
      exact composed_ofLiteral value (Or.inl (literalType_ok typed))

theorem Tag.token_nonempty (tag : Tag) : tag.token ≠ "" := by
  cases tag with
  | connective op | arithmetic op type | bitwise op type | shift op type | comparison op type
  | floatArithmetic op type | floatComparison op type =>
      change op.token ≠ ""
      cases op <;> decide
  | unmodelled op => cases op <;> decide
  | enumEqual => decide
  | enumUnequal => decide
  | negation => decide
  | complement type => exact (by decide : "~" ≠ "")
  | minus type | floatMinus type => exact (by decide : "-" ≠ "")
  | plus type | floatPlus type => exact (by decide : "+" ≠ "")

theorem Composed.applyUnary {operand : Expr} (composed : Composed trees operand) (tag : Tag) :
    Composed trees (.applyUnary tag operand) := by
  refine ⟨(Expr.everywhere_unary ..).mpr ⟨⟨⟨.predefined tag, tag.storable_result⟩, ?_, ?_⟩,
    composed.made⟩, composed.declared⟩
  · exact isTruthy_append.mpr (Or.inl (marks_str_ne_nil tag.token_nonempty))
  · rintro resolution ⟨⟩
    rfl

theorem Composed.applyBinary {left right : Expr} (leftComposed : Composed trees left)
    (rightComposed : Composed trees right) (tag : Tag) :
    Composed trees (.applyBinary tag left right) := by
  refine ⟨(Expr.everywhere_binary ..).mpr ⟨⟨⟨.predefined tag, tag.storable_result⟩, ?_, ?_⟩,
    leftComposed.made, rightComposed.made⟩, ?_⟩
  · refine isTruthy_append.mpr (Or.inl (marks_ne_nil fun empty => ?_))
    have shown : (left.operandText ++ .str (" " ++ tag.token ++ " ") : Json).isTruthy = true :=
      isTruthy_append.mpr (Or.inr (marks_str_ne_nil (by simp)))
    rw [empty] at shown
    cases shown
  · rintro resolution ⟨⟩
    rfl
  · rw [Expr.applyBinary, Expr.declarations_binary]
    exact List.append_subset.mpr ⟨leftComposed.declared, rightComposed.declared⟩

theorem composed_unmodelled {shape : Shape} {type : SourceType} {text : Json}
    {children : List Expr} (storable : type.Storable) (nonempty : text.isTruthy = true)
    (composed : ∀ child ∈ children, Composed trees child) :
    Composed trees (.unmodelled shape type text children none) := by
  refine ⟨(Expr.everywhere_unmodelled ..).mpr ⟨⟨storable, nonempty, ?_⟩, fun child member =>
    (composed child member).made⟩, ?_⟩
  · rintro resolution ⟨⟩
  · rw [Expr.declarations_unmodelled]
    intro declaration member
    obtain ⟨child, isChild, used⟩ := List.mem_flatMap.mp member
    exact (composed child isChild).declared used

theorem composed_unresolved {type : SourceType} {text : String} (storable : type.Storable)
    (nonempty : text ≠ "") : Composed trees (.unresolved text type) := by
  refine ⟨(Expr.everywhere_reference ..).mpr ⟨⟨storable, by simp⟩, isTruthy_str.mpr nonempty, ?_⟩,
    List.nil_subset _⟩
  rintro resolution ⟨⟩

theorem made_reference {declaration : Declaration} {type : SourceType} {text : Json}
    {constant : Option Constant} (storable : type.Storable) (nonempty : text.isTruthy = true)
    (typed : declaration.type = type) :
    (Expr.reference (some declaration) type text constant).Everywhere Expr.Made := by
  refine (Expr.everywhere_reference ..).mpr ⟨⟨storable, ?_⟩, nonempty, ?_⟩
  · rintro known ⟨⟩
    exact typed
  · rintro resolution ⟨⟩

theorem made_ofDeclaration {declaration : Declaration} (storable : declaration.type.Storable)
    (nonempty : declaration.name.isTruthy = true) :
    (Expr.ofDeclaration declaration).Everywhere Expr.Made :=
  made_reference storable nonempty rfl

/-! ### Converted literals -/

theorem literalText_nonempty {value : Json} {type : SourceType} (int : type.kind = .int)
    (nonempty : value ≠ .str "") : (literalText value type).isTruthy = true := by
  have shown : (value ++ .str "" : Json).isTruthy = true :=
    isTruthy_append.mpr (Or.inl (marks_ne_nil nonempty))
  unfold literalText
  rw [int]
  cases value with
  | null => rfl
  | _ => exact shown

theorem wholeValue?_nonempty {value : Json} {number : Int} (whole : wholeValue? value = some number) :
    value ≠ .str "" := by
  rintro rfl
  cases whole

theorem realValue_nonempty {value real : Json} (read : realValue value = .ok real) :
    value ≠ .str "" := by
  rintro rfl
  cases read

theorem converted_integer (goal : IntegerType) {value text : Json} {other : Expr}
    (made : (if (wholeValue? value).any goal.contains then
      some (Expr.literal ⟨value, goal.kind⟩ goal.type text) else none) = some other) :
    ∃ found goal, value ≠ .str "" ∧ goal.Storable ∧ other = .literal found goal text := by
  split at made
  · next contained =>
      cases made
      cases whole : wholeValue? value with
      | none => simp [whole] at contained
      | some number => exact ⟨_, _, wholeValue?_nonempty whole, goal.storable, rfl⟩
  · cases made

theorem converted_float (goal : FloatType) {value text : Json} {other : Expr}
    (made : (realValue value).map (fun real =>
      some (Expr.literal ⟨real, goal.kind⟩ goal.type text)) = .ok (some other)) :
    ∃ found goal, value ≠ .str "" ∧ goal.Storable ∧ other = .literal found goal text := by
  cases read : realValue value with
  | error fault =>
      rw [read] at made
      cases made
  | ok real =>
      rw [read] at made
      cases made
      exact ⟨_, _, realValue_nonempty read, goal.storable, rfl⟩

/-- What converting a literal makes: a literal of a number type that is written the same. -/
theorem converted?_some {node other : Expr} {target : SourceType}
    (converted : node.converted? target = .ok (some other)) :
    ∃ constant type text found goal, node = .literal constant type text ∧ type.kind = .int ∧
      constant.value ≠ .str "" ∧ goal.Storable ∧ other = .literal found goal text := by
  cases node with
  | literal constant type text =>
      by_cases int : type.kind = .int
      · rw [Expr.converted?, if_neg (not_not_intro int)] at converted
        have result : ∃ found goal, constant.value ≠ .str "" ∧ goal.Storable ∧
            other = .literal found goal text := by
          dsimp only at converted
          split at converted
          · exact converted_integer .uint (Except.ok.inj converted)
          · exact converted_integer .long (Except.ok.inj converted)
          · exact converted_integer .ulong (Except.ok.inj converted)
          · exact converted_float .float converted
          · exact converted_float .double converted
          · cases converted
        obtain ⟨found, goal, nonempty, storable, rfl⟩ := result
        exact ⟨constant, type, text, found, goal, rfl, int, nonempty, storable, rfl⟩
      · rw [Expr.converted?, if_pos int] at converted
        cases converted
  | _ => cases converted

theorem Composed.converted {node result : Expr} {target : SourceType}
    (composed : Composed trees node) (run : node.converted target = .ok result) :
    Composed trees result := by
  unfold Expr.converted at run
  cases converted : node.converted? target with
  | error fault =>
      rw [converted] at run
      cases run
  | ok other =>
      rw [converted] at run
      cases other with
      | none =>
          cases run
          exact composed
      | some other =>
          cases run
          obtain ⟨constant, type, text, found, goal, rfl, int, nonempty, storable, rfl⟩ :=
            converted?_some converted
          -- the text stays as it was, but it no longer is what the literal would be given
          have kept := ((Expr.everywhere_literal ..).mp composed.made).kept
          have written : text.isTruthy = true := by
            rcases kept with written | same
            · exact written
            · exact same ▸ literalText_nonempty int nonempty
          refine ⟨(Expr.everywhere_literal ..).mpr ⟨storable, Or.inl written, ?_⟩,
            List.nil_subset _⟩
          rintro resolution ⟨⟩

theorem Composed.binaryOf {token : String} {left right tree : Expr} (first : Composed trees left)
    (second : Composed trees right) (built : Expr.binaryOf token left right = .ok tree) :
    Composed trees tree := by
  obtain ⟨pair, converted, built⟩ := bind_ok built
  have both : Composed trees pair.1 ∧ Composed trees pair.2 := by
    unfold Expr.convertedPair at converted
    split at converted
    · cases converted
      exact ⟨first, second⟩
    · obtain ⟨newRight, rightConverted, converted⟩ := bind_ok converted
      obtain ⟨newLeft, leftConverted, converted⟩ := bind_ok converted
      cases converted
      exact ⟨first.converted leftConverted, second.converted rightConverted⟩
  obtain ⟨tag, -, built⟩ := bind_ok built
  cases built
  exact both.1.applyBinary both.2 tag

theorem Composed.unaryOf {token : String} {operand tree : Expr} (composed : Composed trees operand)
    (built : Expr.unaryOf token operand = .ok tree) : Composed trees tree := by
  obtain ⟨tag, -, built⟩ := bind_ok built
  cases built
  exact composed.applyUnary tag

/-! ### Operands from a bench -/

variable (made : ∀ tree ∈ trees, tree.Everywhere Expr.Made)
include made

theorem lift_composed {operands : List Operand} {operand : Operand} {tree : Expr}
    (present : ∀ tree, .node tree ∈ operands → tree ∈ trees) (member : operand ∈ operands)
    (lifted : operand.lift = .ok tree) : Composed trees tree := by
  cases operand with
  | value given => exact ofValue_composed lifted
  | node known =>
      cases lifted
      have known := present tree member
      exact ⟨made tree known, fun declaration used => List.mem_flatMap.mpr ⟨tree, known, used⟩⟩

theorem combine_composed {token : String} {left right : Operand} {tree : Expr}
    (present : ∀ tree, .node tree ∈ [left, right] → tree ∈ trees)
    (built : combine token left right = .ok tree) : Composed trees tree := by
  have first : ∀ tree, left.lift = .ok tree → Composed trees tree := fun tree =>
    lift_composed made present (by simp)
  have second : ∀ tree, right.lift = .ok tree → Composed trees tree := fun tree =>
    lift_composed made present (by simp)
  unfold combine at built
  -- a value on the left of a tree is lifted last, and a comparison is then turned around
  split at built
  · obtain ⟨rightTree, rightLifted, built⟩ := bind_ok built
    obtain ⟨leftTree, leftLifted, built⟩ := bind_ok built
    exact (second _ rightLifted).binaryOf (first _ leftLifted) built
  · obtain ⟨rightTree, rightLifted, built⟩ := bind_ok built
    obtain ⟨leftTree, leftLifted, built⟩ := bind_ok built
    exact (first _ leftLifted).binaryOf (second _ rightLifted) built
  · obtain ⟨leftTree, leftLifted, built⟩ := bind_ok built
    obtain ⟨rightTree, rightLifted, built⟩ := bind_ok built
    exact (first _ leftLifted).binaryOf (second _ rightLifted) built

theorem applyTag_composed {tag : Tag} {first : Operand} {second : Option Operand} {tree : Expr}
    (present : ∀ tree, .node tree ∈ first :: second.toList → tree ∈ trees)
    (built : applyTag tag first second = .ok tree) : Composed trees tree := by
  obtain ⟨left, lifted, built⟩ := bind_ok built
  have composed : Composed trees left := lift_composed made present (by simp) lifted
  split at built
  · cases built
    exact composed.applyUnary tag
  · cases built
  · cases built
  · next other _ =>
      obtain ⟨right, rightLifted, built⟩ := bind_ok built
      cases built
      refine composed.applyBinary ?_ tag
      exact lift_composed made present (by simp) rightLifted

/-- Joining goes on with a tree from what was joined before. -/
theorem join_composed {token : String} {others : List Operand} {tree : Expr}
    (present : ∀ tree, .node tree ∈ others → tree ∈ trees) :
    ∀ {joined : Expr}, Composed trees joined →
      others.foldlM (fun joined other => do Expr.binaryOf token joined (← other.lift)) joined =
        .ok tree → Composed trees tree := by
  induction others with
  | nil =>
      intro joined composed built
      cases built
      exact composed
  | cons operand rest ih =>
      intro joined composed built
      rw [List.foldlM_cons] at built
      obtain ⟨next, step, built⟩ := bind_ok built
      obtain ⟨other, lifted, step⟩ := bind_ok step
      have second : Composed trees other := lift_composed made present (by simp) lifted
      exact ih (fun tree member => present tree (List.mem_cons_of_mem _ member))
        (composed.binaryOf second step) built

theorem joinAll_composed {token : String} {first : Operand} {others : List Operand} {tree : Expr}
    (present : ∀ tree, .node tree ∈ first :: others → tree ∈ trees)
    (built : joinAll token first others = .ok tree) : Composed trees tree := by
  obtain ⟨start, lifted, built⟩ := bind_ok built
  have composed : Composed trees start := lift_composed made present (by simp) lifted
  exact join_composed made (fun tree member => present tree (List.mem_cons_of_mem _ member))
    composed built

theorem liftAll_composed {operands : List Operand} {nodes : List Expr}
    (present : ∀ tree, .node tree ∈ operands → tree ∈ trees)
    (lifted : Operand.liftAll operands = .ok nodes) : ∀ node ∈ nodes, Composed trees node := by
  unfold Operand.liftAll at lifted
  induction operands generalizing nodes with
  | nil =>
      cases lifted
      simp
  | cons operand rest ih =>
      rw [List.mapM_cons] at lifted
      obtain ⟨node, first, lifted⟩ := bind_ok lifted
      obtain ⟨others, second, lifted⟩ := bind_ok lifted
      cases lifted
      rw [List.forall_mem_cons]
      exact ⟨lift_composed made present (by simp) first,
        ih (fun tree member => present tree (List.mem_cons_of_mem _ member)) second⟩

/-- A call makes a tree from trees of the bench, or a reference to a declaration that is
new and has the number of the call. -/
theorem Call.build_cases {call : Call} {id : Nat} {tree : Expr} (admitted : call.Admitted trees)
    (built : call.build id = .ok tree) :
    Composed trees tree ∨
      ∃ declaration, tree.Everywhere Expr.Made ∧ tree.declarations = [declaration] ∧
        declaration.id = id := by
  obtain ⟨named, typed, present⟩ := admitted
  cases call with
  | localVariable name type | parameter name type =>
      have storable := typed type (by simp [types])
      have nonempty := isTruthy_str.mpr (named name (by simp [names]))
      cases built
      exact Or.inr ⟨_, made_ofDeclaration storable nonempty, rfl, rfl⟩
  | field name type value =>
      have storable := typed type (by simp [types])
      have nonempty := isTruthy_str.mpr (named name (by simp [names]))
      cases built
      cases value with
      | none => exact Or.inr ⟨_, made_ofDeclaration storable nonempty, rfl, rfl⟩
      | some value => exact Or.inr ⟨_, made_reference storable nonempty rfl, rfl, rfl⟩
  | enumMember type name value =>
      have storable := typed type (by simp [types])
      have nonempty : type.name ++ "." ++ name ≠ "" := by simp
      rw [build, Expr.enumMember] at built
      split at built
      · cases built
        exact Or.inr ⟨_, made_reference storable (isTruthy_str.mpr nonempty) rfl, rfl, rfl⟩
      · cases built
  | unresolved text type =>
      cases built
      exact Or.inl (composed_unresolved (typed type (by simp [types])) (named text (by simp [names])))
  | literal value type =>
      cases type with
      | none => exact Or.inl (ofValue_composed built)
      | some type =>
          cases built
          exact Or.inl (composed_ofLiteral value (typed type (by simp [types])))
  | invocation name type arguments =>
      obtain ⟨nodes, lifted, built⟩ := bind_ok built
      cases built
      refine Or.inl (composed_unmodelled (typed type (by simp [types])) ?_
        (liftAll_composed made present lifted))
      exact isTruthy_append.mpr (Or.inr (marks_str_ne_nil (by decide)))
  | cast type operand =>
      obtain ⟨node, lifted, built⟩ := bind_ok built
      cases built
      have composed : Composed trees node :=
        lift_composed made present (by simp [operands]) lifted
      refine Or.inl (composed_unmodelled (typed type (by simp [types])) ?_ (by simpa))
      exact isTruthy_append.mpr (Or.inl (marks_str_ne_nil (by simp)))
  | apply tag first second => exact Or.inl (applyTag_composed made present built)
  | unary token operand =>
      obtain ⟨node, lifted, built⟩ := bind_ok built
      have composed : Composed trees node :=
        lift_composed made present (by simp [operands]) lifted
      exact Or.inl (composed.unaryOf built)
  | binary token left right => exact Or.inl (combine_composed made present built)
  | joined token first others => exact Or.inl (joinAll_composed made present built)

end Calls

/-! ## Benches -/

/-- The trees built so far and the next number that is not used. -/
structure Bench where
  trees : List Expr
  next : Nat

namespace Bench

def declarations (bench : Bench) : List Declaration := bench.trees.flatMap Expr.declarations

/-- One call that succeeds; one that fails leaves the bench as it is. -/
inductive Step : Bench → Bench → Prop
  | call {bench : Bench} {call : Call} {id : Nat} {tree : Expr} (fresh : bench.next ≤ id)
      (admitted : call.Admitted bench.trees) (built : call.build id = .ok tree) :
      Step bench ⟨bench.trees ++ [tree], id + 1⟩

/-- Any number of calls. -/
abbrev Reaches : Bench → Bench → Prop := Relation.ReflTransGen Step

structure Sound (bench : Bench) : Prop where
  made : ∀ tree ∈ bench.trees, tree.Everywhere Expr.Made
  below : ∀ declaration ∈ bench.declarations, declaration.id < bench.next
  coherent : ∀ first ∈ bench.declarations, ∀ second ∈ bench.declarations,
    first.id = second.id → first = second

theorem declarations_add (bench : Bench) (tree : Expr) (next : Nat) :
    (Bench.mk (bench.trees ++ [tree]) next).declarations =
      bench.declarations ++ tree.declarations := by
  simp [declarations]

theorem Sound.compose {bench : Bench} (sound : bench.Sound) {tree : Expr}
    (composed : Composed bench.trees tree) {next : Nat} (later : bench.next ≤ next) :
    (Bench.mk (bench.trees ++ [tree]) next).Sound := by
  have known : (Bench.mk (bench.trees ++ [tree]) next).declarations ⊆ bench.declarations := by
    rw [declarations_add]
    exact List.append_subset.mpr ⟨List.Subset.refl _, composed.declared⟩
  refine ⟨?_, ?_, ?_⟩
  · rw [List.forall_mem_append, List.forall_mem_singleton]
    exact ⟨sound.made, composed.made⟩
  · intro declaration member
    exact (sound.below declaration (known member)).trans_le later
  · intro first firstMember second secondMember
    exact sound.coherent first (known firstMember) second (known secondMember)

/-- A tree with one declaration of a number that is not used may be added. -/
theorem Sound.declare {bench : Bench} (sound : bench.Sound) {tree : Expr}
    {declaration : Declaration} (made : tree.Everywhere Expr.Made)
    (only : tree.declarations = [declaration]) (fresh : bench.next ≤ declaration.id) :
    (Bench.mk (bench.trees ++ [tree]) (declaration.id + 1)).Sound := by
  have unused : ∀ known ∈ bench.declarations, known.id ≠ declaration.id := by
    intro known member same
    have := sound.below known member
    omega
  refine ⟨?_, ?_, ?_⟩
  · rw [List.forall_mem_append, List.forall_mem_singleton]
    exact ⟨sound.made, made⟩
  · rw [declarations_add, only, List.forall_mem_append, List.forall_mem_singleton]
    refine ⟨fun known member => ?_, Nat.lt_succ_self _⟩
    have := sound.below known member
    change known.id < declaration.id + 1
    omega
  · rw [declarations_add, only]
    intro first firstMember second secondMember same
    rw [List.mem_append, List.mem_singleton] at firstMember secondMember
    rcases firstMember with firstKnown | rfl
    · rcases secondMember with secondKnown | rfl
      · exact sound.coherent first firstKnown second secondKnown same
      · exact absurd same (unused first firstKnown)
    · rcases secondMember with secondKnown | rfl
      · exact absurd same.symm (unused second secondKnown)
      · rfl

theorem Step.sound {bench later : Bench} (step : Step bench later) (sound : bench.Sound) :
    later.Sound := by
  obtain ⟨fresh, admitted, built⟩ := step
  rcases Call.build_cases sound.made admitted built with
    composed | ⟨declaration, made, only, rfl⟩
  · exact sound.compose composed (by omega)
  · exact sound.declare made only fresh

theorem Reaches.sound {next : Nat} {bench : Bench} (reached : Reaches ⟨[], next⟩ bench) :
    bench.Sound := by
  induction reached with
  | refl => exact ⟨by simp, by simp [declarations], by simp [declarations]⟩
  | tail earlier step ih => exact step.sound ih

/-- A tree of a bench can be put into a document. -/
theorem Sound.storable {bench : Bench} (sound : bench.Sound) {tree : Expr}
    (member : tree ∈ bench.trees) : tree.Storable := by
  refine ⟨fun node inside => (sound.made tree member node inside).storable, ?_⟩
  have known : tree.declarations ⊆ bench.declarations :=
    fun declaration used => List.mem_flatMap.mpr ⟨tree, member, used⟩
  intro first firstUsed second secondUsed
  exact sound.coherent first (known firstUsed) second (known secondUsed)

theorem Sound.keepsText {bench : Bench} (sound : bench.Sound) {tree : Expr}
    (member : tree ∈ bench.trees) : tree.Everywhere Expr.KeepsText :=
  fun node inside => (sound.made tree member node inside).kept

/-- A tree that was built is read back from its document.  It comes back the same but for
its numbers, with the same formula over the same constants; the one other outcome is that
the tree is nested too deeply for the decoder. -/
theorem built_tree_reads_back [Limits] {next : Nat} {bench : Bench}
    (reached : Reaches ⟨[], next⟩ bench) {tree : Expr} (member : tree ∈ bench.trees) (start : Nat) :
    (∃ reloaded last, Expr.ofJson tree.toJson start = (.ok reloaded, last) ∧
      tree.RenumbersTo reloaded ∧ Analysis.formulated reloaded = Analysis.formulated tree) ∨
    (Limits.decoding < tree.levels ∧
      ∃ last, Expr.ofJson tree.toJson start = (.error .tooDeep, last)) := by
  have sound := Reaches.sound reached
  refine (Expr.ofJson_toJson (sound.storable member) (sound.keepsText member) start).imp_left ?_
  rintro ⟨number, injective, last, reads⟩
  have catalogued : tree.relabel (Declaration.renumber number) Resolution.catalogued =
      tree.relabel (Declaration.renumber number) id :=
    Expr.relabel_congr_operators fun node inside => (sound.made tree member node inside).catalogued
  rw [catalogued] at reads
  exact ⟨_, last, reads, ⟨number, injective, rfl⟩, Analysis.formulated_renumber injective tree⟩

def comparison : Expr :=
  .applyBinary (.comparison .less .int) (.localVariable "x" .int 1) (.localVariable "x" .int 2)

def compared : Bench := ⟨[.localVariable "x" .int 1, .localVariable "x" .int 2, comparison], 4⟩

theorem compared_reached : Reaches ⟨[], 1⟩ compared := by
  have storable : SourceType.int.Storable := Or.inl (by decide)
  have declares : ∀ trees, (Call.localVariable "x" .int).Admitted trees := by
    intro trees
    exact ⟨by simp [Call.names], by simpa [Call.types] using storable, by simp [Call.operands]⟩
  have compares : (Call.binary "<" (.node (.localVariable "x" .int 1))
      (.node (.localVariable "x" .int 2))).Admitted
      [.localVariable "x" .int 1, .localVariable "x" .int 2] :=
    ⟨by simp [Call.names], by simp [Call.types], by simp [Call.operands]⟩
  have first : Step ⟨[], 1⟩ ⟨[.localVariable "x" .int 1], 2⟩ :=
    .call (Nat.le_refl 1) (declares _) rfl
  have second : Step ⟨[.localVariable "x" .int 1], 2⟩
      ⟨[.localVariable "x" .int 1, .localVariable "x" .int 2], 3⟩ :=
    .call (Nat.le_refl 2) (declares _) rfl
  have third : Step ⟨[.localVariable "x" .int 1, .localVariable "x" .int 2], 3⟩ compared :=
    .call (Nat.le_refl 3) compares rfl
  exact ((Relation.ReflTransGen.single first).tail second).tail third

theorem built_tree_reads_back_comparison :
    comparison ∈ compared.trees ∧ ∃ reloaded last,
      Expr.ofJson comparison.toJson 4 = (.ok reloaded, last) ∧
        comparison.RenumbersTo reloaded ∧
        Analysis.formulated reloaded = Analysis.formulated comparison := by
  have member : comparison ∈ compared.trees := by simp [compared]
  refine ⟨member, ?_⟩
  rcases built_tree_reads_back compared_reached member 4 with reads | ⟨deep, -⟩
  · exact reads
  · exact absurd deep (by decide)

/-! ## Trees beyond the decoder -/

open Analysis (negations)

theorem negations_built (count : Nat) :
    ∃ bench, Reaches ⟨[], 1⟩ bench ∧ negations count ∈ bench.trees := by
  induction count with
  | zero =>
      have storable : SourceType.bool.Storable := Or.inl (by decide)
      have admitted : (Call.localVariable "x" .bool).Admitted [] :=
        ⟨by simp [Call.names], by simpa [Call.types] using storable, by simp [Call.operands]⟩
      exact ⟨_, .single (.call (Nat.le_refl 1) admitted rfl), List.mem_singleton_self _⟩
  | succ count ih =>
      obtain ⟨bench, reached, member⟩ := ih
      have admitted : (Call.apply .negation (.node (negations count)) none).Admitted bench.trees :=
        ⟨by simp [Call.names], by simp [Call.types], by simpa [Call.operands] using member⟩
      exact ⟨_, reached.tail (.call (Nat.le_refl bench.next) admitted rfl), by simp [negations]⟩

theorem levels_negations (declare : Declaration → Declaration)
    (resolve : Resolution → Resolution) (count : Nat) :
    ((negations count).relabel declare resolve).levels = 2 * count + 4 := by
  induction count with
  | zero => rfl
  | succ count ih =>
      rw [negations, Expr.applyUnary, Expr.relabel, Expr.levels, ih]
      omega

/-- Seven hundred negations can be built and are not read back. -/
theorem deep_negations_are_not_read :
    (∃ bench, Reaches ⟨[], 1⟩ bench ∧ negations 700 ∈ bench.trees) ∧
      (Expr.ofJson (negations 700).toJson 2).1 = .error .tooDeep := by
  refine ⟨negations_built 700, ?_⟩
  obtain ⟨bench, reached, member⟩ := negations_built 700
  have sound := Reaches.sound reached
  rcases Expr.ofJson_toJson (sound.storable member) (sound.keepsText member) 2 with
    ⟨number, -, last, reads⟩ | ⟨-, last, failed⟩
  · have nested := (Expr.ofJson_ok reads).2
    rw [levels_negations] at nested
    exact absurd nested (by decide)
  · rw [failed]

end Bench

end CondSat.Source
