import CondSat.Proofs.WellSorted
import CondSat.Source.Builder

/-! # Which trees have a formula

`staticSort?` says of every node whether it has a term and of which sort, from the
tree alone.  Building a formula threads a session through all operands, and what is
bound for one of them may be used for the next; where nodes of equal text have equal
types this makes no difference, and the outcome is the one of the static check.  The
only other outcomes are that the operators of the tree are nested beyond the limit, that
a constant is out of range and that a value which is no whole text stands where a name
is wanted: `Build.CompletesUnless` is closed under sequencing and says so of every step. -/
set_option autoImplicit false
namespace CondSat

namespace Analysis

open Solver (Value ValueSort)
open Source

/-! ## The static check -/

/-- Whether the value of a constant belongs to its kind code. -/
def isEncodable (constant : Constant) : Bool :=
  match constant.kind with
  | .bool =>
    match constant.value with
    | .bool _ => true
    | _ => false
  | .float | .double => (number? constant.value).isSome
  | kind => kind.isIntegral && (whole? kind constant.value).isSome

def constantSort? (constant : Constant) : Option ValueSort :=
  if isEncodable constant then constant.kind.sort? else none

/-- The sort of the term of a node, if it has one: that of an encodable constant, else
that of a local's or a parameter's type, else what the modelled operator makes of the
sorts of its operands.  An operand that has no term has the sort of its type. -/
def staticSort? : Expr → Option ValueSort
  | .literal constant _ _ => constantSort? constant
  | .reference declaration _ _ constant =>
    (constant.bind constantSort?).or ((declaration.filter (·.isVariable)).bind (·.type.sort?))
  | .unmodelled _ _ _ _ constant => constant.bind constantSort?
  | .unary resolution operand _ _ constant =>
    (constant.bind constantSort?).or do
      let tag ← unaryTag? resolution
      let sort ← (staticSort? operand).or operand.type.sort?
      unarySort? tag sort
  | .binary resolution left right _ _ constant =>
    (constant.bind constantSort?).or do
      let tag ← binaryTag? resolution
      let leftSort ← (staticSort? left).or left.type.sort?
      let rightSort ← (staticSort? right).or right.type.sort?
      binarySort? tag leftSort rightSort

def Encodes (constant : Constant) : Prop :=
  ∃ answer, encodeConstant constant.value constant.kind = .ok answer

theorem floatValue?_sort {format : Ieee.Format} {value : Json} {answer : Option TypedTerm}
    (encoded : floatConstant format value = .ok answer) :
    (floatValue? format value).map Value.sort =
      if (number? value).isSome then some (.float format) else none := by
  unfold floatConstant at encoded
  unfold floatValue?
  cases read : number? value with
  | none => rfl
  | some number =>
      rw [read] at encoded
      dsimp only at encoded
      cases rounded : number.toPattern format with
      | error fault =>
          rw [rounded] at encoded
          cases encoded
      | ok pattern =>
          simp only [Option.bind_eq_bind, Option.bind_some, rounded, Except.toOption]
          rfl

/-- The value of a constant has the sort of its kind code. -/
theorem constantValue?_sort {constant : Constant} (encodes : Encodes constant) :
    (constantValue? constant).map Value.sort = constantSort? constant := by
  obtain ⟨value, kind⟩ := constant
  obtain ⟨answer, encoded⟩ := encodes
  cases kind with
  | bool => cases value <;> rfl
  | float =>
      obtain ⟨found, single, -⟩ := map_ok encoded
      exact floatValue?_sort single
  | double =>
      obtain ⟨found, double, -⟩ := map_ok encoded
      exact floatValue?_sort double
  | decimal | string | null | enum | other => rfl
  | sbyte | byte | short | ushort | char | int | uint | long | ulong =>
      simp only [constantValue?, constantSort?, isEncodable, Kind.isIntegral, Kind.integralWidth?,
        Option.bind_eq_bind, Option.bind_some, Option.isSome_some, Bool.true_and]
      cases whole? _ value <;> rfl

/-- Whether all constants of a tree are encoded or have no encoding. -/
def ConstantsEncode (root : Expr) : Prop :=
  ∀ node ∈ root.preorder, ∀ constant, node.constant? = some constant → Encodes constant

theorem ConstantsEncode.below {root node : Expr} (encode : ConstantsEncode root)
    (inside : node.preorder ⊆ root.preorder) : ConstantsEncode node :=
  fun other member => encode other (inside member)

theorem ConstantsEncode.sort {root : Expr} (encode : ConstantsEncode root) :
    (root.constant?.bind constantValue?).map Value.sort = root.constant?.bind constantSort? := by
  cases known : root.constant? with
  | none => rfl
  | some constant => exact constantValue?_sort (encode root root.self_mem_preorder constant known)

/-- The static check finds the sort of what a node means. -/
theorem staticSort?_eq_formulaSort? (node : Expr) (encode : ConstantsEncode node) :
    staticSort? node = formulaSort? node := by
  induction node using Expr.operandInduction with
  | literal constant type text => exact encode.sort.symm
  | unmodelled shape type text children constant => exact encode.sort.symm
  | reference declaration type text constant =>
      rw [staticSort?, formulaSort?]
      exact congrArg (Option.or · _) encode.sort.symm
  | unary resolution operand type text constant ih =>
      rw [staticSort?, formulaSort?, ih (encode.below Expr.operand_preorder)]
      exact congrArg (Option.or · _) encode.sort.symm
  | binary resolution left right type text constant leftIh rightIh =>
      rw [staticSort?, formulaSort?, leftIh (encode.below Expr.left_preorder),
        rightIh (encode.below Expr.right_preorder)]
      exact congrArg (Option.or · _) encode.sort.symm

/-! ## Building a formula completes -/

namespace Build

variable {α β : Type} {excuse : Failure → Prop}

/-- In an open session the step succeeds and leaves it open, or it fails in a way for which
there is an excuse. -/
def CompletesUnless (excuse : Failure → Prop) (step : Build α) : Prop :=
  ∀ run events,
    (∃ value later news, step ⟨.opened run, events⟩ = .ok value ⟨.opened later, news⟩) ∨
    (∃ failure final, excuse failure ∧ step ⟨.opened run, events⟩ = .error failure final)

theorem completes_pure (value : α) : (pure value : Build α).CompletesUnless excuse :=
  fun run events => Or.inl ⟨value, run, events, rfl⟩

theorem completes_throw {failure : Failure} (excused : excuse failure) :
    (throw failure : Build α).CompletesUnless excuse :=
  fun _ _ => Or.inr ⟨failure, _, excused, rfl⟩

theorem completes_seq {step : Build α} {next : α → Build β} (first : step.CompletesUnless excuse)
    (rest : ∀ value, (next value).CompletesUnless excuse) :
    (step >>= next).CompletesUnless excuse := by
  intro run events
  rw [Stateful.bind_apply]
  rcases first run events with ⟨value, later, news, stepped⟩ | ⟨failure, final, excused, stepped⟩
  · rw [stepped]
    exact rest value later news
  · rw [stepped]
    exact Or.inr ⟨failure, final, excused, rfl⟩

theorem completes_report (events : List Event) : (report events).CompletesUnless excuse :=
  fun run earlier => Or.inl ⟨(), run, earlier ++ events, rfl⟩

theorem completes_bind (key : Key) (type : SourceType) (name : String) :
    (Build.bind key type name).CompletesUnless excuse := by
  intro run events
  rw [bind_opened]
  exact Or.inl ⟨_, _, _, rfl⟩

theorem completes_bindNamed {key : Key} {type : SourceType} {text : Json} {name : String}
    (excused : ∀ failure, nameFault? text type = some failure → excuse failure) :
    (bindNamed key type text name).CompletesUnless excuse := by
  intro run events
  rw [bindNamed_opened]
  cases fault : nameFault? text type with
  | some failure => exact Or.inr ⟨failure, _, excused failure fault, rfl⟩
  | none => exact completes_bind key type name run events

theorem completes_useRoundingMode : useRoundingMode.CompletesUnless excuse := by
  intro run events
  rw [useRoundingMode_opened]
  exact Or.inl ⟨_, _, _, rfl⟩

theorem completes_law :
    Build.Law (fun {α : Type} _ (step _ : Build α) => step.CompletesUnless excuse) Eq id where
  pure _ value := completes_pure value
  seq _ first rest := completes_seq first rest
  onto := Function.surjective_id
  report event _ _ _ _ := completes_report [event _]
  mode := completes_useRoundingMode
  unary _ _ := map_map_id
  binary _ _ _ := map_map_id

end Build

/-- A variable or an operand of the tree is called by a value under which no constant can
be made. -/
def HasNameFault (root : Expr) (failure : Failure) : Prop :=
  (∃ declaration ∈ root.declarations, declaration.isVariable = true ∧
    Build.nameFault? declaration.name declaration.type = some failure) ∨
  ∃ node ∈ root.preorder, ∃ operand ∈ node.operands,
    Build.nameFault? operand.text operand.type = some failure

theorem not_hasNameFault {root : Expr}
    (names : ∀ declaration ∈ root.declarations,
      Build.nameFault? declaration.name declaration.type = none)
    (texts : ∀ node ∈ root.preorder, Build.nameFault? node.text node.type = none)
    (failure : Failure) : ¬HasNameFault root failure := by
  rintro (⟨declaration, member, -, fault⟩ | ⟨node, member, operand, inside, fault⟩)
  · rw [names declaration member] at fault
    cases fault
  · rw [texts operand (Expr.operand_mem_preorder member inside)] at fault
    cases fault

/-- How formulating a tree may fail: its operators are nested too deeply, one of its
constants is a number out of range, or a name cannot be used. -/
def Excuses [Limits] (root : Expr) (failure : Failure) : Prop :=
  (failure = .tooDeep ∧ Limits.formula < root.operatorDepth) ∨
  ((∃ fault, failure = .number fault) ∧ ¬ConstantsEncode root) ∨
  HasNameFault root failure

theorem encodeConstant_error {value : Json} {kind : Kind} {failure : Failure}
    (failed : encodeConstant value kind = .error failure) : ∃ fault, failure = .number fault := by
  have floats : ∀ format, floatConstant format value = .error failure →
      ∃ fault, failure = .number fault := by
    intro format refused
    unfold floatConstant at refused
    split at refused
    · cases refused
    · split at refused
      · cases refused
      · cases refused
        exact ⟨_, rfl⟩
  unfold encodeConstant at failed
  split at failed
  · split at failed <;> cases failed
  · exact floats .single (map_error failed)
  · exact floats .double (map_error failed)
  · split at failed <;> cases failed

theorem constantTerm_completes [Limits] {root node : Expr} (member : node ∈ root.preorder) :
    (constantTerm node.constant?).CompletesUnless (Excuses root) := by
  cases known : node.constant? with
  | none => exact Build.completes_pure none
  | some constant =>
      rw [constantTerm]
      cases encoded : encodeConstant constant.value constant.kind with
      | ok answer =>
          exact Build.completes_seq (Build.completes_report answer.2)
            fun _ => Build.completes_pure answer.1
      | error failure =>
          obtain ⟨fault, rfl⟩ := encodeConstant_error encoded
          refine Build.completes_throw (Or.inr (Or.inl ⟨⟨fault, rfl⟩, fun encode => ?_⟩))
          obtain ⟨answer, encodes⟩ := encode node member constant known
          rw [encoded] at encodes
          cases encodes

theorem formulate_completes_unless [Limits] (root : Expr) :
    (formulate root).CompletesUnless (Excuses root) :=
  formulate_related Build.completes_law (fun _ => rfl) root.matches_relabel
    { constants := fun _ member => constantTerm_completes member
      declarations := fun declaration member isVariable =>
        Build.completes_bindNamed fun _ fault =>
          Or.inr (Or.inr (Or.inl ⟨declaration, member, isVariable, fault⟩))
      unknowns := fun node member operand inside _ _ _ =>
        Build.completes_bindNamed fun _ fault =>
          Or.inr (Or.inr (Or.inr ⟨node, member, operand, inside, fault⟩)) }
    fun deep => Build.completes_throw (Or.inl ⟨rfl, deep⟩)

theorem formulate_completes [Limits] (root : Expr) (encode : ConstantsEncode root) (run : Run)
    (events : List Event) :
    (∃ term later news, formulate root ⟨.opened run, events⟩ = .ok term ⟨.opened later, news⟩) ∨
    (Limits.formula < root.operatorDepth ∧
      ∃ final, formulate root ⟨.opened run, events⟩ = .error .tooDeep final) ∨
    (∃ failure, HasNameFault root failure ∧
      ∃ final, formulate root ⟨.opened run, events⟩ = .error failure final) := by
  rcases formulate_completes_unless root run events with built | ⟨failure, final, excused, failed⟩
  · exact Or.inl built
  · rcases excused with ⟨rfl, deep⟩ | ⟨-, large⟩ | named
    · exact Or.inr (Or.inl ⟨deep, final, failed⟩)
    · exact absurd encode large
    · exact Or.inr (Or.inr ⟨failure, named, final, failed⟩)

/-! ## The outcome of the static check -/

def TextsTyped (root : Expr) : Prop :=
  ∀ node ∈ root.preorder, ∀ other ∈ root.preorder, node.label = other.label → node.type = other.type

theorem TextsTyped.sharesSorts {root : Expr} (texts : TextsTyped root) : SharesSorts root := by
  intro node other isUnknown otherUnknown same
  rw [texts node isUnknown.1 other otherUnknown.1 same]

/-- In a fresh session a tree has a term exactly when it has a static sort, and the term
has this sort; the one other outcome is that the tree nests more operators than the limit
allows, or has a name that cannot be used. -/
theorem has_term_iff_static_sort [Limits] (root : Expr) (texts : TextsTyped root)
    (encode : ConstantsEncode root) :
    (∃ result progress, Build.outcome (formulate root) .start = (.ok result, progress) ∧
      result.map (·.sort) = staticSort? root ∧
      ∀ term, result = some term → term.term.HasSort term.sort) ∨
    (Limits.formula < root.operatorDepth ∧
      ∃ progress, Build.outcome (formulate root) .start = (.error .tooDeep, progress)) ∨
    (∃ failure, HasNameFault root failure ∧
      ∃ progress, Build.outcome (formulate root) .start = (.error failure, progress)) := by
  rcases formulate_completes root encode .initial [] with
    ⟨result, later, news, built⟩ | ⟨deep, final, failed⟩ | ⟨failure, named, final, failed⟩
  · refine Or.inl ⟨result, _, Build.outcome_ok.mpr built, ?_, ?_⟩
    · obtain ⟨_, _, -, -, -, denotes⟩ :=
        formulate_yields texts.sharesSorts _ _ _ _ (initial_explained root) built
      rw [staticSort?_eq_formulaSort? root encode]
      exact denotes.sort
    · rintro term rfl
      have fresh : (⟨.start, []⟩ : Progress).WellSorted := by
        rintro _ ⟨⟩ entry member
        exact absurd member List.not_mem_nil
      exact ((formulate_assembles root).wellSorted (formulate_follows root) rfl fresh built).1.sorted
  · exact Or.inr (Or.inl ⟨deep, final, Build.outcome_error.mpr failed⟩)
  · exact Or.inr (Or.inr ⟨failure, named, final, Build.outcome_error.mpr failed⟩)

/-- The tree of `((byte)b + i) < f(i) || false`.  The sum of a byte and an `int` does not
fit its operator and is replaced by an unknown `int`. -/
def mixedWidths : Expr :=
  .binary (.ofTag (.connective .orElse))
    (.binary (.ofTag (.comparison .less .int))
      (.binary (.ofTag (.arithmetic .plus .int))
        (.reference (some ⟨"b", .localVariable, .byte, 1⟩) .byte "b" none)
        (.reference (some ⟨"i", .parameter, .int, 2⟩) .int "i" none) .int "b + i" none)
      (.unmodelled .invocation .int "f(i)" [] none) .bool "(b + i) < f(i)" none)
    (.literal ⟨.bool false, .bool⟩ .bool "false") .bool "((b + i) < f(i)) || false" none

theorem has_term_iff_static_sort_mixed_widths :
    TextsTyped mixedWidths ∧ ConstantsEncode mixedWidths ∧ staticSort? mixedWidths = some .bool ∧
    ∃ term progress, Build.outcome (formulate mixedWidths) .start = (.ok (some term), progress) ∧
      term.sort = .bool := by
  have texts : TextsTyped mixedWidths := by
    simp [TextsTyped, mixedWidths, Expr.preorder, Expr.preorders, Expr.label, Expr.text, Expr.type]
  have encode : ConstantsEncode mixedWidths := by
    simp [ConstantsEncode, mixedWidths, Expr.preorder, Expr.preorders, Expr.constant?, Encodes,
      encodeConstant]
  have sort : staticSort? mixedWidths = some .bool := by decide
  refine ⟨texts, encode, sort, ?_⟩
  rcases has_term_iff_static_sort mixedWidths texts encode with
    ⟨result, progress, built, sorted, -⟩ | ⟨deep, -⟩ | ⟨failure, named, -⟩
  · rw [sort] at sorted
    obtain ⟨term, rfl, same⟩ := Option.map_eq_some_iff.mp sorted
    exact ⟨term, progress, built, same⟩
  · exact absurd deep (by decide)
  · exact absurd named (not_hasNameFault (by decide) (by decide) failure)

/-! ## Trees beyond the limit -/

def negations : Nat → Expr
  | 0 => .localVariable "x" .bool 1
  | count + 1 => .applyUnary .negation (negations count)

theorem negations_nodes (count : Nat) :
    ∀ node ∈ (negations count).preorder, node.type = .bool ∧ node.constant? = none := by
  induction count with
  | zero =>
      intro node member
      rw [List.mem_singleton.mp member]
      exact ⟨rfl, rfl⟩
  | succ count ih =>
      intro node member
      rcases List.mem_cons.mp member with rfl | member
      · exact ⟨rfl, rfl⟩
      · exact ih node member

theorem staticSort?_negations (count : Nat) : staticSort? (negations count) = some .bool := by
  induction count with
  | zero => rfl
  | succ count ih =>
      rw [negations, Expr.applyUnary, staticSort?, ih]
      rfl

theorem nodeTerm_negations (start : Progress) (depth : Nat) :
    ∀ count, depth < count →
      nodeTerm (negations count) depth start = .error .tooDeep start := by
  induction depth with
  | zero =>
      intro count positive
      cases count with
      | zero => cases positive
      | succ count => rfl
  | succ depth ih =>
      intro count deeper
      cases count with
      | zero => cases deeper
      | succ count =>
          -- an operand that fails as too deep is not replaced by an unknown
          have below := ih count (Nat.lt_of_succ_lt_succ deeper)
          rw [negations, Expr.applyUnary, nodeTerm]
          change (operandTerm (negations count) (nodeTerm (negations count) depth) >>= _) start = _
          rw [Stateful.bind_apply, operandTerm, Stateful.bind_apply, below]

/-- Four hundred and twenty negations of a truth value have a static sort and no formula. -/
theorem deep_negations_have_no_formula :
    TextsTyped (negations 420) ∧ ConstantsEncode (negations 420) ∧
    staticSort? (negations 420) = some .bool ∧
    (Build.outcome (formulate (negations 420)) .start).1 = .error .tooDeep := by
  have nodes := negations_nodes 420
  refine ⟨?_, ?_, staticSort?_negations 420, ?_⟩
  · intro node member other otherMember _
    rw [(nodes node member).1, (nodes other otherMember).1]
  · intro node member constant known
    rw [(nodes node member).2] at known
    cases known
  · have failed : formulate (negations 420) ⟨.start, []⟩ = .error .tooDeep ⟨.start, []⟩ := by
      rw [formulate, Stateful.bind_apply, nodeTerm_negations _ _ 420 (by decide)]
    rw [Build.outcome, EStateM.run, failed]

end Analysis

end CondSat
