import CondSat.Analysis.Formula
import CondSat.Proofs.Relabel
import CondSat.Proofs.Sequencing
import Mathlib.Logic.Relation

/-! # What building a formula does to a session

A formula is built by steps that thread a session and the events reported so
far.  However a build ends, it got there by three kinds of change only: it
reported something that is no binding, it bound a key at a type the key admits,
or it created the rounding mode.  `Progress.Step` is one such change and
`Reaches` any number of them; `nodeTerm_follows` says that nothing else happens
in an open session, so that whatever every `Step` preserves holds after every
build.

What holds of all builds is proved by one walk through `nodeTerm`: a relation
between steps that obeys `Build.Law` relates the build of a tree to the build of a
tree that matches it in all but declarations and texts.  A law about one build
ignores the second side. -/
set_option autoImplicit false
namespace CondSat

namespace Source.Expr

/-- Induction over the operands of operator nodes, which are the only nodes a
formula looks into. -/
@[elab_as_elim]
theorem operandInduction {motive : Expr → Prop}
    (literal : ∀ constant type text, motive (.literal constant type text))
    (reference : ∀ declaration type text constant,
      motive (.reference declaration type text constant))
    (unary : ∀ operator operand type text constant, motive operand →
      motive (.unary operator operand type text constant))
    (binary : ∀ operator left right type text constant, motive left → motive right →
      motive (.binary operator left right type text constant))
    (unmodelled : ∀ shape type text children constant,
      motive (.unmodelled shape type text children constant)) :
    ∀ node, motive node
  | .literal constant type text => literal constant type text
  | .reference declaration type text constant => reference declaration type text constant
  | .unary operator operand type text constant =>
      unary operator operand type text constant
        (operandInduction literal reference unary binary unmodelled operand)
  | .binary operator left right type text constant =>
      binary operator left right type text constant
        (operandInduction literal reference unary binary unmodelled left)
        (operandInduction literal reference unary binary unmodelled right)
  | .unmodelled shape type text children constant => unmodelled shape type text children constant

theorem self_mem_preorder (node : Expr) : node ∈ node.preorder := by
  cases node <;> simp [preorder]

theorem operand_preorder {operator : Resolution} {operand : Expr} {type : SourceType}
    {text : Json} {constant : Option Constant} :
    operand.preorder ⊆ (unary operator operand type text constant).preorder := by
  rw [preorder]
  exact List.subset_cons_self _ _

theorem left_preorder {operator : Resolution} {left right : Expr} {type : SourceType}
    {text : Json} {constant : Option Constant} :
    left.preorder ⊆ (binary operator left right type text constant).preorder := by
  rw [preorder]
  exact List.subset_cons_of_subset _ (List.subset_append_left _ _)

theorem right_preorder {operator : Resolution} {left right : Expr} {type : SourceType}
    {text : Json} {constant : Option Constant} :
    right.preorder ⊆ (binary operator left right type text constant).preorder := by
  rw [preorder]
  exact List.subset_cons_of_subset _ (List.subset_append_right _ _)

theorem preorder_subset {root node : Expr} (member : node ∈ root.preorder) :
    node.preorder ⊆ root.preorder := by
  induction root using treeInduction with
  | literal constant type text =>
      rw [List.mem_singleton.mp member]
      exact List.Subset.refl _
  | reference declaration type text constant =>
      rw [List.mem_singleton.mp member]
      exact List.Subset.refl _
  | unary operator operand type text constant ih =>
      rcases List.mem_cons.mp member with rfl | below
      · exact List.Subset.refl _
      · exact List.Subset.trans (ih below) operand_preorder
  | binary operator left right type text constant leftIh rightIh =>
      rcases List.mem_cons.mp member with rfl | below
      · exact List.Subset.refl _
      · rcases List.mem_append.mp below with below | below
        · exact List.Subset.trans (leftIh below) left_preorder
        · exact List.Subset.trans (rightIh below) right_preorder
  | unmodelled shape type text children constant ih =>
      rw [preorder, preorders_eq_flatMap] at member ⊢
      rcases List.mem_cons.mp member with rfl | below
      · rw [preorder, preorders_eq_flatMap]
        exact List.Subset.refl _
      · obtain ⟨child, inside, below⟩ := List.mem_flatMap.mp below
        exact List.Subset.trans (ih child inside below) fun other found =>
          List.mem_cons_of_mem _ (List.mem_flatMap.mpr ⟨child, inside, found⟩)

def operands : Expr → List Expr
  | unary _ operand _ _ _ => [operand]
  | binary _ left right _ _ _ => [left, right]
  | _ => []

theorem operand_mem_preorder {root parent node : Expr} (member : parent ∈ root.preorder)
    (operand : node ∈ parent.operands) : node ∈ root.preorder := by
  refine preorder_subset member ?_
  cases parent with
  | literal | reference | unmodelled => cases operand
  | unary =>
      rw [List.mem_singleton.mp operand]
      exact operand_preorder (self_mem_preorder _)
  | binary =>
      rcases List.mem_cons.mp operand with rfl | operand
      · exact left_preorder (self_mem_preorder _)
      · rw [List.mem_singleton.mp operand]
        exact right_preorder (self_mem_preorder _)

def operatorDepth : Expr → Nat
  | unary _ operand _ _ _ => operatorDepth operand + 1
  | binary _ left right _ _ _ => max (operatorDepth left) (operatorDepth right) + 1
  | _ => 0

end Source.Expr

namespace Analysis

open Source

/-! ## Outcomes of steps -/

theorem Progress.eq_of_session {progress : Progress} {session : Session}
    (same : progress.session = session) : progress = ⟨session, progress.events⟩ := by
  cases same
  rfl

namespace Build

variable {α β : Type}

def after (step : Build α) (start : Progress) : Progress :=
  match step start with
  | .ok _ final => final
  | .error _ final => final

theorem after_ok {step : Build α} {start final : Progress} {value : α}
    (run : step start = .ok value final) : step.after start = final := by
  rw [after, run]

theorem after_bind_ok {step : Build α} {next : α → Build β} {start middle : Progress} {value : α}
    (run : step start = .ok value middle) :
    (step >>= next).after start = (next value).after middle := by
  rw [after, Stateful.bind_apply, run, after]

theorem after_bind_error {step : Build α} {next : α → Build β} {start middle : Progress}
    {failure : Failure} (run : step start = .error failure middle) :
    (step >>= next).after start = middle := by
  rw [after, Stateful.bind_apply, run]

def answer (step : Build α) (start : Progress) : Except Failure α :=
  match step start with
  | .ok value _ => .ok value
  | .error failure _ => .error failure

theorem apply_eq (step : Build α) (start : Progress) :
    step start =
      match step.answer start with
      | .ok value => .ok value (step.after start)
      | .error failure => .error failure (step.after start) := by
  unfold answer after
  cases step start <;> rfl

theorem ok_of_answer {step : Build α} {start : Progress} {value : α}
    (answered : step.answer start = .ok value) : step start = .ok value (step.after start) := by
  rw [apply_eq step start, answered]

theorem error_of_answer {step : Build α} {start : Progress} {failure : Failure}
    (answered : step.answer start = .error failure) :
    step start = .error failure (step.after start) := by
  rw [apply_eq step start, answered]

theorem answer_bind_ok {step : Build α} {next : α → Build β} {start middle : Progress} {value : α}
    (run : step start = .ok value middle) :
    (step >>= next).answer start = (next value).answer middle := by
  rw [answer, Stateful.bind_apply, run, answer]

theorem answer_bind_error {step : Build α} {next : α → Build β} {start middle : Progress}
    {failure : Failure} (run : step start = .error failure middle) :
    (step >>= next).answer start = .error failure := by
  rw [answer, Stateful.bind_apply, run]

theorem outcome_eq (step : Build α) (session : Session) :
    outcome step session = (step.answer ⟨session, []⟩, step.after ⟨session, []⟩) := by
  rw [outcome, EStateM.run, answer, after]
  cases step ⟨session, []⟩ <;> rfl

theorem outcome_error {step : Build α} {session : Session} {failure : Failure} {final : Progress} :
    outcome step session = (.error failure, final) ↔ step ⟨session, []⟩ = .error failure final := by
  rw [outcome, EStateM.run]
  cases step ⟨session, []⟩ with
  | ok value progress => simp
  | error failure progress => simp

theorem outcome_ok {step : Build α} {session : Session} {value : α} {final : Progress} :
    outcome step session = (.ok value, final) ↔ step ⟨session, []⟩ = .ok value final := by
  rw [outcome, EStateM.run]
  cases step ⟨session, []⟩ with
  | ok value progress => simp
  | error failure progress => simp

/-! ## The steps on open and on closed sessions -/

theorem bind_opened (run : Run) (events : List Event) (key : Key) (type : SourceType)
    (name : String) :
    Build.bind key type name ⟨.opened run, events⟩ =
      .ok (run.bindings.bind key type name).1
        ⟨.opened { run with bindings := (run.bindings.bind key type name).2.1 },
          events ++ (run.bindings.bind key type name).2.2⟩ := rfl

theorem bindNamed_opened (run : Run) (events : List Event) (key : Key) (type : SourceType)
    (text : Json) (name : String) :
    bindNamed key type text name ⟨.opened run, events⟩ =
      match nameFault? text type with
      | some failure => .error failure ⟨.opened run, events⟩
      | none => Build.bind key type name ⟨.opened run, events⟩ := by
  change (match nameFault? text type with
    | some failure => throw failure
    | none => Build.bind key type name : Build (Option TypedTerm)) ⟨.opened run, events⟩ = _
  cases nameFault? text type <;> rfl

/-- Where a name is found for it, a constant is bound as for any other key. -/
theorem bindNamed_ok {run : Run} {events : List Event} {key : Key} {type : SourceType}
    {text : Json} {name : String} {result : Option TypedTerm} {final : Progress}
    (bound : bindNamed key type text name ⟨.opened run, events⟩ = .ok result final) :
    nameFault? text type = none ∧
      Build.bind key type name ⟨.opened run, events⟩ = .ok result final := by
  rw [bindNamed_opened] at bound
  cases fault : nameFault? text type with
  | some failure =>
      rw [fault] at bound
      cases bound
  | none =>
      rw [fault] at bound
      exact ⟨rfl, bound⟩

theorem useRoundingMode_opened (run : Run) (events : List Event) :
    useRoundingMode ⟨.opened run, events⟩ =
      .ok () ⟨.opened { run with hasRoundingMode := true },
        events ++ if run.hasRoundingMode then [] else [.roundingModeCreated roundingModeName]⟩ := by
  obtain ⟨bindings, created⟩ := run
  cases created with
  | true => simp only [if_true, List.append_nil]; rfl
  | false => rfl

end Build

/-! ## Binding a key -/

theorem mem_of_lookup {κ β : Type} [BEq κ] [LawfulBEq κ] {entries : List (κ × β)} {key : κ}
    {value : β} (found : entries.lookup key = some value) : (key, value) ∈ entries := by
  obtain ⟨before, after, split, -⟩ := List.lookup_eq_some_iff.mp found
  rw [split]
  simp

namespace Bindings

variable (bindings : Bindings) (key : Key) (type : SourceType) (name : String)

def newConstant (sort : Solver.ValueSort) : TypedTerm :=
  ⟨.const (bindings.reserve key name).1 sort, sort⟩

theorem reserve_bound : (bindings.reserve key name).2.bound = bindings.bound := by
  unfold reserve
  cases bindings.reserved.lookup key <;> rfl

/-- What binding does: a bound key answers with its constant, a type without a
sort leaves everything as it is, and otherwise a constant is added at the end. -/
theorem bind_cases :
    (∃ term, bindings.get? key = some term ∧
      bindings.bind key type name = (some term, bindings, [])) ∨
    (bindings.get? key = none ∧ type.sort? = none ∧
      bindings.bind key type name = (none, bindings, [.noSort type name])) ∨
    (∃ sort, bindings.get? key = none ∧ type.sort? = some sort ∧
      bindings.bind key type name =
        (some (bindings.newConstant key name sort),
          ⟨bindings.bound ++ [(key, bindings.newConstant key name sort)],
            (bindings.reserve key name).2.reserved⟩,
          [.bound (bindings.newConstant key name sort)])) := by
  unfold Bindings.bind
  cases known : bindings.get? key with
  | some term => exact Or.inl ⟨term, rfl, rfl⟩
  | none =>
      refine Or.inr ?_
      cases sorted : type.sort? with
      | none => exact Or.inl ⟨rfl, rfl, rfl⟩
      | some sort =>
          refine Or.inr ⟨sort, rfl, rfl, ?_⟩
          simp only [insert, reserve_bound, newConstant]

theorem get?_of_isPrefix {earlier later : Bindings} (grown : earlier.bound <+: later.bound)
    {key : Key} {term : TypedTerm} (known : earlier.get? key = some term) :
    later.get? key = some term :=
  grown.lookup_eq_some known

theorem get?_bind {bindings : Bindings} {key : Key} {type : SourceType} {name : String}
    {term : TypedTerm} (answered : (bindings.bind key type name).1 = some term) :
    (bindings.bind key type name).2.1.get? key = some term := by
  rcases bindings.bind_cases key type name with
    ⟨known, found, result⟩ | ⟨-, -, result⟩ | ⟨sort, missing, -, result⟩ <;>
    rw [result] at answered ⊢
  · cases answered
    exact found
  · cases answered
  · cases answered
    unfold get? at missing ⊢
    simp [List.lookup_append, missing]

theorem mem_of_get? {bindings : Bindings} {key : Key} {term : TypedTerm}
    (known : bindings.get? key = some term) : (key, term) ∈ bindings.bound :=
  mem_of_lookup known

end Bindings

/-! ## The changes a build makes -/

/-- The types a key may be bound at: a declaration has its own, and the
rounding mode is never bound. -/
def Key.Admits : Key → SourceType → Prop
  | .declaration declared, type => type = declared.type
  | .roundingMode, _ => False
  | .unmodelled _, _ | .label _, _ => True

/-- The constant an event says was bound. -/
def Event.bound? : Event → Option TypedTerm
  | .bound unknown => some unknown
  | _ => none

inductive Progress.Step : Progress → Progress → Prop
  | report (session : Session) (earlier events : List Event)
      (quiet : ∀ event ∈ events, event.bound? = none) :
      Step ⟨session, earlier⟩ ⟨session, earlier ++ events⟩
  | bind (run : Run) (earlier : List Event) (key : Key) (type : SourceType) (name : String)
      (admits : key.Admits type) :
      Step ⟨.opened run, earlier⟩
        ⟨.opened { run with bindings := (run.bindings.bind key type name).2.1 },
          earlier ++ (run.bindings.bind key type name).2.2⟩
  | mode (run : Run) (earlier : List Event) :
      Step ⟨.opened run, earlier⟩ ⟨.opened { run with hasRoundingMode := true }, earlier⟩

abbrev Progress.Reaches : Progress → Progress → Prop := Relation.ReflTransGen Progress.Step

/-- A later state of an open session: constants are only ever added, behind the ones already
bound, and a rounding mode once created stays. -/
structure Run.Grows (run later : Run) : Prop where
  bound : run.bindings.bound <+: later.bindings.bound
  mode : run.hasRoundingMode = true → later.hasRoundingMode = true

theorem Run.Grows.refl (run : Run) : run.Grows run := ⟨List.prefix_rfl, id⟩

theorem Run.Grows.trans {run middle later : Run} (first : run.Grows middle)
    (second : middle.Grows later) : run.Grows later :=
  ⟨first.bound.trans second.bound, fun created => second.mode (first.mode created)⟩

theorem Run.grows_bind (run : Run) (key : Key) (type : SourceType) (name : String) :
    run.Grows { run with bindings := (run.bindings.bind key type name).2.1 } := by
  refine ⟨?_, id⟩
  rcases run.bindings.bind_cases key type name with
    ⟨term, -, result⟩ | ⟨-, -, result⟩ | ⟨sort, -, -, result⟩ <;> simp [result]

theorem Progress.Reaches.grows {start final : Progress} (reached : start.Reaches final)
    {run : Run} (opened : start.session = .opened run) :
    ∃ later, final.session = .opened later ∧ run.Grows later := by
  induction reached with
  | refl => exact ⟨run, opened, .refl run⟩
  | tail earlier step ih =>
      obtain ⟨middle, opened, grown⟩ := ih
      cases step with
      | report session events more quiet => exact ⟨middle, opened, grown⟩
      | mode run events =>
          cases opened
          exact ⟨_, rfl, grown.trans ⟨List.prefix_rfl, fun _ => rfl⟩⟩
      | bind run events key type name admits =>
          cases opened
          exact ⟨_, rfl, grown.trans (middle.grows_bind key type name)⟩

theorem Progress.Reaches.extends {start final : Progress} (reached : start.Reaches final)
    {run : Run} (opened : start.session = .opened run) :
    ∃ later, final.session = .opened later ∧ run.bindings.bound <+: later.bindings.bound := by
  obtain ⟨later, still, grown⟩ := reached.grows opened
  exact ⟨later, still, grown.bound⟩

namespace Build

variable {α β : Type}

/-- However the step ends, it changes its session by steps only. -/
def Follows (step : Build α) : Prop := ∀ start : Progress, start.Reaches (step.after start)

theorem follows_pure (value : α) : (pure value : Build α).Follows := fun _ => .refl

theorem follows_throw (failure : Failure) : (throw failure : Build α).Follows := fun _ => .refl

theorem follows_seq {step : Build α} {next : α → Build β} (first : step.Follows)
    (rest : ∀ value, (next value).Follows) : (step >>= next).Follows := by
  intro start
  have reached := first start
  cases run : step start with
  | ok value middle =>
      rw [after_ok run] at reached
      rw [after_bind_ok run]
      exact reached.trans (rest value middle)
  | error failure middle =>
      rw [after, run] at reached
      rw [after_bind_error run]
      exact reached

theorem reaches_bind (step : Build α) {next : α → Build β} (rest : ∀ value, (next value).Follows)
    (start : Progress) : (step.after start).Reaches ((step >>= next).after start) := by
  cases run : step start with
  | ok value middle =>
      rw [after_bind_ok run, after_ok run]
      exact rest value middle
  | error failure middle =>
      rw [after_bind_error run, after, run]

theorem Follows.opened {step : Build α} (follows : step.Follows) {run : Run} {events : List Event}
    {value : α} {final : Progress} (built : step ⟨.opened run, events⟩ = .ok value final) :
    ∃ later news, final = ⟨.opened later, news⟩ := by
  obtain ⟨later, opened, -⟩ := (follows ⟨.opened run, events⟩).extends rfl
  rw [after_ok built] at opened
  exact ⟨later, _, Progress.eq_of_session opened⟩

theorem follows_report (events : List Event) (quiet : ∀ event ∈ events, event.bound? = none) :
    (report events).Follows := by
  rintro ⟨session, earlier⟩
  exact .single (.report session earlier events quiet)

theorem follows_bind (key : Key) (type : SourceType) (name : String) (admits : key.Admits type) :
    (Build.bind key type name).Follows := by
  rintro ⟨session, earlier⟩
  cases session with
  | closed => exact .refl
  | opened run => exact .single (.bind run earlier key type name admits)

theorem follows_bindNamed (key : Key) (type : SourceType) (text : Json) (name : String)
    (admits : key.Admits type) : (bindNamed key type text name).Follows := by
  rintro ⟨session, earlier⟩
  cases session with
  | closed => exact .refl
  | opened run =>
      rw [after, bindNamed_opened]
      cases nameFault? text type with
      | some failure => exact .refl
      | none => exact follows_bind key type name admits _

theorem follows_bindDeclaration (declaration : Declaration) :
    (bindDeclaration declaration).Follows :=
  follows_bindNamed _ _ _ _ rfl

theorem follows_bindUnmodelled (node : Expr) : (bindUnmodelled node).Follows :=
  follows_bindNamed _ _ _ _ trivial

theorem follows_useRoundingMode : useRoundingMode.Follows := by
  rintro ⟨session, earlier⟩
  cases session with
  | closed => exact .refl
  | opened run =>
      rw [after_ok (useRoundingMode_opened run earlier)]
      have created := Relation.ReflTransGen.single (Progress.Step.mode run earlier)
      cases run.hasRoundingMode with
      | true => simpa using created
      | false =>
          refine created.tail (.report _ _ _ ?_)
          simp [Event.bound?]

end Build

/-! ## One walk through every build -/

/-- A relation between steps that building a formula respects.  `R f step step'` says that
the second step does what the first one does and returns `f` of what that one returns;
`rename` is what becomes of terms, and `Word` relates the texts of the two trees. -/
structure Build.Law (R : {α : Type} → (α → α) → Build α → Build α → Prop)
    (Word : Json → Json → Prop) (rename : TypedTerm → TypedTerm) : Prop where
  pure {α : Type} (f : α → α) (value : α) : R f (pure value) (pure (f value))
  seq {α β : Type} {f : α → α} {g : β → β} {step step' : Build α} {next next' : α → Build β}
    (onto : Function.Surjective f) (first : R f step step')
    (rest : ∀ value, R g (next value) (next' (f value))) :
    R g (step >>= next) (step' >>= next')
  report (event : Json → Event) (quiet : ∀ text, (event text).bound? = none)
    {text text' : Json} (word : Word text text') :
    R id (Build.report [event text]) (Build.report [event text'])
  mode : R id Build.useRoundingMode Build.useRoundingMode
  /-- Every term is one that has been renamed. -/
  onto : Function.Surjective rename
  unary (tag : Tag) (operand : TypedTerm) :
    unaryTerm tag (rename operand) = (unaryTerm tag operand).map (Option.map rename)
  binary (tag : Tag) (left right : TypedTerm) :
    binaryTerm tag (rename left) (rename right) =
      (binaryTerm tag left right).map (Option.map rename)

theorem map_map_id {answer : Except SortMismatch (Option TypedTerm)} :
    answer = answer.map (Option.map id) := by
  rw [Option.map_id]
  cases answer <;> rfl

section Walk

variable {R : {α : Type} → (α → α) → Build α → Build α → Prop} {Word : Json → Json → Prop}
  {rename : TypedTerm → TypedTerm}

/-- What is asked of the leaves of a tree: its constants, its declarations, and the unknowns
that stand for its nodes. -/
structure Build.RelatesLeaves (R : {α : Type} → (α → α) → Build α → Build α → Prop)
    (Word : Json → Json → Prop) (rename : TypedTerm → TypedTerm)
    (declare : Declaration → Declaration) (node : Expr) : Prop where
  constants : ∀ other ∈ node.preorder,
    R (Option.map rename) (constantTerm other.constant?) (constantTerm other.constant?)
  declarations : ∀ declaration ∈ node.declarations, declaration.isVariable = true →
    R (Option.map rename) (Build.bindDeclaration declaration)
      (Build.bindDeclaration (declare declaration))
  unknowns : ∀ parent ∈ node.preorder, ∀ other ∈ parent.operands, ∀ other' : Expr,
    other.type = other'.type → Word other.text other'.text →
    R (Option.map rename) (Build.bindUnmodelled other) (Build.bindUnmodelled other')

theorem Build.RelatesLeaves.below {declare : Declaration → Declaration} {node inner : Expr}
    (leaves : Build.RelatesLeaves R Word rename declare node)
    (inside : inner.preorder ⊆ node.preorder) :
    Build.RelatesLeaves R Word rename declare inner where
  constants other member := leaves.constants other (inside member)
  declarations declaration member :=
    leaves.declarations declaration (List.filterMap_subset _ inside member)
  unknowns parent member := leaves.unknowns parent (inside member)

variable (law : Build.Law R Word rename)
include law

theorem Build.Law.next {α β : Type} {g : β → β} {step step' : Build α}
    {next next' : α → Build β} (first : R id step step')
    (rest : ∀ value, R g (next value) (next' value)) : R g (step >>= next) (step' >>= next') :=
  law.seq Function.surjective_id first rest

theorem Build.Law.nextTerm {β : Type} {g : β → β} {step step' : Build (Option TypedTerm)}
    {next next' : Option TypedTerm → Build β} (first : R (Option.map rename) step step')
    (rest : ∀ term, R g (next term) (next' (term.map rename))) :
    R g (step >>= next) (step' >>= next') := by
  have onto : Function.Surjective (Option.map rename) := by
    rintro (_ | renamed)
    · exact ⟨none, rfl⟩
    · obtain ⟨term, rfl⟩ := law.onto renamed
      exact ⟨some term, rfl⟩
  exact law.seq onto first rest

theorem Build.Law.remark {α : Type} (f : α → α) (event : Json → Event) (value : α)
    (quiet : ∀ text, (event text).bound? = none) {text text' : Json} (word : Word text text') :
    R f (do Build.report [event text]; Pure.pure value)
      (do Build.report [event text']; Pure.pure (f value)) :=
  law.next (law.report event quiet word) fun _ => law.pure f value

theorem orElse_related {constant : Option Constant} {rest rest' : Build (Option TypedTerm)}
    (encoded : R (Option.map rename) (constantTerm constant) (constantTerm constant))
    (related : R (Option.map rename) rest rest') :
    R (Option.map rename) (orElse constant rest) (orElse constant rest') := by
  refine law.nextTerm encoded fun term => ?_
  cases term with
  | none => exact related
  | some term => exact law.pure (Option.map rename) (some term)

theorem operandTerm_related {node node' : Expr} {term term' : Build (Option TypedTerm)}
    (unknown : R (Option.map rename) (Build.bindUnmodelled node) (Build.bindUnmodelled node'))
    (related : R (Option.map rename) term term') :
    R (Option.map rename) (operandTerm node term) (operandTerm node' term') := by
  refine law.nextTerm related fun found => ?_
  cases found with
  | none => exact unknown
  | some found => exact law.pure (Option.map rename) (some found)

section Texts

variable {text text' : Json} (word : Word text text')
include word

theorem predefinedOperator_related (resolution : Resolution) :
    R id (predefinedOperator resolution text) (predefinedOperator resolution text') := by
  unfold predefinedOperator
  cases resolution.predefined? with
  | some operator => exact law.pure id (some operator)
  | none => exact law.remark id (.notPredefined · _) _ (fun _ => rfl) word

theorem binaryTag_related (operator : Operator) :
    R id (binaryTag operator text) (binaryTag operator text') := by
  unfold binaryTag
  cases Family.ofType? operator.returnType with
  | none => exact law.remark id (.unmodelledBinary _ _ ·) _ (fun _ => rfl) word
  | some family =>
      dsimp only
      split
      · exact law.remark id (.unmodelledBinary _ _ ·) _ (fun _ => rfl) word
      · cases operator.tag.filter (binaryFamily? · = some family) with
        | none => exact law.remark id (.unknownBinary _ _ ·) _ (fun _ => rfl) word
        | some tag => exact law.pure id (some tag)

theorem unaryTag_related (operator : Operator) :
    R id (unaryTag operator text) (unaryTag operator text') := by
  unfold unaryTag
  split
  · exact law.remark id (.unmodelledUnary _ ·) _ (fun _ => rfl) word
  · cases operator.tag.filter isModelledUnary with
    | none => exact law.remark id (.unknownUnary _ ·) _ (fun _ => rfl) word
    | some tag => exact law.pure id (some tag)

theorem applyUnary_related (operator : Operator) (tag : Tag) (operand : TypedTerm) :
    R (Option.map rename) (applyUnary operator tag text operand)
      (applyUnary operator tag text' (rename operand)) := by
  unfold applyUnary
  rw [law.unary]
  cases unaryTerm tag operand with
  | ok term => exact law.pure (Option.map rename) term
  | error mismatch =>
      exact law.remark (Option.map rename) (.operandDoesNotFit _ · mismatch) none (fun _ => rfl) word

theorem applyBinary_related (operator : Operator) (tag : Tag) (left right : TypedTerm) :
    R (Option.map rename) (applyBinary operator tag text left right)
      (applyBinary operator tag text' (rename left) (rename right)) := by
  unfold applyBinary
  rw [law.binary]
  cases binaryTerm tag left right with
  | ok term =>
      have applied := law.pure (Option.map rename) term
      cases rounds tag with
      | true => exact law.next law.mode fun _ => applied
      | false => exact applied
  | error mismatch =>
      have applied := law.remark (Option.map rename) (.operandsDoNotFit operator.name · mismatch)
        none (fun _ => rfl) word
      cases rounds tag with
      | true => exact law.next law.mode fun _ => applied
      | false => exact applied

end Texts

variable {declare : Declaration → Declaration}
  (kinds : ∀ declaration, (declare declaration).isVariable = declaration.isVariable)
include kinds

theorem reference_related (declaration : Option Declaration) {text text' : Json}
    (word : Word text text')
    (bound : ∀ known, declaration = some known → known.isVariable = true →
      R (Option.map rename) (Build.bindDeclaration known)
        (Build.bindDeclaration (declare known))) :
    R (Option.map rename)
      (match declaration.filter (·.isVariable) with
      | some declaration => Build.bindDeclaration declaration
      | none => without (.unmodelledNode text))
      (match (declaration.map declare).filter (·.isVariable) with
      | some declaration => Build.bindDeclaration declaration
      | none => without (.unmodelledNode text')) := by
  have filtered : (declaration.map declare).filter (·.isVariable) =
      (declaration.filter (·.isVariable)).map declare := by
    cases declaration with
    | none => rfl
    | some declaration =>
        cases known : declaration.isVariable <;> simp [Option.filter, kinds, known]
  rw [filtered]
  cases known : declaration.filter (·.isVariable) with
  | none => exact law.remark (Option.map rename) .unmodelledNode none (fun _ => rfl) word
  | some referred =>
      obtain ⟨refers, isVariable⟩ := Option.filter_eq_some_iff.mp known
      exact bound referred refers isVariable

/-- The walk: whatever a law says of the leaves of a tree, and of giving up where it is
nested too deeply, it says of building the terms of matching trees. -/
theorem nodeTerm_related (node : Expr) :
    ∀ node', node.Matches declare Word node' →
      Build.RelatesLeaves R Word rename declare node →
      ∀ depth, (depth < node.operatorDepth →
          R (Option.map rename) (throw .tooDeep : Build (Option TypedTerm)) (throw .tooDeep)) →
        R (Option.map rename) (nodeTerm node depth) (nodeTerm node' depth) := by
  induction node using Expr.operandInduction with
  | literal constant type text =>
      rintro _ ⟨word⟩ leaves depth deep
      have encoded := leaves.constants _ (Expr.self_mem_preorder _)
      exact orElse_related law encoded (law.pure (Option.map rename) none)
  | unmodelled shape type text children constant =>
      rintro _ ⟨word⟩ leaves depth deep
      have encoded := leaves.constants _ (Expr.self_mem_preorder _)
      rw [nodeTerm, nodeTerm]
      exact orElse_related law encoded
        (law.remark (Option.map rename) .unmodelledNode none (fun _ => rfl) ‹_›)
  | reference declaration type text constant =>
      rintro _ ⟨word⟩ leaves depth deep
      have encoded := leaves.constants _ (Expr.self_mem_preorder _)
      rw [nodeTerm, nodeTerm]
      refine orElse_related law encoded (reference_related law kinds declaration ‹_› ?_)
      rintro known rfl
      exact leaves.declarations known (by simp [Expr.declarations, Expr.preorder, Expr.declaration?])
  | unary resolution operand type text constant ih =>
      rintro _ (_ | _ | ⟨_, _, _, word, below⟩) leaves depth deep
      have encoded := leaves.constants _ (Expr.self_mem_preorder _)
      have inner := leaves.below Expr.operand_preorder
      have unknown := leaves.unknowns _ (Expr.self_mem_preorder _) operand
        (by simp [Expr.operands]) _ below.type below.word
      rw [nodeTerm, nodeTerm]
      refine orElse_related law encoded
        (law.next (predefinedOperator_related law word _) fun operator => ?_)
      cases operator with
      | none => exact law.pure (Option.map rename) none
      | some operator =>
          refine law.next (unaryTag_related law word _) fun tag => ?_
          cases tag with
          | none => exact law.pure (Option.map rename) none
          | some tag =>
              cases depth with
              | zero => exact deep (Nat.succ_pos _)
              | succ depth =>
                  have related := ih _ below inner depth fun deeper => deep (Nat.succ_lt_succ deeper)
                  refine law.nextTerm (operandTerm_related law unknown related) fun term => ?_
                  cases term with
                  | none => exact law.pure (Option.map rename) none
                  | some term => exact applyUnary_related law word _ _ _
  | binary resolution left right type text constant leftIh rightIh =>
      rintro _ (_ | _ | _ | ⟨_, _, _, word, leftBelow, rightBelow⟩) leaves depth deep
      have encoded := leaves.constants _ (Expr.self_mem_preorder _)
      have leftInner := leaves.below Expr.left_preorder
      have rightInner := leaves.below Expr.right_preorder
      have leftUnknown := leaves.unknowns _ (Expr.self_mem_preorder _) left
        (by simp [Expr.operands]) _ leftBelow.type leftBelow.word
      have rightUnknown := leaves.unknowns _ (Expr.self_mem_preorder _) right
        (by simp [Expr.operands]) _ rightBelow.type rightBelow.word
      rw [Expr.operatorDepth] at deep
      rw [nodeTerm, nodeTerm]
      refine orElse_related law encoded
        (law.next (predefinedOperator_related law word _) fun operator => ?_)
      cases operator with
      | none => exact law.pure (Option.map rename) none
      | some operator =>
          refine law.next (binaryTag_related law word _) fun tag => ?_
          cases tag with
          | none => exact law.pure (Option.map rename) none
          | some tag =>
              cases depth with
              | zero => exact deep (Nat.succ_pos _)
              | succ depth =>
                  have related := leftIh _ leftBelow leftInner depth fun deeper => deep (by omega)
                  refine law.nextTerm (operandTerm_related law leftUnknown related) fun a => ?_
                  cases a with
                  | none => exact law.pure (Option.map rename) none
                  | some a =>
                      have related :=
                        rightIh _ rightBelow rightInner depth fun deeper => deep (by omega)
                      refine law.nextTerm (operandTerm_related law rightUnknown related) fun b => ?_
                      cases b with
                      | none => exact law.pure (Option.map rename) none
                      | some b => exact applyBinary_related law word _ _ _ _

theorem formulate_related [Limits] {root root' : Expr} (matched : root.Matches declare Word root')
    (leaves : Build.RelatesLeaves R Word rename declare root)
    (deep : Limits.formula < root.operatorDepth →
      R (Option.map rename) (throw .tooDeep : Build (Option TypedTerm)) (throw .tooDeep)) :
    R (Option.map rename) (formulate root) (formulate root') := by
  refine law.nextTerm (nodeTerm_related law kinds root root' matched leaves Limits.formula deep)
    fun term => ?_
  cases term with
  | none => exact law.remark (Option.map rename) .noFormula none (fun _ => rfl) matched.word
  | some term => exact law.pure (Option.map rename) (some term)

end Walk

/-! ## Every build follows the steps -/

theorem map_ok {α β : Type} {answer : Except Failure α} {f : α → β} {result : β}
    (mapped : answer.map f = .ok result) : ∃ value, answer = .ok value ∧ f value = result := by
  cases answer with
  | error failure => cases mapped
  | ok value => exact ⟨value, rfl, Except.ok.inj mapped⟩

theorem map_error {α β : Type} {answer : Except Failure α} {f : α → β} {failure : Failure}
    (mapped : answer.map f = .error failure) : answer = .error failure := by
  cases answer with
  | error refused => exact congrArg _ (Except.error.inj mapped)
  | ok value => cases mapped

theorem encodeConstant_quiet {value : Json} {kind : Kind} {term : Option TypedTerm}
    {events : List Event} (encoded : encodeConstant value kind = .ok (term, events)) :
    ∀ event ∈ events, event.bound? = none := by
  unfold encodeConstant at encoded
  split at encoded
  · split at encoded <;> cases encoded <;> simp
  · obtain ⟨found, -, pair⟩ := map_ok encoded
    cases pair
    simp
  · obtain ⟨found, -, pair⟩ := map_ok encoded
    cases pair
    simp
  · split at encoded <;> cases encoded <;> simp [Event.bound?]

theorem constantTerm_follows (constant : Option Constant) : (constantTerm constant).Follows := by
  cases constant with
  | none => exact Build.follows_pure none
  | some constant =>
      rw [constantTerm]
      cases encoded : encodeConstant constant.value constant.kind with
      | error failure => exact Build.follows_throw failure
      | ok answer =>
          obtain ⟨term, events⟩ := answer
          exact Build.follows_seq (Build.follows_report events (encodeConstant_quiet encoded))
            fun _ => Build.follows_pure term

theorem follows_law : Build.Law (fun _ step _ => step.Follows) Eq id where
  pure _ value := Build.follows_pure value
  seq _ first rest := Build.follows_seq first rest
  onto := Function.surjective_id
  report event quiet _ _ _ := Build.follows_report [event _] (by simpa using quiet _)
  mode := Build.follows_useRoundingMode
  unary _ _ := map_map_id
  binary _ _ _ := map_map_id

theorem follows_leaves (node : Expr) :
    Build.RelatesLeaves (fun _ step _ => step.Follows) Eq id id node where
  constants _ _ := constantTerm_follows _
  declarations declaration _ _ := Build.follows_bindDeclaration declaration
  unknowns _ _ other _ _ _ _ := Build.follows_bindUnmodelled other

theorem operandTerm_follows (node : Expr) {term : Build (Option TypedTerm)}
    (follows : term.Follows) : (operandTerm node term).Follows :=
  @operandTerm_related _ _ _ follows_law node node term term
    (Build.follows_bindUnmodelled node) follows

/-- A node is turned into a term by steps only, at whatever depth. -/
theorem nodeTerm_follows (node : Expr) (depth : Nat) : (nodeTerm node depth).Follows :=
  nodeTerm_related follows_law (fun _ => rfl) node _ node.matches_relabel (follows_leaves node)
    depth fun _ => Build.follows_throw _

theorem formulate_follows [Limits] (root : Expr) : (formulate root).Follows :=
  formulate_related follows_law (fun _ => rfl) root.matches_relabel (follows_leaves root)
    fun _ => Build.follows_throw _

end Analysis

end CondSat
