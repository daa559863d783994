import CondSat.Proofs.OperatorSorts
import CondSat.Proofs.Repetition

/-! # Analyses that fail

A tree may hold three things on which formulating it fails: a number that is too large, a
list or an object where a text is looked up, and a torn text where a constant is to be
called by it.  An analysis does not turn these failures into answers; everything else a
tree may hold has a term, or an unknown, or no formula.  `Provokes` says what a tree holds,
and `Meets` what formulating it comes to, whatever has been bound before. -/
set_option autoImplicit false
namespace CondSat.Analysis

open Source

theorem Build.nameFault?_eq_some_iff {text : Json} {type : SourceType} {failure : Failure} :
    nameFault? text type = some failure ↔
      (failure = .unhashable ∧ isLookupKey text = false) ∨
      (failure = .unencodable ∧ isTorn text = true ∧ type.sort? ≠ none) := by
  unfold nameFault?
  cases text <;> cases type.sort? <;> simp [isLookupKey, isTorn, @eq_comm _ failure]

def Provokes (root : Expr) (failure : Failure) : Prop :=
  (failure = .number .tooLarge ∧ root.HoldsTooLarge) ∨ HasNameFault root failure

theorem Provokes.cases {root : Expr} {failure : Failure} (provokes : Provokes root failure) :
    failure = .number .tooLarge ∨ failure = .unhashable ∨ failure = .unencodable := by
  rcases provokes with ⟨rfl, -⟩ | ⟨_, -, -, fault⟩ | ⟨_, -, _, -, fault⟩
  · exact Or.inl rfl
  · exact Or.inr ((Build.nameFault?_eq_some_iff.mp fault).imp And.left And.left)
  · exact Or.inr ((Build.nameFault?_eq_some_iff.mp fault).imp And.left And.left)

theorem formulate_ends [Limits] (root : Expr) (run : Run) (events : List Event) :
    (∃ term later news, formulate root ⟨.opened run, events⟩ = .ok term ⟨.opened later, news⟩) ∨
    (Limits.formula < root.operatorDepth ∧
      ∃ final, formulate root ⟨.opened run, events⟩ = .error .tooDeep final) ∨
    (∃ failure final, Provokes root failure ∧
      formulate root ⟨.opened run, events⟩ = .error failure final) := by
  rcases formulate_completes_unless root run events with built | ⟨failure, final, excused, failed⟩
  · exact Or.inl built
  · rcases excused with ⟨rfl, deep⟩ | ⟨⟨fault, rfl⟩, large⟩ | named
    · exact Or.inr (Or.inl ⟨deep, final, failed⟩)
    · cases fault
      have holds := (not_constantsEncode_iff root).mp large
      exact Or.inr (Or.inr ⟨_, final, Or.inl ⟨rfl, holds⟩, failed⟩)
    · exact Or.inr (Or.inr ⟨failure, final, Or.inr named, failed⟩)

/-! ## What is always looked at -/

/-- The operands that formulating an operator node comes to, whatever has been bound before:
those of a modelled operator, up to the first one whose type has no sort. -/
structure Reads (parent operand : Expr) : Prop where
  bare : parent.constant?.bind constantSort? = none
  modelled : nodeTag? parent ≠ none
  position : ∃ before after, parent.children = before ++ operand :: after ∧
    ∀ other ∈ before, other.type.sort? ≠ none

abbrev Visits : Expr → Expr → Prop := Relation.ReflTransGen Reads

/-- A node that has no term whatever its operands have. -/
structure HasNoMeaning (node : Expr) : Prop where
  bare : node.constant?.bind constantSort? = none
  notVariable : ∀ declaration, node.declaration? = some declaration →
    declaration.isVariable = false
  unmodelled : nodeTag? node = none

/-- On what formulating a tree fails if it comes to it first. -/
inductive Meets (root : Expr) : Failure → Prop
  | number {node : Expr} {constant : Constant} (visits : Visits root node)
      (known : node.constant? = some constant) (large : constant.TooLarge) :
      Meets root (.number .tooLarge)
  | reference {node : Expr} {declaration : Declaration} {failure : Failure}
      (visits : Visits root node) (refers : node.declaration? = some declaration)
      (isVariable : declaration.isVariable = true)
      (bare : node.constant?.bind constantSort? = none)
      (fault : Build.nameFault? declaration.name declaration.type = some failure) :
      Meets root failure
  | unknown {parent operand : Expr} {failure : Failure} (visits : Visits root parent)
      (reads : Reads parent operand) (meaningless : HasNoMeaning operand)
      (fault : Build.nameFault? operand.text operand.type = some failure) : Meets root failure

section

variable {run : Run} {events : List Event} {final : Progress} {depth : Nat}

theorem operandTerm_ok {node : Expr} {step : Build (Option TypedTerm)} {start : Progress}
    {term : Option TypedTerm} (built : operandTerm node step start = .ok term final) :
    ∃ found middle, step start = .ok found middle := by
  obtain ⟨found, middle, stepped, -⟩ := Stateful.bind_ok built
  exact ⟨found, middle, stepped⟩

/-- An operand whose type has a sort gets at least an unknown. -/
theorem operandTerm_ne_none {node : Expr} {term : Option TypedTerm}
    (sorted : node.type.sort? ≠ none)
    (built : operandTerm node (nodeTerm node depth) ⟨.opened run, events⟩ = .ok term final) :
    term ≠ none := by
  obtain ⟨found, middle, stepped, built⟩ := Stateful.bind_ok built
  cases found with
  | some found =>
      obtain ⟨rfl, -⟩ := Stateful.pure_ok.mp built
      exact Option.some_ne_none found
  | none =>
      obtain ⟨later, news, rfl⟩ := (nodeTerm_follows node depth).opened stepped
      cases (Build.bind_opened later news _ _ _).symm.trans (Build.bindNamed_ok built).2
      exact fun refused => sorted (Bindings.sort?_of_bind_eq_none refused)

theorem operandTerms_reach {operand : Expr} {after before : List Expr}
    (sorted : ∀ other ∈ before, other.type.sort? ≠ none) {terms : Option (List TypedTerm)}
    (built : operandTerms (before ++ operand :: after) depth ⟨.opened run, events⟩ =
      .ok terms final) :
    ∃ later news term ended,
      operandTerm operand (nodeTerm operand depth) ⟨.opened later, news⟩ = .ok term ended := by
  induction before generalizing run events terms final with
  | nil =>
      obtain ⟨term, middle, stepped, -⟩ := Stateful.bind_ok built
      exact ⟨run, events, term, middle, stepped⟩
  | cons first rest ih =>
      obtain ⟨term, middle, stepped, built⟩ := Stateful.bind_ok built
      obtain ⟨later, news, rfl⟩ :=
        (operandTerm_follows first (nodeTerm_follows first depth)).opened stepped
      cases term with
      | none => exact absurd rfl (operandTerm_ne_none (sorted first (by simp)) stepped)
      | some term =>
          obtain ⟨_, _, built, -⟩ := Stateful.bind_ok built
          exact ih (fun other member => sorted other (by simp [member])) built

variable {term : Option TypedTerm}

theorem Reads.reach {parent operand : Expr} (reads : Reads parent operand)
    (built : nodeTerm parent depth ⟨.opened run, events⟩ = .ok term final) :
    ∃ level later news found ended,
      operandTerm operand (nodeTerm operand level) ⟨.opened later, news⟩ = .ok found ended := by
  obtain ⟨bare, modelled, before, after, position, sorted⟩ := reads
  obtain ⟨resolution, isOperator⟩ : ∃ resolution, parent.operator? = some resolution := by
    cases parent with
    | unary resolution | binary resolution => exact ⟨resolution, rfl⟩
    | _ => exact absurd rfl modelled
  rcases operator_cases isOperator bare built with
    ⟨unmodelled, -⟩ | ⟨tag, level, news, terms, middle, -, -, found, -⟩
  · exact absurd unmodelled modelled
  · rw [position] at found
    exact ⟨level, operandTerms_reach sorted found⟩

/-- Where a tree has been formulated, so has every node that was visited. -/
theorem visits_reach {root node : Expr} (visits : Visits root node)
    (built : nodeTerm root depth ⟨.opened run, events⟩ = .ok term final) :
    ∃ level later news found ended,
      nodeTerm node level ⟨.opened later, news⟩ = .ok found ended := by
  induction visits with
  | refl => exact ⟨depth, run, events, term, final, built⟩
  | tail _ reads ih =>
      obtain ⟨_, _, _, _, _, built⟩ := ih
      obtain ⟨level, later, news, _, _, built⟩ := reads.reach built
      obtain ⟨found, ended, built⟩ := operandTerm_ok built
      exact ⟨level, later, news, found, ended, built⟩

theorem HasNoMeaning.eq_none {node : Expr} (meaningless : HasNoMeaning node)
    (built : nodeTerm node depth ⟨.opened run, events⟩ = .ok term final) : term = none := by
  obtain ⟨bare, notVariable, unmodelled⟩ := meaningless
  have plain : ∀ rest, nodeTerm node depth = orElse node.constant? rest →
      rest.Tells none → term = none := by
    intro rest same tells
    rw [same] at built
    rcases orElse_cases built with ⟨found, -, encoded⟩ | ⟨-, news, rested⟩
    · rw [bare] at encoded
      cases encoded
    · exact (tells _ _ _ rested).1
  cases node with
  | literal => exact plain _ (by rw [nodeTerm]; rfl) (Build.tells_pure none)
  | unmodelled => exact plain _ (by rw [nodeTerm]; rfl) (Build.tells_remark _ _)
  | reference declaration type text constant =>
      refine plain _ (by rw [nodeTerm]; rfl) ?_
      have missing : declaration.filter (·.isVariable) = none := by
        refine Option.filter_eq_none_iff.mpr fun declared refers => ?_
        rw [notVariable declared refers]
        exact Bool.false_ne_true
      rw [missing]
      exact Build.tells_remark _ _
  | unary | binary =>
      rcases operator_cases rfl bare built with ⟨-, rfl⟩ | ⟨tag, _, _, _, _, tagged, -⟩
      · rfl
      · rw [unmodelled] at tagged
        cases tagged

theorem Meets.not_ok {root : Expr} {failure : Failure} (meets : Meets root failure) :
    nodeTerm root depth ⟨.opened run, events⟩ ≠ .ok term final := by
  intro built
  cases meets with
  | @number node constant visits known large =>
      obtain ⟨level, later, news, _, _, built⟩ := visits_reach visits built
      obtain ⟨rest, same⟩ := nodeTerm_eq_orElse node level
      rw [same, known] at built
      obtain ⟨_, _, told, -⟩ := Stateful.bind_ok built
      exact (not_encodes_iff constant).mpr large (encodes_of_constantTerm told)
  | @reference node declaration _ visits refers isVariable bare fault =>
      obtain ⟨level, later, news, _, _, built⟩ := visits_reach visits built
      cases node with
      | reference declared type text constant =>
          cases refers
          rw [nodeTerm] at built
          rcases orElse_cases built with ⟨found, -, encoded⟩ | ⟨-, news, rested⟩
          · rw [show constant.bind constantSort? = none from bare] at encoded
            cases encoded
          · rw [Option.filter_some, if_pos isVariable] at rested
            have named := (Build.bindNamed_ok rested).1
            rw [fault] at named
            cases named
      | _ => cases refers
  | unknown visits reads meaningless fault =>
      obtain ⟨_, _, _, _, _, built⟩ := visits_reach visits built
      obtain ⟨level, later, news, _, _, built⟩ := reads.reach built
      obtain ⟨found, middle, stepped, rested⟩ := Stateful.bind_ok built
      obtain ⟨still, more, rfl⟩ := (nodeTerm_follows _ level).opened stepped
      rw [meaningless.eq_none stepped] at rested
      have named := (Build.bindNamed_ok rested).1
      rw [fault] at named
      cases named

end

/-! ## Analyses that return -/

theorem analyze_outcome_eq_error [Limits] {oracle : Solver.Oracle} {options : Options} {root : Expr}
    {failure : Failure} :
    (analyze oracle options root).outcome = .error failure ↔
      isCandidate root = true ∧ failure ≠ .tooDeep ∧
      (formulate root).answer ⟨.start, []⟩ = .error failure := by
  unfold analyze
  cases isCandidate root with
  | false => exact iff_of_false nofun (by simp)
  | true =>
      rw [Build.outcome_eq]
      cases (formulate root).answer ⟨.start, []⟩ with
      | error refused =>
          cases refused with
          | tooDeep =>
              refine iff_of_false nofun ?_
              rintro ⟨-, shallow, ⟨⟩⟩
              exact shallow rfl
          | alreadyOpen | notOpen | number _ | unhashable | unencodable =>
              constructor
              · rintro ⟨⟩
                exact ⟨rfl, nofun, rfl⟩
              · rintro ⟨-, -, ⟨⟩⟩
                rfl
      | ok found =>
          refine iff_of_false ?_ nofun
          cases found with
          | none => nofun
          | some term =>
              intro failed
              dsimp only at failed
              cases boolean : term.asBool <;> rw [boolean] at failed <;> cases failed

/-- Whether there is a formula to ask the solver about. -/
def AsksSolver [Limits] (root : Expr) : Prop :=
  ∃ term formula, (formulate root).answer ⟨.start, []⟩ = .ok (some term) ∧ term.asBool = .ok formula

theorem analyze_outcome_isSome [Limits] {oracle : Solver.Oracle} {options : Options} {root : Expr}
    {verdict : Option Verdict} (candidate : isCandidate root = true)
    (outcome : (analyze oracle options root).outcome = .ok verdict) :
    verdict.isSome = true ↔ AsksSolver root := by
  unfold AsksSolver
  rw [analyze, candidate, Build.outcome_eq] at outcome
  cases answered : (formulate root).answer ⟨.start, []⟩ with
  | error failure =>
      rw [answered] at outcome
      cases failure <;> cases outcome
      exact iff_of_false nofun nofun
  | ok found =>
      rw [answered] at outcome
      cases found with
      | none =>
          cases outcome
          exact iff_of_false nofun nofun
      | some term =>
          dsimp only at outcome
          cases boolean : term.asBool with
          | error mismatch =>
              rw [boolean] at outcome
              cases outcome
              refine iff_of_false nofun ?_
              rintro ⟨_, formula, ⟨⟩, known⟩
              rw [boolean] at known
              cases known
          | ok formula =>
              rw [boolean] at outcome
              cases outcome
              exact iff_of_true rfl ⟨term, formula, rfl, boolean⟩

theorem provokes_of_analyze [Limits] {oracle : Solver.Oracle} {options : Options} {root : Expr}
    {failure : Failure} (outcome : (analyze oracle options root).outcome = .error failure) :
    Provokes root failure := by
  obtain ⟨-, shallow, failed⟩ := analyze_outcome_eq_error.mp outcome
  rw [Build.answer, Session.start] at failed
  rcases formulate_ends root .initial [] with
    ⟨_, _, _, ended⟩ | ⟨-, _, ended⟩ | ⟨_, _, provokes, ended⟩ <;> rw [ended] at failed
  · cases failed
  · cases failed
    exact absurd rfl shallow
  · cases failed
    exact provokes

section Fatal

variable [Limits] {root : Expr} {failure : Failure} (meets : Meets root failure)
  (bounded : root.operatorDepth ≤ Limits.formula)
include meets bounded

theorem Meets.formulate_fails (run : Run) (events : List Event) :
    ∃ met final, Provokes root met ∧ formulate root ⟨.opened run, events⟩ = .error met final := by
  rcases formulate_ends root run events with ⟨_, _, _, built⟩ | ⟨deep, -⟩ | failed
  · obtain ⟨_, _, built, -⟩ := Stateful.bind_ok built
    exact absurd built meets.not_ok
  · omega
  · exact failed

theorem Meets.analyze_fails (candidate : isCandidate root = true) (oracle : Solver.Oracle)
    (options : Options) :
    ∃ met, Provokes root met ∧ (analyze oracle options root).outcome = .error met := by
  obtain ⟨met, final, provokes, failed⟩ := meets.formulate_fails bounded .initial []
  refine ⟨met, provokes, analyze_outcome_eq_error.mpr ⟨candidate, ?_, ?_⟩⟩
  · rcases provokes.cases with rfl | rfl | rfl <;> nofun
  · rw [Build.answer, Session.start, failed]

end Fatal

/-- Formulating a tree in an open session returns, unless its operators are nested too deeply
or it holds a number that is too large or a text for which no constant can be made; analysing
it returns unless it holds such a value.  Where formulating comes to such a value whatever
has been bound before, both fail on one that the tree holds. -/
theorem analysis_fails_only_as_provoked [Limits] (root : Expr) :
    (∀ run events,
      (∃ term later news, formulate root ⟨.opened run, events⟩ = .ok term ⟨.opened later, news⟩) ∨
      (Limits.formula < root.operatorDepth ∧
        ∃ final, formulate root ⟨.opened run, events⟩ = .error .tooDeep final) ∨
      (∃ failure final, Provokes root failure ∧
        formulate root ⟨.opened run, events⟩ = .error failure final)) ∧
    (∀ oracle options,
      (∃ verdict, (analyze oracle options root).outcome = .ok verdict) ∨
      (∃ failure, Provokes root failure ∧
        (analyze oracle options root).outcome = .error failure)) ∧
    (∀ failure, Meets root failure → root.operatorDepth ≤ Limits.formula →
      (∀ run events, ∃ met final, Provokes root met ∧
        formulate root ⟨.opened run, events⟩ = .error met final) ∧
      (isCandidate root = true → ∀ oracle options, ∃ met, Provokes root met ∧
        (analyze oracle options root).outcome = .error met)) := by
  refine ⟨formulate_ends root, ?_, ?_⟩
  · intro oracle options
    cases outcome : (analyze oracle options root).outcome with
    | ok verdict => exact Or.inl ⟨verdict, rfl⟩
    | error failure => exact Or.inr ⟨failure, provokes_of_analyze outcome, rfl⟩
  · intro failure meets bounded
    exact ⟨meets.formulate_fails bounded, meets.analyze_fails bounded⟩

def comparisonDocument (n : Int) : Json :=
  .obj [("node", "binary"), ("operator", "BinaryLessDouble"),
    ("left", .obj [("node", "variable"), ("name", "x"), ("type", "double")]),
    ("right", .obj [("node", "literal"), ("value", .int n), ("type", "double"), ("text", "n")])]

def comparisonTree (n : Int) : Expr :=
  .binary (.ofTag (.floatComparison .less .double))
    (.reference (some ⟨"x", .localVariable, .double, 1⟩) .double "x" none)
    (.literal ⟨.int n, .double⟩ .double "n") .bool "x < n" none

theorem comparisonDocument_read (n : Int) :
    Expr.ofJson (comparisonDocument n) 1 = (.ok (comparisonTree n), 2) := rfl

theorem comparisonTree_names (n : Int) (failure : Failure) :
    ¬HasNameFault (comparisonTree n) failure := by
  refine not_hasNameFault ?_ ?_ failure <;>
    simp [comparisonTree, Expr.preorder, Expr.text, Build.nameFault?, isLookupKey, isTorn]

theorem comparisonTree_provokes {n : Int} {failure : Failure}
    (provokes : Provokes (comparisonTree n) failure) :
    failure = .number .tooLarge ∧ Ieee.Format.doubleLimit ≤ n.natAbs := by
  rcases provokes with ⟨rfl, node, member, constant, known, -, number, value, large⟩ | named
  · rw [comparisonTree] at member
    simp only [Expr.preorder, List.mem_cons, List.mem_append, List.not_mem_nil, or_false] at member
    rcases member with rfl | rfl | rfl <;> cases known
    rw [Json.int.inj value]
    exact ⟨rfl, large⟩
  · exact absurd named (comparisonTree_names n failure)

theorem comparisonTree_meets {n : Int} (large : Ieee.Format.doubleLimit ≤ n.natAbs) :
    Meets (comparisonTree n) (.number .tooLarge) := by
  have reads : Reads (comparisonTree n) (.literal ⟨.int n, .double⟩ .double "n") :=
    ⟨rfl, nofun, [_], [], rfl, List.forall_mem_singleton.mpr nofun⟩
  exact .number (.single reads) rfl ⟨Or.inr rfl, n, rfl, large⟩

/-- The document of the negation of an invocation with any text. -/
def negationDocument (text : Json) : Json :=
  .obj [("node", "unary"), ("operator", "UnaryLogicalNegation"),
    ("operand", .obj [("node", "unsupported"), ("type", "bool"), ("text", text)])]

def negationTree (text : Json) : Expr :=
  .unary (.ofTag .negation) (.unmodelled .other .bool text [] none) .bool ("!" ++ text) none

theorem negationDocument_read (text : Json) :
    Expr.ofJson (negationDocument text) 1 = (.ok (negationTree text), 1) := rfl

theorem negationTree_meets {text : Json} {failure : Failure}
    (fault : Build.nameFault? text .bool = some failure) : Meets (negationTree text) failure :=
  .unknown .refl ⟨rfl, nofun, [], [], rfl, by simp⟩ ⟨rfl, nofun, rfl⟩ fault

theorem negationTree_provokes {text : Json} {failure : Failure}
    (provokes : Provokes (negationTree text) failure) :
    Build.nameFault? text .bool = some failure := by
  rcases provokes with ⟨rfl, node, member, constant, known, -⟩ | ⟨_, member, -⟩ |
    ⟨node, member, operand, inside, fault⟩
  · simp only [negationTree, Expr.preorder, Expr.preorders, List.mem_cons, List.not_mem_nil,
      or_false] at member
    rcases member with rfl | rfl <;> cases known
  · simp [negationTree] at member
  · simp only [negationTree, Expr.preorder, Expr.preorders, List.mem_cons, List.not_mem_nil,
      or_false] at member
    rcases member with rfl | rfl
    · rw [List.mem_singleton.mp inside] at fault
      exact fault
    · cases inside

/-- The largest number that has a floating-point value, the next one, and a text that is a
list. -/
theorem analysis_fails_only_as_provoked_compared :
    (∀ failure, ¬Provokes (comparisonTree (Ieee.Format.doubleLimit - 1)) failure) ∧
    (∃ term later news, formulate (comparisonTree (Ieee.Format.doubleLimit - 1)) ⟨.start, []⟩ =
      .ok term ⟨.opened later, news⟩) ∧
    (∃ final, formulate (comparisonTree Ieee.Format.doubleLimit) ⟨.start, []⟩ =
      .error (.number .tooLarge) final) ∧
    ∃ final, formulate (negationTree (.arr [.int 1])) ⟨.start, []⟩ = .error .unhashable final := by
  have fits : ∀ failure, ¬Provokes (comparisonTree (Ieee.Format.doubleLimit - 1)) failure := by
    intro failure provokes
    have positive := Ieee.Format.doubleLimit_pos
    have large := (comparisonTree_provokes provokes).2
    omega
  refine ⟨fits, ?_, ?_, ?_⟩
  · obtain ⟨ends, -⟩ :=
      analysis_fails_only_as_provoked (comparisonTree (Ieee.Format.doubleLimit - 1))
    rcases ends .initial [] with built | ⟨deep, -⟩ | ⟨_, _, provokes, -⟩
    · exact built
    · exact absurd deep (by decide)
    · exact absurd provokes (fits _)
  · obtain ⟨-, -, fatal⟩ := analysis_fails_only_as_provoked (comparisonTree Ieee.Format.doubleLimit)
    have meets := comparisonTree_meets (le_of_eq (Int.natAbs_natCast Ieee.Format.doubleLimit).symm)
    obtain ⟨met, final, provokes, failed⟩ := (fatal _ meets (by decide)).1 .initial []
    rw [(comparisonTree_provokes provokes).1] at failed
    exact ⟨final, failed⟩
  · obtain ⟨-, -, fatal⟩ := analysis_fails_only_as_provoked (negationTree (.arr [.int 1]))
    obtain ⟨met, final, provokes, failed⟩ :=
      (fatal _ (negationTree_meets rfl) (by decide)).1 .initial []
    cases negationTree_provokes provokes
    exact ⟨final, failed⟩

/-- Analysing `x < 10 ^ 309` fails, and so does analysing the negation of an invocation with
a list for its text; documents describe both trees. -/
theorem odd_values_are_not_analysed :
    Expr.ofJson (comparisonDocument (10 ^ 309)) 1 = (.ok (comparisonTree (10 ^ 309)), 2) ∧
    (Build.outcome (formulate (comparisonTree (10 ^ 309))) .start).1 =
      .error (.number .tooLarge) ∧
    (∀ oracle options, (analyze oracle options (comparisonTree (10 ^ 309))).outcome =
      .error (.number .tooLarge)) ∧
    Expr.ofJson (negationDocument (.arr [.int 1])) 1 = (.ok (negationTree (.arr [.int 1])), 1) ∧
    (Build.outcome (formulate (negationTree (.arr [.int 1]))) .start).1 = .error .unhashable ∧
    ∀ oracle options, (analyze oracle options (negationTree (.arr [.int 1]))).outcome =
      .error .unhashable := by
  have meets := @comparisonTree_meets (10 ^ 309) (by decide +kernel)
  refine ⟨comparisonDocument_read _, ?_, ?_, negationDocument_read _, rfl, fun _ _ => rfl⟩
  · obtain ⟨met, final, provokes, failed⟩ := meets.formulate_fails (by decide) .initial []
    rw [Build.outcome_eq, Build.answer, Session.start, failed, (comparisonTree_provokes provokes).1]
  · intro oracle options
    obtain ⟨met, provokes, failed⟩ := meets.analyze_fails (by decide) rfl oracle options
    rw [failed, (comparisonTree_provokes provokes).1]

end CondSat.Analysis
