import CondSat.Proofs.FreeNames
import CondSat.Proofs.ModelFloats
import CondSat.Proofs.Unsatisfiable

/-! # What a satisfiable verdict shows

The constants of a model are listed by name with the texts of their values.  Read
back at the sorts of the constants, the texts are the values of the model, up to
the choice of a NaN: so they make the formula true under the model's rounding
mode.  Every constant that the formula has is listed once, in the order of the
bindings. -/
set_option autoImplicit false
namespace CondSat

open Ieee (Format RoundingMode)

/-! ## Reading values -/

namespace Solver.Value

def read? : ValueSort → String → Option Value
  | .bool, text =>
    if text = "True" then some (.bool true) else if text = "False" then some (.bool false) else none
  | .bits width, text =>
    (Text.digitGroup? text.toList).bind fun digits =>
      let number := Text.ofDigits digits
      if number < 2 ^ width then some (.bits width (BitVec.ofNat width number)) else none
  | .float format, text => (readPattern? format text).map (.ofPattern format)
  | .roundingMode, _ | .integer, _ | .real, _ => none

theorem like_ofPattern {format : Format} (stored : format.Stored) (pattern : BitVec format.width) :
    (float format pattern).Like (ofPattern format pattern.toNat) := by
  cases nan : format.isNaN pattern.toNat with
  | true =>
      refine .float format _ _ (Or.inr ⟨nan, ?_⟩)
      rw [Format.canonical_of_isNaN nan, BitVec.toNat_ofNat,
        Nat.mod_eq_of_lt (Format.quietNaN_lt stored), Format.isNaN_quietNaN stored]
  | false =>
      rw [ofPattern, Format.canonical_of_not_isNaN nan, BitVec.ofNat_toNat, BitVec.setWidth_eq]
      exact .same _

/-- The text of a value is read back at its sort, up to the choice of a NaN. -/
theorem read?_text (value : Value) (stored : ∀ format, value.sort = .float format → format.Stored)
    (proper : value.sort ≠ .roundingMode) :
    ∃ back, read? value.sort value.text = some back ∧ value.Like back := by
  cases value with
  | bool truth =>
      refine ⟨.bool truth, ?_, .same _⟩
      cases truth <;> rfl
  | bits width word =>
      refine ⟨.bits width word, ?_, .same _⟩
      have read := Text.digitGroup?_toString word.toNat
      obtain ⟨digits, group, number⟩ := Option.map_eq_some_iff.mp read
      rw [sort, text, read?, group, Option.bind_some, number]
      dsimp only
      rw [if_pos word.isLt, BitVec.ofNat_toNat, BitVec.setWidth_eq]
  | float format pattern =>
      have stored := stored format rfl
      refine ⟨ofPattern format pattern.toNat, ?_, like_ofPattern stored pattern⟩
      rw [sort, text, read?, readPattern?_floatText stored pattern.isLt]
  | mode mode => exact absurd rfl proper

end Solver.Value

/-! ## Listing constants -/

namespace Solver

theorem distinctNames_nodup (constants : List Constant) (seen : List String) :
    ((distinctNames constants seen).map (·.1)).Nodup ∧
    ∀ constant ∈ distinctNames constants seen, constant ∈ constants ∧ constant.1 ∉ seen := by
  induction constants generalizing seen with
  | nil => exact ⟨List.nodup_nil, nofun⟩
  | cons constant rest ih =>
      unfold distinctNames
      split
      · obtain ⟨distinct, kept⟩ := ih seen
        exact ⟨distinct, fun other member =>
          ⟨List.mem_cons_of_mem _ (kept other member).1, (kept other member).2⟩⟩
      · next unseen =>
          obtain ⟨distinct, kept⟩ := ih (constant.1 :: seen)
          constructor
          · rw [List.map_cons, List.nodup_cons]
            refine ⟨?_, distinct⟩
            intro member
            obtain ⟨other, inside, same⟩ := List.mem_map.mp member
            exact (kept other inside).2 (same ▸ List.mem_cons_self)
          · intro other member
            rcases List.mem_cons.mp member with rfl | inside
            · exact ⟨List.mem_cons_self, by simpa using unseen⟩
            · have := kept other inside
              exact ⟨List.mem_cons_of_mem _ this.1,
                fun earlier => this.2 (List.mem_cons_of_mem _ earlier)⟩

theorem distinctNames_keeps {constants : List Constant} (rest : List Constant) {seen : List String}
    (distinct : (constants.map (·.1)).Nodup) (unseen : ∀ constant ∈ constants, constant.1 ∉ seen) :
    constants <+: distinctNames (constants ++ rest) seen := by
  induction constants generalizing seen with
  | nil => exact List.nil_prefix
  | cons constant others ih =>
      rw [List.map_cons, List.nodup_cons] at distinct
      have new : seen.contains constant.1 = false := by
        simpa using unseen constant List.mem_cons_self
      rw [List.cons_append, distinctNames, new]
      refine (List.prefix_cons_inj constant).mpr (ih distinct.2 ?_)
      intro other inside earlier
      rcases List.mem_cons.mp earlier with same | earlier
      · exact distinct.1 (same ▸ List.mem_map_of_mem inside)
      · exact unseen other (List.mem_cons_of_mem _ inside) earlier

namespace Model

variable (model : Model) (declared : List Constant)

theorem assignment_isSome {name : String} {sort : ValueSort}
    (complete : (Value.default? sort).isSome = true) :
    (model.assignment name sort).isSome = true := by
  unfold assignment
  cases model.lookup (name, sort) with
  | some value => rfl
  | none => exact complete

theorem entries_names :
    (model.entries declared).map (·.1) =
      ((listed declared model).filter fun constant =>
        (model.assignment constant.1 constant.2).isSome).map (·.1) := by
  unfold entries
  induction listed declared model with
  | nil => rfl
  | cons constant rest ih =>
      cases value : model.assignment constant.1 constant.2 with
      | none => simpa [value] using ih
      | some v => simpa [value] using ih

theorem entries_nodup : ((model.entries declared).map (·.1)).Nodup := by
  rw [entries_names]
  exact (distinctNames_nodup _ []).1.sublist (List.filter_sublist.map _)

/-- What is listed is declared or defined by the model. -/
theorem mem_entries {name : String} (member : name ∈ (model.entries declared).map (·.1)) :
    name ∈ declared.map (·.1) ∨ name ∈ model.map (·.1.1) := by
  rw [entries_names] at member
  obtain ⟨constant, kept, rfl⟩ := List.mem_map.mp member
  have inside := ((distinctNames_nodup _ _).2 constant (List.mem_of_mem_filter kept)).1
  rcases List.mem_append.mp inside with first | second
  · exact Or.inl (List.mem_map_of_mem first)
  · obtain ⟨entry, defined, rfl⟩ := List.mem_map.mp (List.mem_mergeSort.mp second)
    exact Or.inr (List.mem_map.mpr ⟨entry, defined, rfl⟩)

variable {declared} (distinct : (declared.map (·.1)).Nodup)
include distinct

theorem declared_isPrefix_entries
    (complete : ∀ constant ∈ declared, (Value.default? constant.2).isSome = true) :
    declared.map (·.1) <+: (model.entries declared).map (·.1) := by
  obtain ⟨rest, split⟩ := distinctNames_keeps (byName (model.map (·.1))) distinct
    (fun _ _ => List.not_mem_nil)
  rw [entries_names, listed, ← split, List.filter_append, List.map_append, List.filter_eq_self.mpr]
  · exact List.prefix_append _ _
  · intro constant inside
    exact model.assignment_isSome (complete constant inside)

theorem mem_entries_of_declared {name : String} {sort : ValueSort}
    (inside : (name, sort) ∈ declared) {value : Value}
    (assigned : model.assignment name sort = some value) :
    (name, value) ∈ model.entries declared := by
  obtain ⟨rest, split⟩ := distinctNames_keeps (byName (model.map (·.1))) distinct
    (fun _ _ => List.not_mem_nil)
  refine List.mem_filterMap.mpr ⟨(name, sort), ?_, by rw [assigned]; rfl⟩
  rw [listed, ← split]
  exact List.mem_append_left _ inside

end Model

end Solver

namespace Analysis

open Solver (Assignment Model Oracle Term Value ValueSort)
open Source

/-! ## Sorts of bound constants -/

def IsTypeSort (sort : ValueSort) : Prop := ∃ type : SourceType, type.sort? = some sort

theorem IsTypeSort.cases {sort : ValueSort} (isTypeSort : IsTypeSort sort) :
    (Value.default? sort).isSome = true ∧ sort ≠ .roundingMode ∧
    ∀ format, sort = .float format → format.Stored := by
  obtain ⟨type, typed⟩ := isTypeSort
  unfold SourceType.sort? at typed
  cases kind : type.valueKind <;> rw [kind] at typed <;> cases typed
  all_goals
    refine ⟨rfl, nofun, ?_⟩
    rintro format ⟨⟩ <;> first | exact .inl rfl | exact .inr rfl

theorem Progress.Reaches.typeSorts {start final : Progress} (reached : start.Reaches final)
    (before : ∀ run, start.session = .opened run →
      ∀ entry ∈ run.bindings.bound, IsTypeSort entry.2.sort) :
    ∀ run, final.session = .opened run → ∀ entry ∈ run.bindings.bound, IsTypeSort entry.2.sort := by
  induction reached with
  | refl => exact before
  | tail earlier step ih =>
      intro run opened
      cases step with
      | report session earlier events quiet => exact ih run opened
      | mode run' earlier =>
          cases opened
          exact ih run' rfl
      | bind run' earlier key type name admits =>
          cases opened
          rcases run'.bindings.bind_cases key type name with
            ⟨term, -, result⟩ | ⟨-, -, result⟩ | ⟨sort, -, sorted, result⟩ <;> rw [result]
          · exact ih run' rfl
          · exact ih run' rfl
          · intro entry member
            rcases List.mem_append.mp member with member | member
            · exact ih run' rfl entry member
            · rw [List.mem_singleton.mp member]
              exact ⟨type, sorted⟩

theorem formulate_typeSorts [Limits] {root : Expr} {formula : Option TypedTerm} {run : Run}
    {news : List Event}
    (made : Build.outcome (formulate root) .start = (.ok formula, ⟨.opened run, news⟩)) :
    ∀ entry ∈ run.bindings.bound, IsTypeSort entry.2.sort := by
  have reached := formulate_follows root ⟨.start, []⟩
  rw [Build.after_ok (Build.outcome_ok.mp made)] at reached
  refine Progress.Reaches.typeSorts reached ?_ run rfl
  rintro _ ⟨⟩ entry member
  exact absurd member List.not_mem_nil

/-! ## The verdict -/

/-- A solver whose models satisfy their formulas. -/
def Models (oracle : Oracle) : Prop :=
  ∀ timeout formula model, oracle timeout formula = .sat model → model.satisfies formula = true

/-- The bound constants that occur in a formula, in the order of the bindings. -/
def Run.occurring (run : Run) (formula : Term) : List Solver.Constant :=
  run.bindings.declarations.filter fun constant => formula.freeNames.contains constant.1

theorem Run.Consistent.occurring_nodup {run : Run} (consistent : run.Consistent) (formula : Term) :
    ((run.occurring formula).map (·.1)).Nodup := by
  have names := (List.nodup_cons.mp consistent.names).2
  have bound : run.bindings.declarations.map (·.1) = run.bindings.bound.map (·.2.name) := by
    rw [consistent.declarations, List.map_map]
    rfl
  rw [← bound] at names
  exact names.sublist (List.filter_sublist.map _)

theorem Run.Consistent.mem_occurring {run : Run} (consistent : run.Consistent) {formula : Term}
    {constant : String × ValueSort} (inside : constant ∈ formula.constants)
    {entry : Key × TypedTerm} (member : entry ∈ run.bindings.bound)
    (same : constant = (entry.2.name, entry.2.sort)) :
    constant ∈ run.occurring formula := by
  have free : constant.1 ∈ formula.freeNames := Term.mem_freeNames.mpr ⟨constant.2, inside⟩
  refine List.mem_filter.mpr ⟨?_, by simpa using free⟩
  rw [consistent.declarations, same]
  exact List.mem_map_of_mem member

theorem check_satisfiable {oracle : Oracle} {options : Options} {formula : Term} {run : Run}
    {text : String}
    (satisfiable : (check oracle options formula run.bindings.declarations).verdict =
      .satisfiable text) :
    ∃ model, oracle options.timeout formula = .sat model ∧
      text = model.text (run.occurring formula) ∧
      (check oracle options formula run.bindings.declarations).witness =
        model.entries (run.occurring formula) := by
  unfold check at satisfiable ⊢
  cases answer : oracle options.timeout formula with
  | unsat | unknown reason =>
      rw [answer] at satisfiable
      cases satisfiable
  | sat model =>
      rw [answer] at satisfiable
      cases satisfiable
      exact ⟨model, rfl, rfl, rfl⟩

/-- The assignment that a list of names with texts stands for. -/
def readBack (lines : List (String × String)) (mode : RoundingMode) : Assignment
  | _, .roundingMode => some (.mode mode)
  | name, sort => (lines.lookup name).bind (Value.read? sort)

theorem readBack_eq {sort : ValueSort} (proper : sort ≠ .roundingMode)
    (lines : List (String × String)) (mode : RoundingMode) (name : String) :
    readBack lines mode name sort = (lines.lookup name).bind (Value.read? sort) := by
  cases sort <;> first | rfl | exact absurd rfl proper

def modeOf (assign : Assignment) : RoundingMode :=
  match assign roundingModeName .roundingMode with
  | some (.mode mode) => mode
  | _ => .nearestEven

/-- The lines of a model are read back as like values of the constants of a formula. -/
theorem readBack_like {run : Run} (consistent : run.Consistent)
    (typed : ∀ entry ∈ run.bindings.bound, IsTypeSort entry.2.sort) {formula : TypedTerm}
    (built : Built run formula) (model : Model) {constant : String × ValueSort}
    (inside : constant ∈ formula.term.constants) {v : Value}
    (evaluated : (Term.const constant.1 constant.2).eval model.assignment = some v) :
    ∃ v', (Term.const constant.1 constant.2).eval (readBack
      ((model.entries (run.occurring formula.term)).map fun entry => (entry.1, entry.2.text))
      (modeOf model.assignment)) = some v' ∧ v.Like v' := by
  obtain ⟨assigned, sorted⟩ := Option.filter_eq_some_iff.mp evaluated
  have sorted : v.sort = constant.2 := by simpa using sorted
  rcases built.known consistent constant inside with ⟨-, rfl⟩ | ⟨entry, member, rfl⟩
  · cases v with
    | mode mode =>
        refine ⟨.mode mode, Option.filter_eq_some_iff.mpr ⟨?_, by simp [Value.sort]⟩, .same _⟩
        rw [readBack, modeOf, assigned]
    | bool _ | bits _ _ | float _ _ => cases sorted
  · -- A bound constant is listed with the model's value, whose text is read back.
    obtain ⟨-, proper, stored⟩ := (typed entry member).cases
    have listed := model.mem_entries_of_declared (consistent.occurring_nodup formula.term)
      (consistent.mem_occurring inside member rfl) assigned
    have names := model.entries_nodup (run.occurring formula.term)
    have found : ((model.entries (run.occurring formula.term)).map fun entry =>
        (entry.1, entry.2.text)).lookup entry.2.name = some v.text := by
      apply lookup_of_nodup
      · rwa [List.map_map]
      · exact List.mem_map.mpr ⟨_, listed, rfl⟩
    have sorted : v.sort = entry.2.sort := sorted
    obtain ⟨back, read, like⟩ := v.read?_text (by rwa [sorted]) (by rwa [sorted])
    refine ⟨back, Option.filter_eq_some_iff.mpr ⟨?_, ?_⟩, like⟩
    · rw [readBack_eq proper, found, Option.bind_some, ← sorted, read]
    · exact decide_eq_true (like.sort.symm.trans sorted)

/-- The witness of a satisfiable verdict is faithful.  Its names are distinct; they
start with the bound constants of the formula in the order of the bindings, and go on
with nothing but what the model defines; every constant of the formula but the
rounding mode is bound; and the values, read back from their texts, make the formula
true under some rounding mode. -/
theorem witness_reads_back [Limits] (oracle : Oracle) (models : Models oracle) (options : Options)
    (node : Expr) (text : String)
    (satisfiable : (analyze oracle options node).outcome = .ok (some (.satisfiable text))) :
    ∃ formula run news model,
      Build.outcome (formulate node) .start = (.ok (some formula), ⟨.opened run, news⟩) ∧
      oracle options.timeout formula.term = .sat model ∧
      let witness := (analyze oracle options node).witness
      let names := witness.map (·.1)
      text = "\n".intercalate ((if witness.isEmpty then [] else
          "CONSTANTS:" :: witness.map Solver.entryText ++ [""]) ++ ["MODEL:", model.dump]) ∧
      names.Nodup ∧
      (run.occurring formula.term).map (·.1) <+: names ∧
      (∀ name ∈ names, name ∈ formula.term.freeNames ∨ name ∈ model.map (·.1.1)) ∧
      (∀ name ∈ formula.term.freeNames, name ≠ roundingModeName →
        name ∈ (run.occurring formula.term).map (·.1)) ∧
      ∃ mode, formula.term.eval (readBack (witness.map fun entry => (entry.1, entry.2.text)) mode) =
        some (.bool true) := by
  obtain ⟨formula, run, news, made, sorted, consistent, built, outcome, shown⟩ :=
    analyze_verdict satisfiable
  have typed := formulate_typeSorts made
  rw [outcome] at satisfiable
  obtain ⟨model, answered, rfl, witness⟩ :=
    check_satisfiable (Option.some.inj (Except.ok.inj satisfiable))
  rw [witness] at shown
  refine ⟨formula, run, news, model, made, answered, ?_⟩
  rw [shown]
  dsimp only
  refine ⟨?_, model.entries_nodup _, ?_, ?_, ?_, modeOf model.assignment, ?_⟩
  · rw [Solver.Model.text]
    simp only [List.isEmpty_map]
  · refine model.declared_isPrefix_entries (consistent.occurring_nodup _) ?_
    intro constant occurs
    have declared := (List.mem_filter.mp occurs).1
    rw [consistent.declarations] at declared
    obtain ⟨entry, member, rfl⟩ := List.mem_map.mp declared
    exact (typed entry member).cases.1
  · intro name member
    refine (model.mem_entries _ member).imp_left ?_
    intro declared
    obtain ⟨constant, occurs, rfl⟩ := List.mem_map.mp declared
    simpa using (List.mem_filter.mp occurs).2
  · intro name free proper
    obtain ⟨sort, inside⟩ := Term.mem_freeNames.mp free
    rcases built.known consistent (name, sort) inside with ⟨-, same⟩ | ⟨entry, member, same⟩
    · exact absurd (Prod.mk.inj same).1 proper
    · exact List.mem_map_of_mem (consistent.mem_occurring inside member same)
  · have holds : formula.term.eval model.assignment = some (.bool true) :=
      beq_iff_eq.mp (models _ _ _ answered)
    obtain ⟨x, evaluated, like⟩ := built.like consistent
      (fun constant inside v value => readBack_like consistent typed built model inside value) holds
    rw [evaluated, ← like.eq nofun]

/-! ## A constant that is not listed -/

def trying (model : Model) : Oracle := fun _ formula =>
  if model.satisfies formula then .sat model else .unknown "timeout"

/-- The tree of `((x + b) > x) && ((z + z) > z)`, where `b` is too narrow for the sum. -/
def narrowOperand : Expr :=
  let x := Expr.reference (some ⟨"x", .localVariable, .int, 1⟩) .int "x" none
  let b := Expr.reference (some ⟨"b", .localVariable, .byte, 2⟩) .byte "b" none
  let z := Expr.reference (some ⟨"z", .localVariable, .float, 3⟩) .float "z" none
  .binary (.ofTag (.connective .andAlso))
    (.binary (.ofTag (.comparison .greater .int))
      (.binary (.ofTag (.arithmetic .plus .int)) x b .int "x + b" none) x .bool "(x + b) > x" none)
    (.binary (.ofTag (.floatComparison .greater .float))
      (.binary (.ofTag (.floatArithmetic .plus .float)) z z .float "z + z" none) z .bool
        "(z + z) > z" none)
    .bool "((x + b) > x) && ((z + z) > z)" none

/-- A model of its formula that gives `z` the 32-bit number next to one tenth. -/
def tenthModel : Model :=
  [(("roundingmode", .roundingMode), .mode .towardZero),
    (("variable from expr: 'x + b'", .bits 32), .bits 32 9), (("x", .bits 32), .bits 32 5),
    (("z", .float .single), .float .single (BitVec.ofNat 32 1036831949))]

theorem trying_models (model : Model) : Models (trying model) := by
  intro timeout formula other answered
  unfold trying at answered
  split at answered
  · next satisfied =>
      cases answered
      exact satisfied
  · cases answered

theorem narrowOperand_occurring {formula : TypedTerm} {run : Run} {news : List Event}
    (made : Build.outcome (formulate narrowOperand) .start =
      (.ok (some formula), ⟨.opened run, news⟩)) :
    (run.occurring formula.term).map (·.1) = ["x", "variable from expr: 'x + b'", "z"] ∧
    "b" ∉ formula.term.freeNames := by
  cases made
  exact ⟨by decide +kernel, by decide +kernel⟩

/-- The narrow operand is bound before the sum turns out to have no formula; it is
not listed. -/
theorem witness_reads_back_narrow_operand :
    Models (trying tenthModel) ∧
    let witness := (analyze (trying tenthModel) {} narrowOperand).witness
    ["x", "variable from expr: 'x + b'", "z"] <+: witness.map (·.1) ∧
    "b" ∉ witness.map (·.1) ∧
    ∃ formula run news mode,
      Build.outcome (formulate narrowOperand) .start = (.ok (some formula), ⟨.opened run, news⟩) ∧
      formula.term.eval (readBack (witness.map fun entry => (entry.1, entry.2.text)) mode) =
        some (.bool true) := by
  refine ⟨trying_models tenthModel, ?_⟩
  obtain ⟨formula, run, news, made⟩ : ∃ formula run news,
      Build.outcome (formulate narrowOperand) .start =
        (.ok (some formula), ⟨.opened run, news⟩) := ⟨_, _, _, rfl⟩
  have outcome : (analyze (trying tenthModel) {} narrowOperand).outcome =
      .ok (some (.satisfiable (tenthModel.text (run.occurring formula.term)))) := by
    cases made
    rfl
  obtain ⟨formula, run, news, model, made, answered, -, -, first, known, -, mode, holds⟩ :=
    witness_reads_back (trying tenthModel) (trying_models tenthModel) {} narrowOperand _ outcome
  obtain ⟨occurring, unused⟩ := narrowOperand_occurring made
  rw [occurring] at first
  refine ⟨first, ?_, formula, run, news, mode, made, holds⟩
  intro listed
  unfold trying at answered
  split at answered
  · cases answered
    exact (known "b" listed).elim unused (by decide)
  · cases answered

end Analysis

end CondSat
