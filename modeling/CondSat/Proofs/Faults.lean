import CondSat.Proofs.DocumentNodes

/-! # How decoding ends

A document is decoded to a tree, or the fault is reported with its place.  There are two
other ways out: a node may have a member that cannot serve as what it is needed for, and
a document may be nested too deeply.  Each step of the decoder fails only with an excuse
that is read off the document alone. -/
set_option autoImplicit false
namespace CondSat.Source

/-! ## Excuses -/

/-- A fault that has its reason: one that is located needs no other. -/
inductive DecodeError.Excused (misfit deep : Prop) : DecodeError → Prop
  | format (place : Place) (fault : FormatFault) : Excused misfit deep (.format place fault)
  | wrongKind (reason : misfit) : Excused misfit deep .wrongKind
  | tooDeep (reason : deep) : Excused misfit deep .tooDeep

theorem DecodeError.Excused.mono {misfit deep misfit' deep' : Prop} {fault : DecodeError}
    (excused : fault.Excused misfit deep) (misfits : misfit → misfit') (deeper : deep → deep') :
    fault.Excused misfit' deep' := by
  cases excused with
  | format place fault => exact .format place fault
  | wrongKind reason => exact .wrongKind (misfits reason)
  | tooDeep reason => exact .tooDeep (deeper reason)

def FailsOnly {α : Type} (allowed : DecodeError → Prop) (answer : Except DecodeError α) : Prop :=
  ∀ fault, answer = .error fault → allowed fault

def Decoder.FailsOnly {α : Type} (allowed : DecodeError → Prop) (step : Decoder α) : Prop :=
  ∀ start fault final, step start = .error fault final → allowed fault

def Excusable {α : Type} (misfit deep : Prop) (answer : Except DecodeError α) : Prop :=
  FailsOnly (DecodeError.Excused misfit deep) answer

def Decoder.Excusable {α : Type} (misfit deep : Prop) (step : Decoder α) : Prop :=
  step.FailsOnly (DecodeError.Excused misfit deep)

section

variable {α β : Type} {misfit deep misfit' deep' : Prop} {allowed : DecodeError → Prop}

theorem failsOnly_ok (value : α) : FailsOnly allowed (.ok value) := by
  rintro fault ⟨⟩

theorem failsOnly_error {fault : DecodeError} (allows : allowed fault) :
    FailsOnly allowed (.error fault : Except DecodeError α) := by
  rintro _ ⟨⟩
  exact allows

theorem excusable_format (place : Place) (fault : FormatFault) :
    Excusable misfit deep (.error (.format place fault) : Except DecodeError α) :=
  failsOnly_error (.format place fault)

theorem Excusable.mono {answer : Except DecodeError α} (excusable : Excusable misfit deep answer)
    (misfits : misfit → misfit') (deeper : deep → deep') : Excusable misfit' deep' answer :=
  fun fault failed => (excusable fault failed).mono misfits deeper

theorem failsOnly_bind {answer : Except DecodeError α} {next : α → Except DecodeError β}
    (first : FailsOnly allowed answer)
    (rest : ∀ value, answer = .ok value → FailsOnly allowed (next value)) :
    FailsOnly allowed (answer >>= next) := by
  intro fault failed
  cases answered : answer with
  | ok value => exact rest value answered fault (by rw [answered] at failed; exact failed)
  | error early =>
      rw [answered] at failed
      cases failed
      exact first _ answered

namespace Decoder

theorem failsOnly_pure (value : α) : (pure value : Decoder α).FailsOnly allowed := by
  rintro start fault final ⟨⟩

theorem failsOnly_lift {answer : Except DecodeError α} (fails : Source.FailsOnly allowed answer) :
    (lift answer).FailsOnly allowed := by
  intro start fault final failed
  cases answer with
  | ok value => cases failed
  | error early =>
      cases failed
      exact fails _ rfl

theorem failsOnly_bind {step : Decoder α} {next : α → Decoder β} (first : step.FailsOnly allowed)
    (rest : ∀ value, (∃ start middle, step start = .ok value middle) →
      (next value).FailsOnly allowed) : (step >>= next).FailsOnly allowed := by
  intro start fault final failed
  rw [Stateful.bind_apply] at failed
  cases ran : step start with
  | ok value middle =>
      rw [ran] at failed
      exact rest value ⟨start, middle, ran⟩ _ _ _ failed
  | error early middle =>
      rw [ran] at failed
      cases failed
      exact first _ _ _ ran

theorem failsOnly_lift_bind {answer : Except DecodeError α} {next : α → Decoder β}
    (first : Source.FailsOnly allowed answer)
    (rest : ∀ value, answer = .ok value → (next value).FailsOnly allowed) :
    (lift answer >>= next).FailsOnly allowed := by
  refine failsOnly_bind (failsOnly_lift first) ?_
  rintro value ⟨start, middle, ran⟩
  exact rest value (lift_ok.mp ran).1

end Decoder

end

/-! ## Parts without state -/

section

variable {misfit deep : Prop}

theorem require_excusable (key : String) (place : Place) (data : Json) :
    Excusable misfit deep (require key place data) := by
  unfold require
  split
  · exact failsOnly_ok _
  · exact excusable_format _ _

theorem atPlace_excusable {α : Type} (place : Place) (answer : Except TypeFault α) :
    Excusable misfit deep (atPlace place answer) := by
  cases answer with
  | ok value => exact failsOnly_ok value
  | error fault => exact excusable_format _ _

theorem kindCode_excusable (place : Place) (type : SourceType) (data : Json) :
    Excusable misfit deep (kindCode place type data) := by
  unfold kindCode
  split
  · unfold decodeKind
    split
    · split
      · exact failsOnly_ok _
      · exact excusable_format _ _
    · exact excusable_format _ _
  · exact failsOnly_ok _

theorem nodeConstant_excusable (place : Place) (type : SourceType) (data : Json) :
    Excusable misfit deep (nodeConstant place type data) := by
  unfold nodeConstant decodeConstant
  split
  · exact failsOnly_ok _
  · exact failsOnly_ok _
  · split
    · exact excusable_format _ _
    · exact failsOnly_bind (kindCode_excusable _ _ _) fun _ _ => failsOnly_ok _

theorem decodeElementKind_excusable (place : Place) (data : Json) :
    Excusable misfit deep (decodeElementKind place data) := by
  unfold decodeElementKind
  split
  · exact failsOnly_ok _
  · split
    · split
      · exact failsOnly_ok _
      · exact excusable_format _ _
    · exact excusable_format _ _

theorem decodeShape_excusable (place : Place) (data : Json) :
    Excusable misfit deep (decodeShape place data) := by
  unfold decodeShape
  split
  · exact failsOnly_ok _
  · split
    · exact failsOnly_ok _
    · exact excusable_format _ _
  · exact excusable_format _ _

end

/-! ## Types and operators -/

/-- A type takes one level for itself and one for each that is nested in it. -/
theorem decodeType_excusable (budget : Nat) (place : Place) (data : Json) :
    Excusable False (budget ≤ data.nesting) (decodeType budget place data) := by
  induction budget generalizing place data with
  | zero =>
      rintro _ ⟨⟩
      exact .tooDeep (Nat.zero_le _)
  | succ budget ih =>
      cases data with
      | str name =>
          rw [decodeType]
          split
          · exact failsOnly_ok _
          · split
            · exact failsOnly_ok _
            · exact excusable_format _ _
      | obj members =>
          rw [decodeType]
          refine failsOnly_bind (require_excusable _ _ _) fun kind required => ?_
          have kindBelow := Json.nesting_lt_of_get? (require_ok.mp required)
          split
          · refine failsOnly_bind ?_ fun underlying _ => ?_
            · refine (ih _ _).mono id fun deep => ?_
              cases given : (Json.obj members).get? "underlying" with
              | some value =>
                  have := Json.nesting_lt_of_get? given
                  rw [given, Option.getD_some] at deep
                  omega
              | none =>
                  rw [given, Option.getD_none] at deep
                  have plain : (Json.str "int").nesting = 0 := rfl
                  omega
            · exact failsOnly_bind (require_excusable _ _ _) fun _ _ => atPlace_excusable _ _
          · split
            · exact atPlace_excusable _ _
            · exact (ih _ _).mono id fun deep => by omega
      | _ => exact excusable_format _ _

theorem decodeType_member_excusable {budget : Nat} {place : Place} {data type : Json} {key : String}
    (found : data.get? key = some type) :
    Excusable False (budget < data.nesting) (decodeType budget place type) := by
  refine (decodeType_excusable budget place type).mono id fun deep => ?_
  have := Json.nesting_lt_of_get? found
  omega

theorem nodeType_excusable (budget : Nat) (place : Place) (data : Json) :
    Excusable False (budget < data.nesting) (nodeType budget place data) :=
  failsOnly_bind (require_excusable _ _ _) fun _ required =>
    decodeType_member_excusable (require_ok.mp required)

theorem operatorResult_excusable (budget : Nat) (place : Place) (name data : Json) :
    Excusable False (budget < data.nesting) (operatorResult budget place name data) := by
  unfold operatorResult
  split
  · next found => exact decodeType_member_excusable found
  · exact failsOnly_ok _
  · exact excusable_format _ _

theorem decodeOperator_excusable (budget : Nat) (place : Place) (data : Json) :
    Excusable False (budget < data.nesting) (decodeOperator budget place data) := by
  unfold decodeOperator
  split
  · split
    · exact failsOnly_ok _
    · exact excusable_format _ _
  · exact excusable_format _ _
  · split
    · refine failsOnly_bind (require_excusable _ _ _) fun name _ => ?_
      exact failsOnly_bind (operatorResult_excusable _ _ _ _) fun _ _ => failsOnly_ok _
    · exact failsOnly_ok _
    · exact failsOnly_ok _
    · exact excusable_format _ _
  · exact excusable_format _ _

theorem nodeOperator_excusable (budget : Nat) (place : Place) (data : Json) :
    Excusable False (budget < data.nesting) (nodeOperator budget place data) := by
  refine failsOnly_bind (require_excusable _ _ _) fun operator required => ?_
  refine (decodeOperator_excusable _ _ _).mono id fun deep => ?_
  have := Json.nesting_lt_of_get? (require_ok.mp required)
  omega

theorem operatorNodeType_excusable (budget : Nat) (place : Place) (resolution : Resolution)
    (data : Json) :
    Excusable False (budget < data.nesting) (operatorNodeType budget place resolution data) := by
  unfold operatorNodeType
  split
  · next found => exact decodeType_member_excusable found
  · exact failsOnly_ok _
  · exact excusable_format _ _

theorem decodeLiteral_excusable (budget : Nat) (place : Place) (data : Json) :
    Excusable False (budget < data.nesting) (decodeLiteral budget place data) := by
  refine failsOnly_bind (require_excusable _ _ _) fun value required => ?_
  refine failsOnly_bind ?_ fun type _ =>
    failsOnly_bind (kindCode_excusable _ _ _) fun _ _ => failsOnly_ok _
  have below := Json.nesting_lt_of_get? (require_ok.mp required)
  unfold literalNodeType
  split
  · next found => exact decodeType_member_excusable found
  · rintro _ ⟨⟩
    exact .tooDeep (by omega)
  · split
    · exact failsOnly_ok _
    · exact excusable_format _ _

/-! ## Nodes -/

/-- How many levels the decoder has to have for a document. -/
def levelsFor (data : Json) : Nat := if data.nesting = 0 then 3 else 2 * data.nesting + 4

theorem lt_levelsFor {budget : Nat} {data : Json} (deep : budget < data.nesting) :
    budget + 3 < levelsFor data := by
  rw [levelsFor, if_neg (by omega)]
  omega

theorem hasMisfit_of_isMisfit {data : Json} (misfit : isMisfit data = true) : HasMisfit data :=
  ⟨[], misfit⟩

/-- What a decoder for nodes owes to the levels it has. -/
def ExcusesNodes (budget : Nat) (decode : Place → Json → Decoder Expr) : Prop :=
  ∀ place data, (decode place data).Excusable (HasMisfit data) (budget < levelsFor data)

theorem decodeDeclaration_excusable {deep : Prop} (place : Place) (type : SourceType) {data : Json}
    (reference : isReference data = true) :
    (decodeDeclaration place type data).Excusable (HasMisfit data) deep := by
  unfold decodeDeclaration
  refine Decoder.failsOnly_lift_bind (require_excusable _ _ _) fun name required => ?_
  refine Decoder.failsOnly_lift_bind (decodeElementKind_excusable _ _) fun kind _ => ?_
  dsimp only
  split
  · intro start fault final failed
    rw [declare_apply] at failed
    split at failed
    · split at failed
      · cases failed
      · cases failed
        exact .format _ _
    · cases failed
  · next useless =>
      rintro start _ final ⟨⟩
      refine .wrongKind (hasMisfit_of_isMisfit ?_)
      rw [isMisfit, reference, require_ok.mp required]
      cases given : data.get? "id" with
      | some value =>
          rw [given] at useless
          simpa using Or.inl useless
      | none =>
          rw [given] at useless
          simpa using Or.inl useless

theorem decodeReference_excusable {budget : Nat} {place : Place} {data : Json}
    (named : data.get? "node" = some (.str "variable")) :
    (decodeReference budget place data).Excusable (HasMisfit data)
      (budget + 3 < levelsFor data) := by
  refine Decoder.failsOnly_lift_bind
    ((nodeType_excusable _ _ _).mono False.elim lt_levelsFor) fun type _ => ?_
  refine Decoder.failsOnly_lift_bind (nodeConstant_excusable _ _ _) fun constant _ => ?_
  split
  · next resolved =>
      have reference : isReference data = true := by simp [isReference, named, resolved]
      exact Decoder.failsOnly_bind (decodeDeclaration_excusable _ _ reference)
        fun _ _ => Decoder.failsOnly_pure _
  · exact Decoder.failsOnly_lift_bind (require_excusable _ _ _) fun _ _ => Decoder.failsOnly_pure _

theorem decodePart_excusable {budget : Nat} {decode : Place → Json → Decoder Expr}
    (excuses : ExcusesNodes (budget + 1) decode) {step : Step} {key name : String}
    {place : Place} {data : Json} (named : data.get? "node" = some (.str name))
    (holder : step.holder? = some name) (follows : step.follow? data = data.get? key) :
    (decodePart decode key step place data).Excusable (HasMisfit data)
      (budget + 3 < levelsFor data) := by
  refine Decoder.failsOnly_lift_bind (require_excusable _ _ _) fun part required => ?_
  have held := require_ok.mp required
  have found : nodePart? step data = some part :=
    (nodePart?_eq_follow? holder named).trans (follows.trans held)
  intro start fault final failed
  refine (excuses _ _ start fault final failed).mono (HasMisfit.ofPart found) fun deep => ?_
  have below := Json.nesting_lt_of_get? held
  rw [levelsFor, if_neg (by omega)]
  rw [levelsFor] at deep
  split at deep <;> omega

theorem decodeUnary_excusable {budget : Nat} {decode : Place → Json → Decoder Expr}
    (excuses : ExcusesNodes (budget + 1) decode) {place : Place} {data : Json}
    (named : data.get? "node" = some (.str "unary")) :
    (decodeUnary decode budget place data).Excusable (HasMisfit data)
      (budget + 3 < levelsFor data) := by
  refine Decoder.failsOnly_lift_bind
    ((nodeOperator_excusable _ _ _).mono False.elim lt_levelsFor) fun operator _ => ?_
  refine Decoder.failsOnly_bind (decodePart_excusable excuses named rfl rfl) fun operand _ => ?_
  refine Decoder.failsOnly_lift_bind
    ((operatorNodeType_excusable _ _ _ _).mono False.elim lt_levelsFor) fun type _ => ?_
  exact Decoder.failsOnly_lift_bind (nodeConstant_excusable _ _ _)
    fun _ _ => Decoder.failsOnly_pure _

theorem decodeBinary_excusable {budget : Nat} {decode : Place → Json → Decoder Expr}
    (excuses : ExcusesNodes (budget + 1) decode) {place : Place} {data : Json}
    (named : data.get? "node" = some (.str "binary")) :
    (decodeBinary decode budget place data).Excusable (HasMisfit data)
      (budget + 3 < levelsFor data) := by
  refine Decoder.failsOnly_lift_bind
    ((nodeOperator_excusable _ _ _).mono False.elim lt_levelsFor) fun operator _ => ?_
  refine Decoder.failsOnly_bind (decodePart_excusable excuses named rfl rfl) fun left _ => ?_
  refine Decoder.failsOnly_bind (decodePart_excusable excuses named rfl rfl) fun right _ => ?_
  refine Decoder.failsOnly_lift_bind
    ((operatorNodeType_excusable _ _ _ _).mono False.elim lt_levelsFor) fun type _ => ?_
  exact Decoder.failsOnly_lift_bind (nodeConstant_excusable _ _ _)
    fun _ _ => Decoder.failsOnly_pure _

theorem childrenOf_excusable {deep : Prop} {data : Json}
    (named : data.get? "node" = some (.str "unsupported")) :
    Excusable (HasMisfit data) deep (childrenOf data) := by
  unfold childrenOf
  split
  · exact failsOnly_ok _
  · exact failsOnly_ok _
  · exact failsOnly_ok _
  · exact failsOnly_ok _
  · exact failsOnly_ok _
  · next value noItems noText noMarks noMembers stated =>
      rintro _ ⟨⟩
      refine .wrongKind (hasMisfit_of_isMisfit ?_)
      rw [isMisfit, named, stated]
      cases value with
      | arr items => exact absurd rfl (noItems items)
      | str text => exact absurd rfl (noText text)
      | torn text => exact absurd rfl (noMarks text)
      | obj members => exact absurd rfl (noMembers members)
      | _ => simp

/-- The children of a node lie one list deeper than its other members, unless they are texts. -/
theorem nesting_of_childrenOf {data item : Json} {items : List Json}
    (children : childrenOf data = .ok items) (member : item ∈ items) :
    item.nesting = 0 ∧ 0 < data.nesting ∨ item.nesting + 1 < data.nesting := by
  unfold childrenOf at children
  split at children
  · cases children
    cases member
  · next stated =>
      cases children
      have below := Json.nesting_lt_of_get? stated
      have inside := Json.nesting_lt_of_mem member
      exact Or.inr (by omega)
  · next stated =>
      cases children
      obtain ⟨c, -, rfl⟩ := List.mem_map.mp member
      exact Or.inl ⟨rfl, Nat.zero_lt_of_lt (Json.nesting_lt_of_get? stated)⟩
  · next stated =>
      cases children
      obtain ⟨mark, -, rfl⟩ := List.mem_map.mp member
      refine Or.inl ⟨?_, Nat.zero_lt_of_lt (Json.nesting_lt_of_get? stated)⟩
      unfold Json.ofMarks
      split <;> rfl
  · next stated =>
      cases children
      obtain ⟨entry, -, rfl⟩ := List.mem_map.mp member
      exact Or.inl ⟨rfl, Nat.zero_lt_of_lt (Json.nesting_lt_of_get? stated)⟩
  · cases children

theorem not_hasMisfit_of_bare {data : Json} (bare : ∀ key, data.get? key = none) :
    ¬ HasMisfit data := by
  rintro ⟨steps, here⟩
  cases steps with
  | nil => simp [nodeAt?, isMisfit, isReference, bare] at here
  | cons step rest =>
      have partless : nodePart? step data = none := by
        unfold nodePart?
        split <;> simp [bare]
      rw [nodeAt?, partless] at here
      cases here

theorem decodeChildren_excusable {misfit deep : Prop} {decode : Place → Json → Decoder Expr}
    {items : List Json} :
    (∀ item ∈ items, ∀ place, (decode place item).Excusable misfit deep) →
      ∀ (place : Place) (index : Nat),
        (decodeChildren decode place index items).Excusable misfit deep := by
  induction items with
  | nil => exact fun _ _ _ => Decoder.failsOnly_pure _
  | cons item rest ih =>
      intro each place index
      refine Decoder.failsOnly_bind (each item List.mem_cons_self _) fun node _ => ?_
      refine Decoder.failsOnly_bind ?_ fun nodes _ => Decoder.failsOnly_pure _
      exact ih (fun other member => each other (List.mem_cons_of_mem _ member)) _ _

theorem decodeUnmodelled_excusable {budget : Nat} {decode : Place → Json → Decoder Expr}
    (excuses : ExcusesNodes budget decode) {place : Place} {data : Json}
    (named : data.get? "node" = some (.str "unsupported")) :
    (decodeUnmodelled decode budget place data).Excusable (HasMisfit data)
      (budget + 3 < levelsFor data) := by
  refine Decoder.failsOnly_lift_bind (decodeShape_excusable _ _) fun shape _ => ?_
  refine Decoder.failsOnly_lift_bind
    ((nodeType_excusable _ _ _).mono False.elim lt_levelsFor) fun type _ => ?_
  refine Decoder.failsOnly_lift_bind (childrenOf_excusable named) fun items children => ?_
  refine Decoder.failsOnly_bind (decodeChildren_excusable ?_ _ _) fun nodes _ => ?_
  · intro item member itemPlace start fault final failed
    refine (excuses _ _ start fault final failed).mono ?_ fun deep => ?_
    · intro misfit
      obtain ⟨index, found⟩ := List.mem_iff_getElem?.mp member
      -- letters of a text and names of members are taken for children too, and fit
      rcases follow?_child children found with followed | bare
      · exact misfit.ofPart ((nodePart?_eq_follow? rfl named).trans followed)
      · exact absurd misfit (not_hasMisfit_of_bare bare)
    · have below := nesting_of_childrenOf children member
      rw [levelsFor, if_neg (by omega)]
      rw [levelsFor] at deep
      split at deep <;> omega
  · refine Decoder.failsOnly_lift_bind (nodeConstant_excusable _ _ _) fun constant _ => ?_
    exact Decoder.failsOnly_lift_bind (require_excusable _ _ _) fun _ _ => Decoder.failsOnly_pure _

/-- Decoding a node fails with a located fault, over a misfit in it, or for want of levels. -/
theorem decodeNode_excusable (budget : Nat) : ExcusesNodes budget (decodeNode budget) := by
  induction budget using Nat.strongRecOn with
  | ind budget ih =>
      intro place data
      match budget, ih with
      | 0, _ | 1, _ | 2, _ =>
          rintro start _ final ⟨⟩
          refine .tooDeep ?_
          rw [levelsFor]
          split <;> omega
      | budget + 3, ih =>
          cases data with
          | obj members =>
              rw [decodeNode]
              refine Decoder.failsOnly_lift_bind (require_excusable _ _ _) fun shown required => ?_
              have named := require_ok.mp required
              split
              · exact Decoder.failsOnly_lift
                  ((decodeLiteral_excusable _ _ _).mono False.elim lt_levelsFor)
              · exact decodeReference_excusable named
              · exact decodeUnary_excusable (ih _ (by omega)) named
              · exact decodeBinary_excusable (ih _ (by omega)) named
              · exact decodeUnmodelled_excusable (ih _ (by omega)) named
              · rintro start _ final ⟨⟩
                exact .format _ _
          | _ =>
              rintro start _ final ⟨⟩
              exact .format _ _

/-! ## Whole documents -/

namespace Expr

theorem ofJson_excused [Limits] {data : Json} {next later : Nat} {fault : DecodeError}
    (failed : ofJson data next = (.error fault, later)) :
    fault.Excused (HasMisfit data) (Limits.decoding < levelsFor data) := by
  unfold ofJson at failed
  split at failed
  · cases failed
  · next run =>
      cases failed
      exact decodeNode_excusable _ _ _ _ _ _ run

def variableDocument (name : String) (more : List (String × Json)) : Json :=
  .obj ([("node", .str "variable"), ("name", .str name), ("type", .str "bool")] ++ more)

end Expr

end CondSat.Source
