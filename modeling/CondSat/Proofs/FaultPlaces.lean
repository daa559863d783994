import CondSat.Proofs.Faults

/-! # Where faults point

The place of a fault is a path into the document, and what the fault says is true of the
value there.  Steps lead from a node to its operands, children, type, operator and
constant; from a type they lead to the type that carries an enumeration.

One thing takes no step: a type may be stated by the object under its `kind`, and a fault
in there has the place of the outer type.  When such an object is an enumeration, the
step to what carries it is taken from the outer type, which has no such member.  This is
the only way in which a path can miss the document. -/
set_option autoImplicit false
namespace CondSat

/-! ## Children that are lists -/

namespace Json

def isList : Json → Bool
  | .arr _ => true
  | _ => false

def isText : Json → Bool
  | .str _ | .torn _ => true
  | _ => false

mutual

def listsChildren : Json → Bool
  | .arr items => listsChildrenItems items
  | .obj members => listsChildrenMembers members
  | _ => true

def listsChildrenItems : List Json → Bool
  | [] => true
  | item :: rest => listsChildren item && listsChildrenItems rest

def listsChildrenMembers : List (String × Json) → Bool
  | [] => true
  | (key, value) :: rest =>
    (key != "children" || value.isList) && listsChildren value && listsChildrenMembers rest

end

variable {data value item : Json} {items : List Json} {key : String}

theorem listsChildren_of_mem (lists : (arr items).listsChildren = true) (member : item ∈ items) :
    item.listsChildren = true := by
  rw [listsChildren] at lists
  induction items with
  | nil => cases member
  | cons first rest ih =>
      rw [listsChildrenItems, Bool.and_eq_true] at lists
      rcases List.mem_cons.mp member with rfl | later
      · exact lists.1
      · exact ih lists.2 later

theorem listsChildren_of_get? (lists : data.listsChildren = true)
    (found : data.get? key = some value) :
    value.listsChildren = true ∧ (key = "children" → value.isList = true) := by
  cases data with
  | obj members =>
      rw [listsChildren] at lists
      rw [get?] at found
      induction members with
      | nil => cases found
      | cons first rest ih =>
          obtain ⟨name, stated⟩ := first
          simp only [listsChildrenMembers, Bool.and_eq_true, Bool.or_eq_true, bne_iff_ne] at lists
          rw [List.lookup_cons] at found
          split at found
          · next same =>
              cases found
              refine ⟨lists.1.2, fun children => lists.1.1.resolve_left fun other => other ?_⟩
              rw [← beq_iff_eq.mp same, children]
          · exact ih lists.2 found
  | _ => cases found

end Json

namespace Source

/-! ## What a fault says -/

def Shows (part : Json) (key text : String) : Prop :=
  ∃ value, part.get? key = some value ∧ value.display = text

def FormatFault.Concerns (part : Json) : FormatFault → Prop
  | expectedObject => ∀ members, part ≠ .obj members
  | missing key => part.get? key = none
  | unknownType name | unknownOperator name => part.isText = true ∧ part.display = name
  | expectedType | expectedOperator => part.isText = false ∧ ∀ members, part ≠ .obj members
  | badEnumeration _ => part.get? "kind" = some (.str "enum")
  | unknownKindCode shown => Shows part "type_code" shown
  | unknownNode shown => Shows part "node" shown
  | constantWithoutValue => part.get? "value" = none
  | noLiteralType fault => ∃ value, part.get? "value" = some value ∧ literalType value = .error fault
  | unknownElementKind shown => Shows part "kind" shown
  | conflictingUse _ first name type =>
    part.get? "name" = some name ∧ ¬ (first.type = type ∧ first.name = name)
  | unknownStatus shown => Shows part "status" shown
  | operatorWithoutReturnType shown => Shows part "name" shown ∧ part.get? "return_type" = none
  | unresolvedWithoutType => part.get? "type" = none
  | unknownShape shown => Shows part "shape" shown

/-! ## Paths -/

namespace Place

def extend (place : Place) (steps : List Step) : Place := ⟨place.root, place.steps ++ steps⟩

theorem extend_push (place : Place) (step : Step) (steps : List Step) :
    (place.push step).extend steps = place.extend (step :: steps) := by
  simp [extend, push]

theorem follow?_append (first second : List Step) (data : Json) :
    follow? (first ++ second) data = (follow? first data).bind (follow? second) := by
  induction first generalizing data with
  | nil => rfl
  | cons step rest ih =>
      rw [List.cons_append, follow?, follow?]
      cases step.follow? data with
      | none => rfl
      | some value => exact ih value

end Place

/-- The values that a type is stated by: its own, those of the types under `kind`, for
which no step is taken, and those of the types that carry enumerations. -/
inductive TypePart : List Step → Json → Json → Prop
  | here (type : Json) : TypePart [] type type
  | kind {steps : List Step} {type inner part : Json} (stated : type.get? "kind" = some inner)
      (rest : TypePart steps inner part) : TypePart steps type part
  | underlying {steps : List Step} {type carrier part : Json}
      (stated : type.get? "underlying" = some carrier) (rest : TypePart steps carrier part) :
      TypePart (.underlying :: steps) type part

/-- Whether steps lead through the document to a value, into types at the end. -/
def LeadsTo (steps : List Step) (data part : Json) : Prop :=
  ∃ before within stated, steps = before ++ within ∧ Place.follow? before data = some stated ∧
    TypePart within stated part

/-- Whether a path steps from a type that is stated by an object to what carries it. -/
def PassesKindObject (steps : List Step) (data : Json) : Prop :=
  ∃ before after type members, steps = before ++ .underlying :: after ∧
    Place.follow? before data = some type ∧ type.get? "kind" = some (.obj members)

/-- Only types are entered this way, and only what carries them takes a step. -/
theorem TypePart.step {step : Step} {steps : List Step} {type part : Json}
    (leads : TypePart (step :: steps) type part) :
    step = .underlying ∧ ∃ members, type = .obj members := by
  generalize whole : step :: steps = path at leads
  induction leads with
  | here type => cases whole
  | @kind _ type inner _ stated rest ih =>
      refine ⟨(ih whole).1, ?_⟩
      cases type with
      | obj members => exact ⟨members, rfl⟩
      | _ => cases stated
  | @underlying _ type _ _ stated rest ih =>
      cases whole
      refine ⟨rfl, ?_⟩
      cases type with
      | obj members => exact ⟨members, rfl⟩
      | _ => cases stated

theorem PassesKindObject.below {step : Step} {steps : List Step} {data part : Json}
    (follows : step.follow? data = some part) (passes : PassesKindObject steps part) :
    PassesKindObject (step :: steps) data := by
  obtain ⟨before, after, type, members, rfl, found, stated⟩ := passes
  refine ⟨step :: before, after, type, members, rfl, ?_, stated⟩
  rw [Place.follow?, follows]
  exact found

theorem TypePart.follow? {steps : List Step} {type part : Json} (leads : TypePart steps type part) :
    (∃ value, Place.follow? steps type = some value) ∨ PassesKindObject steps type := by
  induction leads with
  | here type => exact Or.inl ⟨type, rfl⟩
  | @kind steps type inner part stated rest ih =>
      cases steps with
      | nil => exact Or.inl ⟨type, rfl⟩
      | cons step later =>
          obtain ⟨rfl, members, rfl⟩ := rest.step
          exact Or.inr ⟨[], later, type, members, rfl, rfl, stated⟩
  | @underlying steps type carrier part stated rest ih =>
      have follows : Step.underlying.follow? type = some carrier := stated
      rcases ih with ⟨value, found⟩ | passes
      · refine Or.inl ⟨value, ?_⟩
        rw [Place.follow?, follows]
        exact found
      · exact Or.inr (passes.below follows)

/-- Steps that lead to a value can be followed, unless they pass an object under a kind. -/
theorem LeadsTo.follow? {steps : List Step} {data part : Json} (leads : LeadsTo steps data part) :
    (∃ value, Place.follow? steps data = some value) ∨ PassesKindObject steps data := by
  obtain ⟨before, within, stated, rfl, found, inside⟩ := leads
  rcases inside.follow? with ⟨value, reached⟩ | ⟨first, after, type, members, rfl, reached, kind⟩
  · exact Or.inl ⟨value, by rw [Place.follow?_append, found]; exact reached⟩
  · refine Or.inr ⟨before ++ first, after, type, members, (List.append_assoc _ _ _).symm, ?_, kind⟩
    rw [Place.follow?_append, found]
    exact reached

/-! ## Faults of parts -/

/-- A fault that is located below a place whose value is known: the steps from there lead
to a value as the fault says. -/
inductive DecodeError.PointsInto (place : Place) (data : Json) : DecodeError → Prop
  | format {steps : List Step} {part : Json} {fault : FormatFault}
      (leads : LeadsTo steps data part) (concerns : fault.Concerns part) :
      PointsInto place data (.format (place.extend steps) fault)
  | wrongKind : PointsInto place data .wrongKind
  | tooDeep : PointsInto place data .tooDeep

namespace DecodeError.PointsInto

variable {place : Place} {data part : Json} {error : DecodeError}

theorem here {fault : FormatFault} (concerns : fault.Concerns data) :
    PointsInto place data (.format place fault) := by
  have leads : LeadsTo [] data data := ⟨[], [], data, rfl, rfl, .here data⟩
  have points : PointsInto place data (.format (place.extend []) fault) := format leads concerns
  rwa [Place.extend, List.append_nil] at points

theorem below (step : Step) (follows : step.follow? data = some part)
    (points : error.PointsInto (place.push step) part) : error.PointsInto place data := by
  cases points with
  | format leads concerns =>
      obtain ⟨before, within, stated, rfl, found, inside⟩ := leads
      rw [Place.extend_push]
      refine format ⟨step :: before, within, stated, rfl, ?_, inside⟩ concerns
      rw [Place.follow?, follows]
      exact found
  | wrongKind => exact wrongKind
  | tooDeep => exact tooDeep

end DecodeError.PointsInto

/-- A fault of a type, likewise: the steps from its place lead into the type. -/
inductive DecodeError.PointsIntoType (place : Place) (type : Json) : DecodeError → Prop
  | format {steps : List Step} {part : Json} {fault : FormatFault}
      (inside : TypePart steps type part) (concerns : fault.Concerns part) :
      PointsIntoType place type (.format (place.extend steps) fault)
  | tooDeep : PointsIntoType place type .tooDeep

namespace DecodeError.PointsIntoType

variable {place : Place} {type inner : Json} {error : DecodeError}

theorem here {fault : FormatFault} (concerns : fault.Concerns type) :
    PointsIntoType place type (.format place fault) := by
  have points : PointsIntoType place type (.format (place.extend []) fault) :=
    format (.here type) concerns
  rwa [Place.extend, List.append_nil] at points

theorem kind (stated : type.get? "kind" = some inner) (points : error.PointsIntoType place inner) :
    error.PointsIntoType place type := by
  cases points with
  | format inside concerns => exact format (.kind stated inside) concerns
  | tooDeep => exact tooDeep

theorem underlying (stated : type.get? "underlying" = some inner)
    (points : error.PointsIntoType (place.push .underlying) inner) :
    error.PointsIntoType place type := by
  cases points with
  | format inside concerns =>
      rw [Place.extend_push]
      exact format (.underlying stated inside) concerns
  | tooDeep => exact tooDeep

theorem pointsInto (points : error.PointsIntoType place type) : error.PointsInto place type := by
  cases points with
  | @format steps part fault inside concerns =>
      exact .format ⟨[], steps, type, rfl, rfl, inside⟩ concerns
  | tooDeep => exact .tooDeep

end DecodeError.PointsIntoType

/-! ## Types and operators -/

section

variable {allowed : DecodeError → Prop}

theorem require_failsOnly {key : String} {place : Place} {data : Json}
    (allows : data.get? key = none → allowed (.format place (.missing key))) :
    FailsOnly allowed (require key place data) := by
  unfold require
  split
  · exact failsOnly_ok _
  · next missing => exact failsOnly_error (allows missing)

theorem require_points (key : String) (place : Place) (data : Json) :
    FailsOnly (DecodeError.PointsInto place data) (require key place data) :=
  require_failsOnly fun missing => .here missing

theorem decodeType_points (budget : Nat) (place : Place) (type : Json) :
    FailsOnly (DecodeError.PointsIntoType place type) (decodeType budget place type) := by
  induction budget generalizing place type with
  | zero => exact failsOnly_error .tooDeep
  | succ budget ih =>
      cases type with
      | str name =>
          rw [decodeType]
          split
          · exact failsOnly_ok _
          · split
            · exact failsOnly_ok _
            · exact failsOnly_error (.here ⟨rfl, rfl⟩)
      | torn name => exact failsOnly_error (.here ⟨rfl, rfl⟩)
      | obj members =>
          rw [decodeType]
          refine failsOnly_bind (require_failsOnly fun missing => .here missing)
            fun kind required => ?_
          have stated := require_ok.mp required
          split
          · next enumeration =>
              refine failsOnly_bind ?_ fun carrier _ => failsOnly_bind ?_ fun name _ => ?_
              · cases given : (Json.obj members).get? "underlying" with
                | some inner =>
                    exact fun fault failed => (ih _ _ fault failed).underlying given
                | none =>
                    -- a carrier that is not stated is a type that is known
                    rw [Option.getD_none]
                    cases budget with
                    | zero => exact failsOnly_error .tooDeep
                    | succ budget => exact failsOnly_ok SourceType.int
              · exact require_failsOnly fun missing => .here missing
              · intro fault failed
                unfold atPlace at failed
                split at failed
                · cases failed
                · cases failed
                  exact .here (stated.trans (congrArg some enumeration))
          · split
            · exact failsOnly_ok _
            · exact fun fault failed => (ih _ _ fault failed).kind stated
      | _ => exact failsOnly_error (.here ⟨rfl, by rintro _ ⟨⟩⟩)

theorem decodeType_member_points {budget : Nat} {place : Place} {data type : Json} (step : Step)
    (follows : step.follow? data = some type) :
    FailsOnly (DecodeError.PointsInto place data) (decodeType budget (place.push step) type) :=
  fun fault failed => ((decodeType_points _ _ _ fault failed).pointsInto).below step follows

theorem nodeType_points (budget : Nat) (place : Place) (data : Json) :
    FailsOnly (DecodeError.PointsInto place data) (nodeType budget place data) :=
  failsOnly_bind (require_points _ _ _) fun _ required =>
    decodeType_member_points .type (require_ok.mp required)

theorem operatorResult_points {budget : Nat} {place : Place} {name data : Json}
    (named : data.get? "name" = some name) :
    FailsOnly (DecodeError.PointsInto place data) (operatorResult budget place name data) := by
  unfold operatorResult
  split
  · next found => exact decodeType_member_points .returnType found
  · exact failsOnly_ok _
  · next missing _ => exact failsOnly_error (.here ⟨⟨name, named, rfl⟩, missing⟩)

theorem decodeOperator_points (budget : Nat) (place : Place) (data : Json) :
    FailsOnly (DecodeError.PointsInto place data) (decodeOperator budget place data) := by
  unfold decodeOperator
  split
  · split
    · exact failsOnly_ok _
    · exact failsOnly_error (.here ⟨rfl, rfl⟩)
  · exact failsOnly_error (.here ⟨rfl, rfl⟩)
  · split
    · refine failsOnly_bind (require_points _ _ _) fun name required => ?_
      exact failsOnly_bind (operatorResult_points (require_ok.mp required)) fun _ _ =>
        failsOnly_ok _
    · exact failsOnly_ok _
    · exact failsOnly_ok _
    · next noStatus _ _ =>
        refine failsOnly_error (.here ?_)
        cases given : (Json.obj _).get? "status" with
        | some shown => exact ⟨shown, given, rfl⟩
        | none => exact absurd (by rw [given]; rfl) noStatus
  · next noText noMarks noMembers =>
      refine failsOnly_error (.here ⟨?_, noMembers⟩)
      cases data with
      | str text => exact absurd rfl (noText text)
      | torn text => exact absurd rfl (noMarks text)
      | _ => rfl

theorem nodeOperator_points (budget : Nat) (place : Place) (data : Json) :
    FailsOnly (DecodeError.PointsInto place data) (nodeOperator budget place data) :=
  failsOnly_bind (require_points _ _ _) fun _ required fault failed =>
    (decodeOperator_points _ _ _ fault failed).below .operator (require_ok.mp required)

theorem operatorNodeType_points (budget : Nat) (place : Place) (resolution : Resolution)
    (data : Json) :
    FailsOnly (DecodeError.PointsInto place data)
      (operatorNodeType budget place resolution data) := by
  unfold operatorNodeType
  split
  · next found => exact decodeType_member_points .type found
  · exact failsOnly_ok _
  · next missing _ => exact failsOnly_error (.here missing)

/-! ## Other parts without state -/

theorem kindCode_points (place : Place) (type : SourceType) (data : Json) :
    FailsOnly (DecodeError.PointsInto place data) (kindCode place type data) := by
  unfold kindCode
  split
  · next code stated =>
      unfold decodeKind
      split
      · split
        · exact failsOnly_ok _
        · exact failsOnly_error (.here ⟨_, stated, rfl⟩)
      · exact failsOnly_error (.here ⟨_, stated, rfl⟩)
  · exact failsOnly_ok _

theorem nodeConstant_points (place : Place) (type : SourceType) (data : Json) :
    FailsOnly (DecodeError.PointsInto place data) (nodeConstant place type data) := by
  unfold nodeConstant decodeConstant
  split
  · exact failsOnly_ok _
  · exact failsOnly_ok _
  · next constant _ stated =>
      intro fault failed
      refine .below .constant stated ?_
      revert fault
      split
      · next missing => exact failsOnly_error (.here missing)
      · exact failsOnly_bind (kindCode_points _ _ _) fun _ _ => failsOnly_ok _

theorem decodeElementKind_points (place : Place) (data : Json) :
    FailsOnly (DecodeError.PointsInto place data) (decodeElementKind place data) := by
  unfold decodeElementKind
  split
  · exact failsOnly_ok _
  · next stated =>
      split
      · split
        · exact failsOnly_ok _
        · exact failsOnly_error (.here ⟨_, stated, rfl⟩)
      · exact failsOnly_error (.here ⟨_, stated, rfl⟩)

theorem decodeShape_points (place : Place) (data : Json) :
    FailsOnly (DecodeError.PointsInto place data) (decodeShape place data) := by
  unfold decodeShape
  split
  · exact failsOnly_ok _
  · next stated =>
      split
      · exact failsOnly_ok _
      · exact failsOnly_error (.here ⟨_, stated, rfl⟩)
  · next stated => exact failsOnly_error (.here ⟨_, stated, rfl⟩)

theorem literalNodeType_points {budget : Nat} {place : Place} {value data : Json}
    (stated : data.get? "value" = some value) :
    FailsOnly (DecodeError.PointsInto place data) (literalNodeType budget place value data) := by
  unfold literalNodeType
  split
  · next found => exact decodeType_member_points .type found
  · exact failsOnly_error .tooDeep
  · split
    · exact failsOnly_ok _
    · next fault untyped => exact failsOnly_error (.here ⟨value, stated, untyped⟩)

theorem decodeLiteral_points (budget : Nat) (place : Place) (data : Json) :
    FailsOnly (DecodeError.PointsInto place data) (decodeLiteral budget place data) :=
  failsOnly_bind (require_points _ _ _) fun _ required =>
    failsOnly_bind (literalNodeType_points (require_ok.mp required)) fun _ _ =>
      failsOnly_bind (kindCode_points _ _ _) fun _ _ => failsOnly_ok _

end

/-! ## Nodes -/

/-- What a decoder for nodes owes to every document whose children are lists. -/
def PointsIntoNodes (decode : Place → Json → Decoder Expr) : Prop :=
  ∀ place data, data.listsChildren = true →
    (decode place data).FailsOnly (DecodeError.PointsInto place data)

theorem decodeDeclaration_points (place : Place) (type : SourceType) (data : Json) :
    (decodeDeclaration place type data).FailsOnly (DecodeError.PointsInto place data) := by
  unfold decodeDeclaration
  refine Decoder.failsOnly_lift_bind (require_points _ _ _) fun name required => ?_
  refine Decoder.failsOnly_lift_bind (decodeElementKind_points _ _) fun kind _ => ?_
  dsimp only
  split
  · intro start fault final failed
    rw [declare_apply] at failed
    split at failed
    · split at failed
      · cases failed
      · next conflict =>
          cases failed
          exact .here ⟨require_ok.mp required, conflict⟩
    · cases failed
  · rintro start _ final ⟨⟩
    exact .wrongKind

theorem decodeReference_points (budget : Nat) (place : Place) (data : Json) :
    (decodeReference budget place data).FailsOnly (DecodeError.PointsInto place data) := by
  refine Decoder.failsOnly_lift_bind (nodeType_points _ _ _) fun type _ => ?_
  refine Decoder.failsOnly_lift_bind (nodeConstant_points _ _ _) fun constant _ => ?_
  split
  · exact Decoder.failsOnly_bind (decodeDeclaration_points _ _ _)
      fun _ _ => Decoder.failsOnly_pure _
  · exact Decoder.failsOnly_lift_bind (require_points _ _ _) fun _ _ => Decoder.failsOnly_pure _

section

variable {decode : Place → Json → Decoder Expr} {place : Place} {data : Json}

theorem decodePart_points (points : PointsIntoNodes decode) (lists : data.listsChildren = true)
    {step : Step} {key : String} (follows : step.follow? data = data.get? key) :
    (decodePart decode key step place data).FailsOnly (DecodeError.PointsInto place data) := by
  refine Decoder.failsOnly_lift_bind (require_points _ _ _) fun part required => ?_
  have held := require_ok.mp required
  intro start fault final failed
  have below := points _ _ (Json.listsChildren_of_get? lists held).1 start fault final failed
  exact below.below _ (follows.trans held)

theorem decodeUnary_points (points : PointsIntoNodes decode) (lists : data.listsChildren = true)
    (budget : Nat) :
    (decodeUnary decode budget place data).FailsOnly (DecodeError.PointsInto place data) := by
  refine Decoder.failsOnly_lift_bind (nodeOperator_points _ _ _) fun operator _ => ?_
  refine Decoder.failsOnly_bind (decodePart_points points lists rfl) fun operand _ => ?_
  refine Decoder.failsOnly_lift_bind (operatorNodeType_points _ _ _ _) fun type _ => ?_
  exact Decoder.failsOnly_lift_bind (nodeConstant_points _ _ _)
    fun _ _ => Decoder.failsOnly_pure _

theorem decodeBinary_points (points : PointsIntoNodes decode) (lists : data.listsChildren = true)
    (budget : Nat) :
    (decodeBinary decode budget place data).FailsOnly (DecodeError.PointsInto place data) := by
  refine Decoder.failsOnly_lift_bind (nodeOperator_points _ _ _) fun operator _ => ?_
  refine Decoder.failsOnly_bind (decodePart_points points lists rfl) fun left _ => ?_
  refine Decoder.failsOnly_bind (decodePart_points points lists rfl) fun right _ => ?_
  refine Decoder.failsOnly_lift_bind (operatorNodeType_points _ _ _ _) fun type _ => ?_
  exact Decoder.failsOnly_lift_bind (nodeConstant_points _ _ _)
    fun _ _ => Decoder.failsOnly_pure _

theorem childrenOf_points :
    FailsOnly (DecodeError.PointsInto place data) (childrenOf data) := by
  unfold childrenOf
  split
  · exact failsOnly_ok _
  · exact failsOnly_ok _
  · exact failsOnly_ok _
  · exact failsOnly_ok _
  · exact failsOnly_ok _
  · exact failsOnly_error .wrongKind

/-- Every child that is decoded is one of the list, and the step to it leads there. -/
theorem follow?_child_of_lists (lists : data.listsChildren = true) {items : List Json}
    (children : childrenOf data = .ok items) {index : Nat} {item : Json}
    (found : items[index]? = some item) :
    (Step.child index).follow? data = some item ∧ item.listsChildren = true := by
  cases given : data.get? "children" with
  | none =>
      rw [childrenOf, given] at children
      cases children
      cases found
  | some stated =>
      obtain ⟨inside, isList⟩ := Json.listsChildren_of_get? lists given
      cases stated with
      | arr listed =>
          rw [childrenOf, given] at children
          cases children
          refine ⟨?_, Json.listsChildren_of_mem inside (List.mem_of_getElem? found)⟩
          rw [Step.follow?, given]
          exact found
      | _ => cases isList rfl

theorem decodeChildren_points (points : PointsIntoNodes decode) :
    ∀ (items : List Json) (index : Nat),
      (∀ offset item, items[offset]? = some item →
        (Step.child (index + offset)).follow? data = some item ∧ item.listsChildren = true) →
      (decodeChildren decode place index items).FailsOnly (DecodeError.PointsInto place data) := by
  intro items
  induction items with
  | nil => exact fun _ _ => Decoder.failsOnly_pure _
  | cons item rest ih =>
      intro index held
      obtain ⟨follows, inside⟩ := held 0 item rfl
      refine Decoder.failsOnly_bind ?_ fun node _ => ?_
      · intro start fault final failed
        exact (points _ _ inside start fault final failed).below _ follows
      · refine Decoder.failsOnly_bind (ih (index + 1) ?_) fun nodes _ => Decoder.failsOnly_pure _
        intro offset other found
        have later := held (offset + 1) other found
        rwa [show index + (offset + 1) = index + 1 + offset by omega] at later

theorem decodeUnmodelled_points (points : PointsIntoNodes decode)
    (lists : data.listsChildren = true) (budget : Nat) :
    (decodeUnmodelled decode budget place data).FailsOnly (DecodeError.PointsInto place data) := by
  refine Decoder.failsOnly_lift_bind (decodeShape_points _ _) fun shape _ => ?_
  refine Decoder.failsOnly_lift_bind (nodeType_points _ _ _) fun type _ => ?_
  refine Decoder.failsOnly_lift_bind childrenOf_points fun items children => ?_
  refine Decoder.failsOnly_bind (decodeChildren_points points items 0 ?_) fun nodes _ => ?_
  · intro offset item found
    rw [Nat.zero_add]
    exact follow?_child_of_lists lists children found
  · refine Decoder.failsOnly_lift_bind (nodeConstant_points _ _ _) fun constant _ => ?_
    exact Decoder.failsOnly_lift_bind (require_points _ _ _) fun _ _ => Decoder.failsOnly_pure _

end

/-- The faults of a node point into its document. -/
theorem decodeNode_points (budget : Nat) : PointsIntoNodes (decodeNode budget) := by
  induction budget using Nat.strongRecOn with
  | ind budget ih =>
      intro place data lists
      match budget, ih with
      | 0, _ | 1, _ | 2, _ =>
          rintro start _ final ⟨⟩
          exact .tooDeep
      | budget + 3, ih =>
          cases data with
          | obj members =>
              rw [decodeNode]
              refine Decoder.failsOnly_lift_bind (require_points _ _ _) fun shown required => ?_
              split
              · exact Decoder.failsOnly_lift (decodeLiteral_points _ _ _)
              · exact decodeReference_points _ _ _
              · exact decodeUnary_points (ih _ (by omega)) lists _
              · exact decodeBinary_points (ih _ (by omega)) lists _
              · exact decodeUnmodelled_points (ih _ (by omega)) lists _
              · rintro start _ final ⟨⟩
                exact .here ⟨_, require_ok.mp required, rfl⟩
          | _ =>
              rintro start _ final ⟨⟩
              exact .here (by rintro _ ⟨⟩)

/-! ## Whole documents -/

namespace Expr

/-- The message of a malformed document whose children are lists starts with a path from the
root and a colon.  The path leads to a value of which the fault is true.  It can be followed
through the document unless it steps to what carries a type that is stated by an object. -/
theorem faults_point_into_document [Limits] {data : Json} (lists : data.listsChildren = true)
    {next later : Nat} {place : Place} {fault : FormatFault}
    (failed : ofJson data next = (.error (.format place fault), later)) :
    fault.located place =
        "$" ++ String.join (place.steps.map Step.text) ++ ": " ++ fault.message ∧
      (∃ part, LeadsTo place.steps data part ∧ fault.Concerns part) ∧
      ((∃ value, Place.follow? place.steps data = some value) ∨
        PassesKindObject place.steps data) := by
  unfold ofJson at failed
  split at failed
  · cases failed
  · next run =>
      cases failed
      have points := decodeNode_points _ _ _ lists _ _ _ run
      cases points with
      | format leads concerns => exact ⟨rfl, ⟨_, leads, concerns⟩, leads.follow?⟩

def restatedType (type : Json) : Json :=
  .obj [("node", .str "variable"), ("name", .str "x"), ("type", .obj [("kind", type)])]

def enumerationOn (carrier : String) : Json :=
  .obj [("kind", .str "enum"), ("name", .str "Color"), ("underlying", .str carrier)]

def unknownCarrier : Json :=
  .obj [("node", .str "binary"), ("operator", .str "BinaryEqualityInt"),
    ("left", .obj [("node", .str "variable"), ("name", .str "x"), ("type", enumerationOn "odd")]),
    ("right", .obj [("node", .str "literal"), ("value", .int 1)])]

theorem faults_point_into_document_carrier :
    unknownCarrier.listsChildren = true ∧
      ofJson unknownCarrier 1 =
        (.error (.format ⟨"$", [.left, .type, .underlying]⟩ (.unknownType "odd")), 1) ∧
      ((∃ value, Place.follow? [.left, .type, .underlying] unknownCarrier = some value) ∨
        PassesKindObject [.left, .type, .underlying] unknownCarrier) :=
  have lists : unknownCarrier.listsChildren = true := by decide
  have failed : ofJson unknownCarrier 1 =
      (.error (.format ⟨"$", [.left, .type, .underlying]⟩ (.unknownType "odd")), 1) := by rfl
  ⟨lists, failed, (faults_point_into_document lists failed).2.2⟩

theorem restated_carrier_is_not_located :
    (restatedType (enumerationOn "odd")).listsChildren = true ∧
      ofJson (restatedType (enumerationOn "odd")) 1 =
        (.error (.format ⟨"$", [.type, .underlying]⟩ (.unknownType "odd")), 1) ∧
      Place.follow? [.type, .underlying] (restatedType (enumerationOn "odd")) = none :=
  ⟨by decide, rfl, rfl⟩

end Expr

end Source

end CondSat
