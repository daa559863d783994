import CondSat.Proofs.Documents
import CondSat.Proofs.Relabel

/-! # What is decoded from a document

Decoding threads the declarations of the document through every node.  One step only
adds declarations, each with a number of its own, and a decoded tree refers to
declarations that are known afterwards; so references of one number always mean one
declaration.  `Delivers` says this of a decoder for nodes together with what its trees
are like: all their types and operators are storable, and they are nested no deeper
than the levels the decoder has. -/
set_option autoImplicit false
namespace CondSat.Source

/-! ## Steps of the decoder -/

namespace Decoder

variable {α β : Type}

theorem lift_ok {answer : Except DecodeError α} {value : α} {start final : Declarations} :
    lift answer start = .ok value final ↔ answer = .ok value ∧ start = final := by
  cases answer with
  | ok found => simpa [lift] using Stateful.pure_ok
  | error fault =>
      change EStateM.Result.error fault start = _ ↔ _
      simp

theorem lift_bind_ok {answer : Except DecodeError α} {next : α → Decoder β}
    {start final : Declarations} {result : β}
    (run : (lift answer >>= next) start = .ok result final) :
    ∃ value, answer = .ok value ∧ next value start = .ok result final := by
  obtain ⟨value, middle, first, rest⟩ := Stateful.bind_ok run
  obtain ⟨answered, rfl⟩ := lift_ok.mp first
  exact ⟨value, answered, rest⟩

end Decoder

/-! ## Trees that documents can hold -/

namespace Expr

/-- Whether a document can hold what a node has besides its children.  A reference has
the type of its declaration. -/
def StorableNode : Expr → Prop
  | literal _ type _ => type.Storable
  | reference declaration type _ _ => type.Storable ∧ ∀ known ∈ declaration, known.type = type
  | unary operator _ type _ _ => operator.Storable ∧ type.Storable
  | binary operator _ _ type _ _ => operator.Storable ∧ type.Storable
  | unmodelled _ type _ _ _ => type.Storable

mutual

def levels : Expr → Nat
  | literal _ type _ => type.levels + 3
  | reference _ type _ _ => type.levels + 3
  | unary _ operand _ _ _ => levels operand + 2
  | binary _ left right _ _ _ => max (levels left) (levels right) + 2
  | unmodelled _ type _ children _ => max type.levels (levelsAll children) + 3

def levelsAll : List Expr → Nat
  | [] => 0
  | node :: rest => max (levels node) (levelsAll rest)

end

theorem levelsAll_le {nodes : List Expr} {bound : Nat} :
    levelsAll nodes ≤ bound ↔ ∀ node ∈ nodes, node.levels ≤ bound := by
  induction nodes with
  | nil => simp [levelsAll]
  | cons node rest ih => simp [levelsAll, ih]

end Expr

/-! ## The declarations of a document -/

/-- Declarations have numbers of their own, below the next free one. -/
structure Declarations.Sound (state : Declarations) : Prop where
  below : ∀ entry ∈ state.known, entry.2.id < state.next
  distinct : (state.known.map (·.2.id)).Nodup

theorem Declarations.Sound.eq_of_id {state : Declarations} (sound : state.Sound)
    {first second : DeclarationKey × Declaration} (firstKnown : first ∈ state.known)
    (secondKnown : second ∈ state.known) (same : first.2.id = second.2.id) : first = second :=
  List.inj_on_of_nodup_map sound.distinct firstKnown secondKnown same

theorem Declarations.Sound.add {state : Declarations} (sound : state.Sound)
    (key : DeclarationKey) (name : Json) (kind : ElementKind) (type : SourceType) :
    (Declarations.mk (state.known ++ [(key, ⟨name, kind, type, state.next⟩)])
      (state.next + 1)).Sound := by
  constructor
  · intro entry member
    rcases List.mem_append.mp member with known | added
    · exact Nat.lt_succ_of_lt (sound.below entry known)
    · rw [List.mem_singleton.mp added]
      exact Nat.lt_succ_self _
  · rw [List.map_append, List.nodup_append]
    refine ⟨sound.distinct, List.nodup_singleton _, ?_⟩
    intro id member other added
    obtain ⟨entry, known, rfl⟩ := List.mem_map.mp member
    rw [List.mem_singleton.mp added]
    exact (sound.below entry known).ne

theorem declare_apply (place : Place) (key : DeclarationKey) (name : Json) (kind : ElementKind)
    (type : SourceType) (start : Declarations) :
    declare place key name kind type start =
      match start.known.find? (·.1.same key) with
      | some (_, known) =>
        if known.type = type ∧ known.name = name then .ok known start
        else .error (.format place (.conflictingUse key known name type)) start
      | none =>
        .ok ⟨name, kind, type, start.next⟩
          ⟨start.known ++ [(key, ⟨name, kind, type, start.next⟩)], start.next + 1⟩ := by
  have read : declare place key name kind type start = _ := Stateful.bind_apply _ _ start
  rw [read]
  change (match start.known.find? (·.1.same key) with
    | some (_, known) => _
    | none => _ : Decoder Declaration) start = _
  cases start.known.find? (·.1.same key) with
  | none => rfl
  | some entry =>
      dsimp only
      split <;> rfl

/-- Decoding a declaration: it is known afterwards, under the type of the reference. -/
theorem declare_ok {place : Place} {key : DeclarationKey} {name : Json} {kind : ElementKind}
    {type : SourceType} {start final : Declarations} {declaration : Declaration}
    (sound : start.Sound)
    (run : declare place key name kind type start = .ok declaration final) :
    final.Sound ∧ start.known ⊆ final.known ∧ declaration ∈ final.known.map (·.2) ∧
      declaration.type = type := by
  rw [declare_apply] at run
  cases found : start.known.find? (·.1.same key) with
  | some entry =>
      rw [found] at run
      dsimp only at run
      split at run
      · next agrees =>
          cases run
          refine ⟨sound, List.Subset.refl _, ?_, agrees.1⟩
          exact List.mem_map_of_mem (List.mem_of_find?_eq_some found)
      · cases run
  | none =>
      rw [found] at run
      cases run
      exact ⟨sound.add key name kind type, List.subset_append_left _ _, by simp, rfl⟩

theorem decodeDeclaration_ok {place : Place} {type : SourceType} {data : Json}
    {start final : Declarations} {declaration : Declaration} (sound : start.Sound)
    (run : decodeDeclaration place type data start = .ok declaration final) :
    final.Sound ∧ start.known ⊆ final.known ∧ declaration ∈ final.known.map (·.2) ∧
      declaration.type = type := by
  unfold decodeDeclaration at run
  obtain ⟨name, -, run⟩ := Decoder.lift_bind_ok run
  obtain ⟨kind, -, run⟩ := Decoder.lift_bind_ok run
  dsimp only at run
  split at run
  · exact declare_ok sound run
  · cases run

/-! ## Nodes -/

/-- What a decoder for nodes has done when it has decoded one with some levels left. -/
structure Delivered (levels : Nat) (start : Declarations) (node : Expr) (final : Declarations) :
    Prop where
  sound : final.Sound
  grown : start.known ⊆ final.known
  storable : node.Everywhere Expr.StorableNode
  declared : node.declarations ⊆ final.known.map (·.2)
  nested : node.levels ≤ levels

def Delivers (levels : Nat) (decode : Place → Json → Decoder Expr) : Prop :=
  ∀ place data start node final, start.Sound → decode place data start = .ok node final →
    Delivered levels start node final

theorem literalType_ok {value : Json} {type : SourceType} (typed : literalType value = .ok type) :
    type ∈ SourceType.primitives := by
  cases value with
  | int number =>
      rw [literalType] at typed
      cases found : IntegerType.ofValue? number with
      | none => rw [found] at typed; cases typed
      | some integer =>
          rw [found] at typed
          cases typed
          cases integer <;> decide
  | arr items => cases typed
  | obj members => cases typed
  | _ => cases typed; decide

theorem literalNodeType_ok {budget : Nat} {place : Place} {value data : Json} {type : SourceType}
    (typed : literalNodeType budget place value data = .ok type) :
    type.Storable ∧ type.levels ≤ budget := by
  unfold literalNodeType at typed
  split at typed
  · exact decodeType_ok typed
  · cases typed
  · next budget _ =>
      cases inferred : literalType value with
      | error fault => rw [inferred] at typed; cases typed
      | ok found =>
          rw [inferred] at typed
          cases typed
          have member := literalType_ok inferred
          have plain := (SourceType.primitive_document member).1
          exact ⟨Or.inl member, by omega⟩

theorem decodeLiteral_delivers (budget : Nat) :
    Delivers (budget + 3) fun place data => Decoder.lift (decodeLiteral budget place data) := by
  intro place data start node final sound run
  obtain ⟨decoded, rfl⟩ := Decoder.lift_ok.mp run
  obtain ⟨value, -, decoded⟩ := bind_ok decoded
  obtain ⟨type, typed, decoded⟩ := bind_ok decoded
  obtain ⟨kind, -, decoded⟩ := bind_ok decoded
  cases decoded
  obtain ⟨storable, nested⟩ := literalNodeType_ok typed
  exact ⟨sound, List.Subset.refl _, by simpa [Expr.StorableNode] using storable, by simp,
    by simpa [Expr.levels] using nested⟩

theorem nodeType_ok {budget : Nat} {place : Place} {data : Json} {type : SourceType}
    (typed : nodeType budget place data = .ok type) : type.Storable ∧ type.levels ≤ budget := by
  obtain ⟨stated, -, decoded⟩ := bind_ok typed
  exact decodeType_ok decoded

theorem decodeReference_delivers (budget : Nat) :
    Delivers (budget + 3) (decodeReference budget) := by
  intro place data start node final sound run
  obtain ⟨type, typed, run⟩ := Decoder.lift_bind_ok run
  obtain ⟨constant, -, run⟩ := Decoder.lift_bind_ok run
  obtain ⟨storable, nested⟩ := nodeType_ok typed
  split at run
  · obtain ⟨declaration, middle, declared, run⟩ := Stateful.bind_ok run
    obtain ⟨rfl, rfl⟩ := Stateful.pure_ok.mp run
    obtain ⟨sound, grown, known, same⟩ := decodeDeclaration_ok sound declared
    exact ⟨sound, grown, by simpa [Expr.StorableNode] using ⟨storable, same⟩,
      by simpa using known, by simpa [Expr.levels] using nested⟩
  · obtain ⟨text, -, run⟩ := Decoder.lift_bind_ok run
    obtain ⟨rfl, rfl⟩ := Stateful.pure_ok.mp run
    exact ⟨sound, List.Subset.refl _, by simpa [Expr.StorableNode] using storable, by simp,
      by simpa [Expr.levels] using nested⟩

theorem operatorNodeType_ok {budget : Nat} {place : Place} {resolution : Resolution} {data : Json}
    {type : SourceType} (storable : resolution.Storable)
    (typed : operatorNodeType budget place resolution data = .ok type) : type.Storable := by
  unfold operatorNodeType at typed
  split at typed
  · exact (decodeType_ok typed).1
  · next operator _ resolved =>
      cases typed
      cases resolution with
      | resolved known =>
          cases resolved
          exact storable.result
      | ambiguous => cases resolved
      | unresolved => cases resolved
  · cases typed

theorem nodeOperator_ok {budget : Nat} {place : Place} {data : Json} {resolution : Resolution}
    (resolved : nodeOperator budget place data = .ok resolution) : resolution.Storable := by
  obtain ⟨stated, -, decoded⟩ := bind_ok resolved
  exact decodeOperator_ok decoded

theorem decodePart_delivers {levels : Nat} {decode : Place → Json → Decoder Expr}
    (delivers : Delivers levels decode) (key : String) (step : Step) :
    Delivers levels (decodePart decode key step) := by
  intro place data start node final sound run
  obtain ⟨part, -, run⟩ := Decoder.lift_bind_ok run
  exact delivers _ part start node final sound run

theorem decodeUnary_delivers {budget : Nat} {decode : Place → Json → Decoder Expr}
    (delivers : Delivers (budget + 1) decode) : Delivers (budget + 3) (decodeUnary decode budget) := by
  intro place data start node final sound run
  obtain ⟨operator, resolved, run⟩ := Decoder.lift_bind_ok run
  obtain ⟨operand, middle, decoded, run⟩ := Stateful.bind_ok run
  obtain ⟨type, typed, run⟩ := Decoder.lift_bind_ok run
  obtain ⟨constant, -, run⟩ := Decoder.lift_bind_ok run
  obtain ⟨rfl, rfl⟩ := Stateful.pure_ok.mp run
  have delivered := decodePart_delivers delivers _ _ _ _ _ _ _ sound decoded
  have storable := nodeOperator_ok resolved
  refine ⟨delivered.sound, delivered.grown, ?_, delivered.declared, ?_⟩
  · exact (Expr.everywhere_unary ..).mpr
      ⟨⟨storable, operatorNodeType_ok storable typed⟩, delivered.storable⟩
  · exact Nat.add_le_add_right delivered.nested 2

theorem decodeBinary_delivers {budget : Nat} {decode : Place → Json → Decoder Expr}
    (delivers : Delivers (budget + 1) decode) :
    Delivers (budget + 3) (decodeBinary decode budget) := by
  intro place data start node final sound run
  obtain ⟨operator, resolved, run⟩ := Decoder.lift_bind_ok run
  obtain ⟨left, middle, leftDecoded, run⟩ := Stateful.bind_ok run
  obtain ⟨right, later, rightDecoded, run⟩ := Stateful.bind_ok run
  obtain ⟨type, typed, run⟩ := Decoder.lift_bind_ok run
  obtain ⟨constant, -, run⟩ := Decoder.lift_bind_ok run
  obtain ⟨rfl, rfl⟩ := Stateful.pure_ok.mp run
  have first := decodePart_delivers delivers _ _ _ _ _ _ _ sound leftDecoded
  have second := decodePart_delivers delivers _ _ _ _ _ _ _ first.sound rightDecoded
  have storable := nodeOperator_ok resolved
  refine ⟨second.sound, List.Subset.trans first.grown second.grown, ?_, ?_, ?_⟩
  · exact (Expr.everywhere_binary ..).mpr
      ⟨⟨storable, operatorNodeType_ok storable typed⟩, first.storable, second.storable⟩
  · rw [Expr.declarations_binary]
    exact List.append_subset.mpr
      ⟨List.Subset.trans first.declared (List.map_subset _ second.grown), second.declared⟩
  · exact Nat.add_le_add_right (max_le first.nested second.nested) 2

/-- Children are decoded one after the other, each with the declarations of those before. -/
theorem decodeChildren_ok {levels : Nat} {decode : Place → Json → Decoder Expr}
    (delivers : Delivers levels decode) {place : Place} {items : List Json} :
    ∀ {index : Nat} {start final : Declarations} {nodes : List Expr}, start.Sound →
      decodeChildren decode place index items start = .ok nodes final →
      final.Sound ∧ start.known ⊆ final.known ∧
        ∀ node ∈ nodes, node.Everywhere Expr.StorableNode ∧
          node.declarations ⊆ final.known.map (·.2) ∧ node.levels ≤ levels := by
  induction items with
  | nil =>
      intro index start final nodes sound run
      obtain ⟨rfl, rfl⟩ := Stateful.pure_ok.mp run
      exact ⟨sound, List.Subset.refl _, by simp⟩
  | cons item rest ih =>
      intro index start final nodes sound run
      obtain ⟨node, middle, decoded, run⟩ := Stateful.bind_ok run
      obtain ⟨others, later, followed, run⟩ := Stateful.bind_ok run
      obtain ⟨rfl, rfl⟩ := Stateful.pure_ok.mp run
      have first := delivers _ item start node middle sound decoded
      obtain ⟨laterSound, grown, each⟩ := ih first.sound followed
      refine ⟨laterSound, List.Subset.trans first.grown grown, ?_⟩
      rw [List.forall_mem_cons]
      have declared := List.Subset.trans first.declared (List.map_subset _ grown)
      exact ⟨⟨first.storable, declared, first.nested⟩, each⟩

theorem decodeUnmodelled_delivers {budget : Nat} {decode : Place → Json → Decoder Expr}
    (delivers : Delivers budget decode) : Delivers (budget + 3) (decodeUnmodelled decode budget) := by
  intro place data start node final sound run
  obtain ⟨shape, -, run⟩ := Decoder.lift_bind_ok run
  obtain ⟨type, typed, run⟩ := Decoder.lift_bind_ok run
  obtain ⟨items, -, run⟩ := Decoder.lift_bind_ok run
  obtain ⟨children, middle, decoded, run⟩ := Stateful.bind_ok run
  obtain ⟨constant, -, run⟩ := Decoder.lift_bind_ok run
  obtain ⟨text, -, run⟩ := Decoder.lift_bind_ok run
  obtain ⟨rfl, rfl⟩ := Stateful.pure_ok.mp run
  obtain ⟨storable, nested⟩ := nodeType_ok typed
  obtain ⟨sound, grown, each⟩ := decodeChildren_ok delivers sound decoded
  refine ⟨sound, grown, ?_, ?_, ?_⟩
  · exact (Expr.everywhere_unmodelled ..).mpr ⟨storable, fun child member => (each child member).1⟩
  · rw [Expr.declarations_unmodelled]
    intro declaration member
    obtain ⟨child, isChild, inside⟩ := List.mem_flatMap.mp member
    exact (each child isChild).2.1 inside
  · have below := Expr.levelsAll_le.mpr fun child member => (each child member).2.2
    exact Nat.add_le_add_right (max_le nested below) 3

/-- What is decoded with some levels is storable and nested no deeper than these levels. -/
theorem decodeNode_delivers (budget : Nat) : Delivers budget (decodeNode budget) := by
  -- operands are decoded with two levels less and children with three, so the
  -- induction is over all smaller budgets
  induction budget using Nat.strongRecOn with
  | ind budget ih =>
      intro place data start node final sound run
      match budget, ih with
      | 0, _ | 1, _ | 2, _ => cases run
      | budget + 3, ih =>
          cases data with
          | obj members =>
              rw [decodeNode] at run
              obtain ⟨shown, -, run⟩ := Decoder.lift_bind_ok run
              split at run
              · exact decodeLiteral_delivers budget _ _ _ _ _ sound run
              · exact decodeReference_delivers budget _ _ _ _ _ sound run
              · exact decodeUnary_delivers (ih _ (by omega)) _ _ _ _ _ sound run
              · exact decodeBinary_delivers (ih _ (by omega)) _ _ _ _ _ sound run
              · exact decodeUnmodelled_delivers (ih _ (by omega)) _ _ _ _ _ sound run
              · cases run
          | _ => cases run

/-- Trees that a document can hold: every node is storable, and references of one number
mean one declaration. -/
structure Expr.Storable (root : Expr) : Prop where
  nodes : root.Everywhere StorableNode
  coherent : ∀ first ∈ root.declarations, ∀ second ∈ root.declarations,
    first.id = second.id → first = second

/-- What is decoded from a document can be put into one, and is not nested too deeply for
the decoder. -/
theorem Expr.ofJson_ok [Limits] {data : Json} {next later : Nat} {tree : Expr}
    (decoded : Expr.ofJson data next = (.ok tree, later)) :
    tree.Storable ∧ tree.levels ≤ Limits.decoding := by
  unfold ofJson at decoded
  split at decoded
  · next found final run =>
      cases decoded
      have fresh : (Declarations.mk [] next).Sound := ⟨by simp, List.nodup_nil⟩
      have delivered := decodeNode_delivers Limits.decoding _ _ _ _ _ fresh run
      refine ⟨⟨delivered.storable, ?_⟩, delivered.nested⟩
      intro first firstUsed second secondUsed same
      obtain ⟨entry, known, rfl⟩ := List.mem_map.mp (delivered.declared firstUsed)
      obtain ⟨other, otherKnown, rfl⟩ := List.mem_map.mp (delivered.declared secondUsed)
      rw [delivered.sound.eq_of_id known otherKnown same]
  · cases decoded

end CondSat.Source
