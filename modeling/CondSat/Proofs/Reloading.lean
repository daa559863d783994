import CondSat.Proofs.Decoding
import Mathlib.Data.List.Nodup

/-! # Trees read back from their documents

A storable tree is written as a document and read again.  The references of one
declaration are written with its number, so they find one declaration again, which is
numbered anew in the order of the first references.  The tree that is read is the old
one under a renumbering that never gives two numbers the same new one, with the
operators as the catalogue has them: `decodeNode_toJson` says so of every node, in the
state that the declarations of the nodes before it have led to.

The one thing that is lost is the result type of a tagged operator that is declared
with another one than its signature has. -/
set_option autoImplicit false
namespace CondSat.Source

/-! ## New numbers -/

/-- Numbers in the order of a list; the ones that are not listed come behind. -/
def numbering (start : Nat) (ids : List Nat) (id : Nat) : Nat :=
  if id ∈ ids then start + ids.idxOf id else start + ids.length + id

theorem numbering_injective (start : Nat) (ids : List Nat) :
    Function.Injective (numbering start ids) := by
  intro first second same
  unfold numbering at same
  by_cases firstListed : first ∈ ids
  · have firstPlace := List.idxOf_lt_length_of_mem firstListed
    by_cases secondListed : second ∈ ids
    · rw [if_pos firstListed, if_pos secondListed] at same
      exact (List.idxOf_inj firstListed).mp (Nat.add_left_cancel same)
    · rw [if_pos firstListed, if_neg secondListed] at same
      omega
  · by_cases secondListed : second ∈ ids
    · have secondPlace := List.idxOf_lt_length_of_mem secondListed
      rw [if_neg firstListed, if_pos secondListed] at same
      omega
    · rw [if_neg firstListed, if_neg secondListed] at same
      exact Nat.add_left_cancel same

def renumbering (start : Nat) (all : List Declaration) : Nat → Nat :=
  numbering start (all.eraseDups.map (·.id))

def Declarations.enrolled (start : Nat) (all seen : List Declaration) : Declarations where
  known := seen.eraseDups.map fun declaration =>
    (.id (.int declaration.id), declaration.renumber (renumbering start all))
  next := start + seen.eraseDups.length

theorem same_number (first second : Nat) :
    DeclarationKey.same (.id (.int first)) (.id (.int second)) = (first == second) := by
  rw [Bool.eq_iff_iff]
  simp [DeclarationKey.same, numberOf, sameNumber]

theorem eraseDups_snoc (seen : List Declaration) (declaration : Declaration) :
    (seen ++ [declaration]).eraseDups =
      if declaration ∈ seen then seen.eraseDups else seen.eraseDups ++ [declaration] := by
  rw [List.eraseDups_append]
  by_cases known : declaration ∈ seen
  · simp [List.removeAll, known]
  · simp [List.removeAll, known, List.eraseDups_cons]

section Enrolling

variable {all : List Declaration}
  (coherent : ∀ first ∈ all, ∀ second ∈ all, first.id = second.id → first = second)
include coherent

/-- A declaration that has not been seen gets the next number. -/
theorem renumbering_next {seen : List Declaration} {declaration : Declaration} (start : Nat)
    (within : seen ++ [declaration] <+: all) (new : declaration ∉ seen) :
    renumbering start all declaration.id = start + seen.eraseDups.length := by
  obtain ⟨rest, rfl⟩ := within
  have unlisted : declaration.id ∉ seen.eraseDups.map (·.id) := by
    intro listed
    obtain ⟨other, member, same⟩ := List.mem_map.mp listed
    have seenOther := List.mem_eraseDups.mp member
    have equal := coherent other (by simp [seenOther]) declaration (by simp) same
    exact new (equal ▸ seenOther)
  rw [renumbering, List.eraseDups_append, eraseDups_snoc, if_neg new, List.append_assoc,
    List.map_append, numbering, if_pos (by simp), List.idxOf_append_of_notMem unlisted,
    List.singleton_append, List.map_cons, List.idxOf_cons_self, List.length_map, Nat.add_zero]

/-- Reading a reference that was written enrols its declaration. -/
theorem declare_enrolled {seen : List Declaration} {declaration : Declaration} (place : Place)
    (start : Nat) (within : seen ++ [declaration] <+: all) :
    declare place (.id (.int declaration.id)) declaration.name declaration.kind declaration.type
        (.enrolled start all seen) =
      .ok (declaration.renumber (renumbering start all))
        (.enrolled start all (seen ++ [declaration])) := by
  have members : seen ++ [declaration] ⊆ all := within.subset
  have search : (Declarations.enrolled start all seen).known.find?
      (·.1.same (.id (.int declaration.id))) =
      (seen.eraseDups.find? (·.id == declaration.id)).map fun known =>
        (.id (.int known.id), known.renumber (renumbering start all)) := by
    rw [Declarations.enrolled, List.find?_map]
    simp only [Function.comp_def, same_number]
  have equal : ∀ known ∈ seen, known.id = declaration.id → known = declaration :=
    fun known member => coherent known (members (by simp [member])) declaration (members (by simp))
  rw [declare_apply, search]
  by_cases known : declaration ∈ seen
  -- the search goes by number, and only one declaration that was seen has this number
  · have found : seen.eraseDups.find? (·.id == declaration.id) = some declaration :=
      find?_key (List.mem_eraseDups.mpr known) fun other member =>
        equal other (List.mem_eraseDups.mp member)
    have unchanged : Declarations.enrolled start all (seen ++ [declaration]) =
        .enrolled start all seen := by
      simp only [Declarations.enrolled, eraseDups_snoc, if_pos known]
    rw [found, unchanged, Option.map_some]
    exact if_pos ⟨rfl, rfl⟩
  · have found : seen.eraseDups.find? (·.id == declaration.id) = none := by
      refine List.find?_eq_none.mpr fun other member same => ?_
      have seenOther := List.mem_eraseDups.mp member
      exact known (equal other seenOther (by simpa using same) ▸ seenOther)
    have next := renumbering_next coherent start within known
    have added : (Declaration.mk declaration.name declaration.kind declaration.type
        (start + seen.eraseDups.length)) = declaration.renumber (renumbering start all) := by
      rw [Declaration.renumber, next]
    rw [found, Option.map_none]
    simp only [Declarations.enrolled, eraseDups_snoc, if_neg known, added, List.map_append,
      List.map_cons, List.map_nil, List.length_append, List.length_singleton, Nat.add_assoc]

end Enrolling

/-! ## Parts of a node -/

namespace Decoder

variable {α β : Type} {excuse : Prop}

/-- The step yields the value and the state, or there is an excuse for finding the document
nested too deeply. -/
def AnswersUnless (excuse : Prop) (step : Decoder α) (start : Declarations) (value : α)
    (final : Declarations) : Prop :=
  step start = .ok value final ∨ excuse ∧ ∃ last, step start = .error .tooDeep last

theorem AnswersUnless.mono {weaker : Prop} {step : Decoder α} {start final : Declarations}
    {value : α} (answers : step.AnswersUnless excuse start value final)
    (weaken : excuse → weaker) : step.AnswersUnless weaker start value final :=
  answers.imp_right fun ⟨excused, failed⟩ => ⟨weaken excused, failed⟩

theorem AnswersUnless.seq {step : Decoder α} {next : α → Decoder β}
    {start middle final : Declarations} {value : α} {result : β}
    (first : step.AnswersUnless excuse start value middle)
    (rest : (next value).AnswersUnless excuse middle result final) :
    (step >>= next).AnswersUnless excuse start result final := by
  unfold AnswersUnless
  rw [Stateful.bind_apply]
  rcases first with answered | ⟨excused, last, failed⟩
  · rw [answered]
    exact rest
  · rw [failed]
    exact Or.inr ⟨excused, last, rfl⟩

theorem answers_lift {answer : Except DecodeError α} {value : α}
    (answers : Source.AnswersUnless excuse answer value) (start : Declarations) :
    (lift answer).AnswersUnless excuse start value start := by
  rcases answers with rfl | ⟨excused, rfl⟩
  · exact Or.inl rfl
  · exact Or.inr ⟨excused, start, rfl⟩

end Decoder

section Parts

variable {budget : Nat} (place : Place) {data : Json}

theorem nodeOperator_answers {resolution : Resolution} (storable : resolution.Storable)
    (stated : data.get? "operator" = some resolution.toJson) :
    AnswersUnless (budget < 2) (nodeOperator budget place data) resolution.catalogued := by
  rw [nodeOperator, require_ok.mpr stated]
  exact decodeOperator_toJson storable budget _

theorem nodeType_answers {type : SourceType} (storable : type.Storable)
    (stated : data.get? "type" = some type.toJson) :
    AnswersUnless (budget < type.levels) (nodeType budget place data) type := by
  rw [nodeType, require_ok.mpr stated]
  exact decodeType_toJson storable budget _

theorem operatorNodeType_answers {type : SourceType} (storable : type.Storable)
    (stated : data.get? "type" = some type.toJson) (resolution : Resolution) :
    AnswersUnless (budget < 2) (operatorNodeType budget place resolution data) type := by
  rw [operatorNodeType, stated]
  exact (decodeType_toJson storable budget _).mono fun deep => deep.trans_le type.levels_le

theorem literalNodeType_answers {type : SourceType} (storable : type.Storable)
    (stated : data.get? "type" = some type.toJson) (value : Json) :
    AnswersUnless (budget < type.levels) (literalNodeType budget place value data) type := by
  unfold literalNodeType
  rw [stated]
  exact decodeType_toJson storable budget _

theorem nodeConstant_answers {constant : Option Constant}
    (stated : data.get? "constant" = (constantMember constant).lookup "constant")
    (type : SourceType) : nodeConstant place type data = .ok constant := by
  rw [nodeConstant, stated]
  exact decodeConstant_member _ type constant

/-- A text that counts as true is read back; another one is made up again. -/
theorem statedText?_getD {text fallback : Json} (stated : data.get? "text" = some text)
    (kept : text.isTruthy = true ∨ fallback = text) : (statedText? data).getD fallback = text := by
  rw [statedText?, Json.truthy?, stated, Option.filter_some]
  split
  · rfl
  · next empty => exact kept.resolve_left empty

variable {place}

theorem decodePart_answers {decode : Place → Json → Decoder Expr} {excuse : Prop} {key : String}
    {step : Step} {part : Json} {start final : Declarations} {node : Expr}
    (stated : data.get? key = some part)
    (reads : (decode (place.push step) part).AnswersUnless excuse start node final) :
    (decodePart decode key step place data).AnswersUnless excuse start node final := by
  rw [decodePart, require_ok.mpr stated]
  exact reads

/-! ## Nodes from their parts -/

variable {decode : Place → Json → Decoder Expr} {excuse : Prop} {start middle final : Declarations}
  {resolution : Resolution} {type : SourceType} {text : Json} {constant : Option Constant}

section Operators

variable (operatorStorable : resolution.Storable) (typeStorable : type.Storable)
  (nonempty : text.isTruthy = true) (deep : budget < 2 → excuse)
  (operatorStated : data.get? "operator" = some resolution.toJson)
  (typeStated : data.get? "type" = some type.toJson)
  (textStated : data.get? "text" = some text)
  (constantStated : data.get? "constant" = (constantMember constant).lookup "constant")
include operatorStorable typeStorable nonempty deep operatorStated typeStated textStated
  constantStated

theorem decodeUnary_answers {operand : Expr}
    (reads : (decodePart decode "operand" .operand place data).AnswersUnless excuse start operand
      final) :
    (decodeUnary decode budget place data).AnswersUnless excuse start
      (.unary resolution.catalogued operand type text constant) final := by
  have operatorReads := (nodeOperator_answers place operatorStorable operatorStated).mono deep
  have typeReads :=
    (operatorNodeType_answers place typeStorable typeStated resolution.catalogued).mono deep
  refine .seq (Decoder.answers_lift operatorReads start) (.seq reads ?_)
  refine .seq (Decoder.answers_lift typeReads final) ?_
  rw [nodeConstant_answers place constantStated, statedText?_getD textStated (Or.inl nonempty)]
  exact Or.inl rfl

theorem decodeBinary_answers {left right : Expr}
    (leftReads : (decodePart decode "left" .left place data).AnswersUnless excuse start left middle)
    (rightReads : (decodePart decode "right" .right place data).AnswersUnless excuse middle right
      final) :
    (decodeBinary decode budget place data).AnswersUnless excuse start
      (.binary resolution.catalogued left right type text constant) final := by
  have operatorReads := (nodeOperator_answers place operatorStorable operatorStated).mono deep
  have typeReads :=
    (operatorNodeType_answers place typeStorable typeStated resolution.catalogued).mono deep
  refine .seq (Decoder.answers_lift operatorReads start) (.seq leftReads (.seq rightReads ?_))
  refine .seq (Decoder.answers_lift typeReads final) ?_
  rw [nodeConstant_answers place constantStated, statedText?_getD textStated (Or.inl nonempty)]
  exact Or.inl rfl

end Operators

theorem decodeReference_answers {declaration found : Declaration}
    (typeStorable : declaration.type.Storable) (nonempty : text.isTruthy = true)
    (deep : budget < declaration.type.levels → excuse)
    (typeStated : data.get? "type" = some declaration.type.toJson)
    (textStated : data.get? "text" = some text)
    (constantStated : data.get? "constant" = (constantMember constant).lookup "constant")
    (resolved : data.get? "resolved" = none)
    (nameStated : data.get? "name" = some declaration.name)
    (kindStated : data.get? "kind" = some (.str declaration.kind.name))
    (idStated : data.get? "id" = some (.int declaration.id))
    (declared : declare place (.id (.int declaration.id)) declaration.name declaration.kind
      declaration.type start = .ok found final) :
    (decodeReference budget place data).AnswersUnless excuse start
      (.reference (some found) declaration.type text constant) final := by
  have typeReads := (nodeType_answers place typeStorable typeStated).mono deep
  refine .seq (Decoder.answers_lift typeReads start) ?_
  rw [nodeConstant_answers place constantStated, resolved]
  have kindReads : decodeElementKind place data = .ok declaration.kind := by
    simp [decodeElementKind, kindStated]
  have reads : decodeDeclaration place declaration.type data = declare place
      (.id (.int declaration.id)) declaration.name declaration.kind declaration.type := by
    rw [decodeDeclaration, require_ok.mpr nameStated, kindReads, idStated]
    rfl
  refine .seq (Or.inl rfl) (.seq (Or.inl (reads ▸ declared)) ?_)
  rw [statedText?_getD textStated (Or.inl nonempty)]
  exact Or.inl rfl

theorem decodeUnmodelled_answers {shape : Shape} {items : List Json} {children : List Expr}
    (typeStorable : type.Storable) (deep : budget < type.levels → excuse)
    (shapeStated : data.get? "shape" = some (.str shape.name))
    (typeStated : data.get? "type" = some type.toJson)
    (childrenStated : data.get? "children" = some (.arr items))
    (textStated : data.get? "text" = some text)
    (constantStated : data.get? "constant" = (constantMember constant).lookup "constant")
    (reads : (decodeChildren decode place 0 items).AnswersUnless excuse start children final) :
    (decodeUnmodelled decode budget place data).AnswersUnless excuse start
      (.unmodelled shape type text children constant) final := by
  have shapeReads : decodeShape place data = .ok shape := by
    simp [decodeShape, shapeStated]
  have itemsRead : childrenOf data = .ok items := by
    rw [childrenOf, childrenStated]
  have typeReads := (nodeType_answers place typeStorable typeStated).mono deep
  rw [decodeUnmodelled, shapeReads, itemsRead]
  refine .seq (Or.inl rfl) (.seq (Decoder.answers_lift typeReads start) ?_)
  refine .seq (Or.inl rfl) (.seq reads ?_)
  rw [nodeConstant_answers place constantStated, require_ok.mpr textStated]
  exact Or.inl rfl

end Parts

/-! ## Nodes -/

namespace Expr

theorem levels_large (node : Expr) : 3 < node.levels := by
  induction node using treeInduction with
  | literal constant type text | reference declaration type text constant =>
      have := type.levels_pos
      rw [levels]
      omega
  | unary operator operand type text constant ih =>
      rw [levels]
      omega
  | binary operator left right type text constant leftIh rightIh =>
      rw [levels]
      omega
  | unmodelled shape type text children constant ih =>
      have := type.levels_pos
      rw [levels]
      omega

/-- Whether a document keeps the text of a node.  An empty one is made up again, which
gives it back only for a literal that is written as nothing. -/
def KeepsText : Expr → Prop
  | literal constant type text => text.isTruthy = true ∨ literalText constant.value type = text
  | node => node.text.isTruthy = true

end Expr

section Members

variable (budget : Nat) (place : Place) (members : List (String × Json))

theorem decodeNode_literal :
    decodeNode (budget + 3) place (.obj (("node", .str "literal") :: members)) =
      Decoder.lift (decodeLiteral budget place (.obj (("node", .str "literal") :: members))) := by
  rw [decodeNode]
  rfl

theorem decodeNode_reference :
    decodeNode (budget + 3) place (.obj (("node", .str "variable") :: members)) =
      decodeReference budget place (.obj (("node", .str "variable") :: members)) := by
  rw [decodeNode]
  rfl

theorem decodeNode_unary :
    decodeNode (budget + 3) place (.obj (("node", .str "unary") :: members)) =
      decodeUnary (decodeNode (budget + 1)) budget place
        (.obj (("node", .str "unary") :: members)) := by
  rw [decodeNode]
  rfl

theorem decodeNode_binary :
    decodeNode (budget + 3) place (.obj (("node", .str "binary") :: members)) =
      decodeBinary (decodeNode (budget + 1)) budget place
        (.obj (("node", .str "binary") :: members)) := by
  rw [decodeNode]
  rfl

theorem decodeNode_unmodelled :
    decodeNode (budget + 3) place (.obj (("node", .str "unsupported") :: members)) =
      decodeUnmodelled (decodeNode budget) budget place
        (.obj (("node", .str "unsupported") :: members)) := by
  rw [decodeNode]
  rfl

end Members

section Documents

variable {all : List Declaration}
  (coherent : ∀ first ∈ all, ∀ second ∈ all, first.id = second.id → first = second)
  (start : Nat)

/-- What reading a node back means, for every place it may stand at: after the references
of the nodes before it, the node is found with its declarations numbered anew. -/
def ReadsBack (all : List Declaration) (start : Nat) (node : Expr) : Prop :=
  ∀ budget place seen, seen ++ node.declarations <+: all →
    (decodeNode budget place node.toJson).AnswersUnless (budget < node.levels)
      (.enrolled start all seen)
      (node.relabel (Declaration.renumber (renumbering start all)) Resolution.catalogued)
      (.enrolled start all (seen ++ node.declarations))

/-- With fewer than three levels no node is read. -/
theorem ReadsBack.of_levels {node : Expr}
    (reads : ∀ budget place seen, seen ++ node.declarations <+: all →
      (decodeNode (budget + 3) place node.toJson).AnswersUnless (budget + 3 < node.levels)
        (.enrolled start all seen)
        (node.relabel (Declaration.renumber (renumbering start all)) Resolution.catalogued)
        (.enrolled start all (seen ++ node.declarations))) : ReadsBack all start node := by
  intro budget place seen within
  have large := node.levels_large
  match budget with
  | 0 | 1 | 2 => exact Or.inr ⟨by omega, _, rfl⟩
  | budget + 3 => exact reads budget place seen within

theorem literal_readsBack {constant : Constant} {type : SourceType} {text : Json}
    (storable : (Expr.literal constant type text).StorableNode)
    (kept : (Expr.literal constant type text).KeepsText) :
    ReadsBack all start (.literal constant type text) := by
  refine .of_levels start fun budget place seen within => ?_
  rw [Expr.declarations_literal, List.append_nil, Expr.relabel, Expr.toJson, decodeNode_literal]
  refine Decoder.answers_lift ?_ _
  unfold decodeLiteral
  rw [require_ok.mpr rfl]
  refine ((literalNodeType_answers place storable rfl _).mono ?_).seq ?_
  · intro deep
    rw [Expr.levels]
    omega
  · refine Or.inl ?_
    rw [statedText?_getD rfl kept]
    simp [kindCode, decodeKind, Json.get?, List.lookup_cons, bind, Except.bind, pure, Except.pure]

theorem unresolved_readsBack {type : SourceType} {text : Json} {constant : Option Constant}
    (storable : (Expr.reference none type text constant).StorableNode) :
    ReadsBack all start (.reference none type text constant) := by
  refine .of_levels start fun budget place seen within => ?_
  rw [Expr.declarations_reference, Option.toList_none, List.append_nil, Expr.relabel, Expr.toJson,
    List.cons_append, decodeNode_reference]
  refine .seq (Decoder.answers_lift ((nodeType_answers place storable.1 rfl).mono ?_) _) ?_
  · intro deep
    rw [Expr.levels]
    omega
  · rw [nodeConstant_answers place rfl]
    exact Or.inl rfl

theorem unary_readsBack {operator : Resolution} {operand : Expr} {type : SourceType}
    {text : Json} {constant : Option Constant}
    (storable : (Expr.unary operator operand type text constant).StorableNode)
    (kept : (Expr.unary operator operand type text constant).KeepsText)
    (reads : ReadsBack all start operand) :
    ReadsBack all start (.unary operator operand type text constant) := by
  refine .of_levels start fun budget place seen within => ?_
  have large := operand.levels_large
  rw [Expr.levels, Expr.relabel, Expr.toJson, List.cons_append, decodeNode_unary]
  have below := reads (budget + 1) (place.push .operand) seen within
  exact decodeUnary_answers storable.1 storable.2 kept (by omega) rfl rfl rfl rfl
    (decodePart_answers rfl (below.mono (by omega)))

theorem binary_readsBack {operator : Resolution} {left right : Expr} {type : SourceType}
    {text : Json} {constant : Option Constant}
    (storable : (Expr.binary operator left right type text constant).StorableNode)
    (kept : (Expr.binary operator left right type text constant).KeepsText)
    (leftReads : ReadsBack all start left) (rightReads : ReadsBack all start right) :
    ReadsBack all start (.binary operator left right type text constant) := by
  refine .of_levels start fun budget place seen within => ?_
  have large := left.levels_large
  rw [Expr.declarations_binary, ← List.append_assoc] at within ⊢
  rw [Expr.levels, Expr.relabel, Expr.toJson, List.cons_append, decodeNode_binary]
  have first := leftReads (budget + 1) (place.push .left) seen
    ((List.prefix_append _ _).trans within)
  have second := rightReads (budget + 1) (place.push .right) _ within
  exact decodeBinary_answers storable.1 storable.2 kept (by omega) rfl rfl rfl rfl
    (decodePart_answers rfl (first.mono (by omega)))
    (decodePart_answers rfl (second.mono (by omega)))

theorem children_readBack {children : List Expr}
    (reads : ∀ child ∈ children, ReadsBack all start child) (budget : Nat) (place : Place) :
    ∀ index seen, seen ++ children.flatMap Expr.declarations <+: all →
      (decodeChildren (decodeNode budget) place index (Expr.toJsons children)).AnswersUnless
        (budget < Expr.levelsAll children) (.enrolled start all seen)
        (Expr.relabels (Declaration.renumber (renumbering start all)) Resolution.catalogued children)
        (.enrolled start all (seen ++ children.flatMap Expr.declarations)) := by
  induction children with
  | nil =>
      intro index seen within
      rw [List.flatMap_nil, List.append_nil]
      exact Or.inl rfl
  | cons child rest ih =>
      intro index seen within
      rw [List.flatMap_cons, ← List.append_assoc] at within ⊢
      rw [List.forall_mem_cons] at reads
      have first := reads.1 budget (place.push (.child index)) seen
        ((List.prefix_append _ _).trans within)
      have others := ih reads.2 (index + 1) _ within
      rw [Expr.levelsAll]
      exact .seq (first.mono (by omega)) (.seq (others.mono (by omega)) (Or.inl rfl))

theorem unmodelled_readsBack {shape : Shape} {type : SourceType} {text : Json}
    {children : List Expr} {constant : Option Constant}
    (storable : (Expr.unmodelled shape type text children constant).StorableNode)
    (reads : ∀ child ∈ children, ReadsBack all start child) :
    ReadsBack all start (.unmodelled shape type text children constant) := by
  refine .of_levels start fun budget place seen within => ?_
  rw [Expr.declarations_unmodelled] at within ⊢
  rw [Expr.levels, Expr.relabel, Expr.toJson, List.cons_append, decodeNode_unmodelled]
  refine decodeUnmodelled_answers storable (by omega) rfl rfl rfl rfl rfl ?_
  exact (children_readBack start reads budget place 0 seen within).mono (by omega)

include coherent

theorem reference_readsBack {declaration : Declaration} {type : SourceType} {text : Json}
    {constant : Option Constant}
    (storable : (Expr.reference (some declaration) type text constant).StorableNode)
    (kept : (Expr.reference (some declaration) type text constant).KeepsText) :
    ReadsBack all start (.reference (some declaration) type text constant) := by
  obtain ⟨typeStorable, typed⟩ := storable
  obtain rfl : declaration.type = type := typed declaration rfl
  refine .of_levels start fun budget place seen within => ?_
  rw [Expr.declarations_reference, Option.toList_some] at within ⊢
  have declared := declare_enrolled coherent place start within
  rw [Expr.levels, Expr.relabel, Expr.toJson, List.cons_append, decodeNode_reference]
  exact decodeReference_answers typeStorable kept (by omega) rfl rfl rfl
    (by cases constant <;> rfl) rfl rfl rfl declared

/-- Every node of a storable tree whose texts are kept is read back. -/
theorem decodeNode_toJson {node : Expr} (storable : node.Everywhere Expr.StorableNode)
    (kept : node.Everywhere Expr.KeepsText) : ReadsBack all start node := by
  induction node using Expr.treeInduction with
  | literal constant type text =>
      rw [Expr.everywhere_literal] at storable kept
      exact literal_readsBack start storable kept
  | reference declaration type text constant =>
      rw [Expr.everywhere_reference] at storable kept
      cases declaration with
      | none => exact unresolved_readsBack start storable
      | some declaration => exact reference_readsBack coherent start storable kept
  | unary operator operand type text constant ih =>
      rw [Expr.everywhere_unary] at storable kept
      exact unary_readsBack start storable.1 kept.1 (ih storable.2 kept.2)
  | binary operator left right type text constant leftIh rightIh =>
      rw [Expr.everywhere_binary] at storable kept
      exact binary_readsBack start storable.1 kept.1 (leftIh storable.2.1 kept.2.1)
        (rightIh storable.2.2 kept.2.2)
  | unmodelled shape type text children constant ih =>
      rw [Expr.everywhere_unmodelled] at storable kept
      exact unmodelled_readsBack start storable.1 fun child member =>
        ih child member (storable.2 child member) (kept.2 child member)

end Documents

/-! ## Whole trees -/

/-- What the catalogue keeps of a storable operator: all but a result type of its own. -/
theorem Operator.Storable.catalogued_eq_self {operator : Operator} (storable : operator.Storable) :
    operator.catalogued = operator ↔
      ∀ tag, operator.tag = some tag → operator.returnType = tag.signature.result := by
  obtain ⟨name, result, tag, isPredefined⟩ := operator
  obtain ⟨-, tagged⟩ := storable
  cases tag with
  | none => simp [catalogued]
  | some tag =>
      cases isPredefined with
      | false => cases tagged
      | true =>
          have named : tag.name = name := Tag.name_of_ofName? tagged.symm
          subst named
          simp only [catalogued, Operator.predefined, Operator.mk.injEq, true_and, and_true,
            Option.some_inj, forall_eq']
          exact eq_comm

namespace Expr

theorem StorableNode.operator {node : Expr} (storable : node.StorableNode)
    {resolution : Resolution} (resolved : node.operator? = some resolution) :
    resolution.Storable := by
  cases node with
  | literal constant type text => cases resolved
  | reference declaration type text constant => cases resolved
  | unary operator operand type text constant =>
      cases resolved
      exact storable.1
  | binary operator left right type text constant =>
      cases resolved
      exact storable.1
  | unmodelled shape type text children constant => cases resolved

theorem StorableNode.catalogued_iff {node : Expr} (storable : node.StorableNode) :
    (∀ resolution ∈ node.operator?, resolution.catalogued = id resolution) ↔
      ∀ operator tag, node.operator? = some (.resolved operator) → operator.tag = some tag →
        operator.returnType = tag.signature.result := by
  constructor
  · intro agree operator tag resolved tagged
    have same := Resolution.resolved.inj (agree _ resolved)
    exact (storable.operator resolved).catalogued_eq_self.mp same tag tagged
  · intro declared resolution resolved
    cases resolution with
    | resolved operator =>
        have same := (storable.operator resolved).catalogued_eq_self.mpr fun tag =>
          declared operator tag resolved
        exact congrArg Resolution.resolved same
    | ambiguous => rfl
    | unresolved => rfl

/-- A storable tree is read back with its declarations numbered anew and its operators as
the catalogue has them, unless it is nested too deeply for the decoder. -/
theorem ofJson_toJson [Limits] {tree : Expr} (storable : tree.Storable)
    (kept : tree.Everywhere KeepsText) (start : Nat) :
    (∃ number : Nat → Nat, Function.Injective number ∧ ∃ next,
      ofJson tree.toJson start =
        (.ok (tree.relabel (Declaration.renumber number) Resolution.catalogued), next)) ∨
    (Limits.decoding < tree.levels ∧ ∃ next, ofJson tree.toJson start = (.error .tooDeep, next)) := by
  have reads := decodeNode_toJson storable.coherent start storable.nodes kept Limits.decoding
    .document
    [] List.prefix_rfl
  -- before the first node nothing has been seen
  have fresh : Declarations.enrolled start tree.declarations [] = ⟨[], start⟩ := rfl
  rw [fresh] at reads
  rcases reads with run | ⟨deep, last, run⟩
  · refine Or.inl ⟨renumbering start tree.declarations, numbering_injective _ _,
      (Declarations.enrolled start tree.declarations tree.declarations).next, ?_⟩
    rw [ofJson, EStateM.run, run]
    rfl
  · refine Or.inr ⟨deep, last.next, ?_⟩
    rw [ofJson, EStateM.run, run]

/-- A decoded tree is read back from its own document, and comes back the same but for the
numbers exactly when its tagged operators are declared to return what their signatures say. -/
theorem decoded_tree_reads_back [Limits] {data : Json} {next later : Nat} {tree : Expr}
    (accepted : ofJson data next = (.ok tree, later))
    (texts : tree.Everywhere (·.text.isTruthy = true))
    (start : Nat) :
    ∃ reloaded last, ofJson tree.toJson start = (.ok reloaded, last) ∧
      (∃ number : Nat → Nat, Function.Injective number ∧
        reloaded = tree.relabel (Declaration.renumber number) Resolution.catalogued) ∧
      (tree.RenumbersTo reloaded ↔ tree.Everywhere fun node => ∀ operator tag,
        node.operator? = some (.resolved operator) → operator.tag = some tag →
          operator.returnType = tag.signature.result) := by
  obtain ⟨storable, nested⟩ := ofJson_ok accepted
  have kept : tree.Everywhere KeepsText := by
    intro node member
    have nonempty := texts node member
    cases node with
    | literal constant type text => exact Or.inl nonempty
    | _ => exact nonempty
  rcases ofJson_toJson storable kept start with ⟨number, injective, last, reads⟩ | ⟨deep, -⟩
  · refine ⟨_, last, reads, ⟨number, injective, rfl⟩, ?_⟩
    constructor
    · rintro ⟨other, -, same⟩ node member
      exact (storable.nodes node member).catalogued_iff.mp (operators_of_relabel_eq same node member)
    · intro declared
      refine ⟨number, injective, relabel_congr_operators fun node member => ?_⟩
      exact (storable.nodes node member).catalogued_iff.mpr (declared node member)
  · omega

def doubledDocument : Json :=
  let x : Json := .obj [("node", .str "variable"), ("name", .str "x"), ("type", .str "int")]
  .obj [("node", .str "binary"), ("operator", .str "BinaryPlusInt"), ("left", x), ("right", x)]

def doubledTree : Expr :=
  let x : Expr := .reference (some ⟨"x", .localVariable, .int, 1⟩) .int "x" none
  .binary (.ofTag (.arithmetic .plus .int)) x x .int "x + x" none

theorem decoded_tree_reads_back_doubled :
    ofJson doubledDocument 1 = (.ok doubledTree, 2) ∧
    doubledTree.Everywhere (·.text.isTruthy = true) ∧
      ∃ reloaded last, ofJson doubledTree.toJson 2 = (.ok reloaded, last) ∧
        doubledTree.RenumbersTo reloaded := by
  have accepted : ofJson doubledDocument 1 = (.ok doubledTree, 2) := rfl
  have texts : doubledTree.Everywhere (·.text.isTruthy = true) := by
    simp [doubledTree, text, Json.isTruthy]
  obtain ⟨reloaded, last, reads, -, same⟩ := decoded_tree_reads_back accepted texts 2
  refine ⟨accepted, texts, reloaded, last, reads, same.mpr ?_⟩
  simp only [doubledTree, everywhere_binary, everywhere_reference, operator?, Resolution.ofTag]
  refine ⟨?_, by simp, by simp⟩
  rintro operator tag ⟨⟩ ⟨⟩
  rfl

def declaredSum (result : SourceType) (id : Nat) : Expr :=
  .binary (.resolved ⟨"BinaryPlusInt", result, some (.arithmetic .plus .int), true⟩)
    (.reference (some ⟨"x", .localVariable, .int, id⟩) .int "x" none)
    (.literal ⟨.int 1, .int⟩ .int "1") .int "x + 1" none

/-- A sum that is declared to return a truth value comes back as one that returns an `int`. -/
theorem declared_result_is_lost :
    ofJson (.obj [("node", .str "binary"),
        ("operator", .obj [("name", .str "BinaryPlusInt"), ("return_type", .str "bool")]),
        ("left", .obj [("node", .str "variable"), ("name", .str "x"), ("kind", .str "local"),
          ("type", .str "int")]),
        ("right", .obj [("node", .str "literal"), ("value", .int 1), ("type", .str "int")]),
        ("type", .str "int")]) 1 = (.ok (declaredSum .bool 1), 2) ∧
      (declaredSum .bool 1).Everywhere (·.text.isTruthy = true) ∧
      ofJson (declaredSum .bool 1).toJson 2 = (.ok (declaredSum .int 2), 3) ∧
      ¬ (declaredSum .bool 1).RenumbersTo (declaredSum .int 2) := by
  refine ⟨rfl, by simp [declaredSum, text, Json.isTruthy], rfl, ?_⟩
  rintro ⟨number, -, same⟩
  simp [declaredSum, relabel, SourceType.int, SourceType.bool, SourceType.ofKind] at same

end Expr

end CondSat.Source
