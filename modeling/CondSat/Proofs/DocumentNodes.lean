import CondSat.Proofs.DeclarationKeys
import CondSat.Proofs.Decoding
import Mathlib.Data.Option.Basic

/-! # The nodes of a document

A position is a path through the parts of nodes: operands and children.  `nodeAt?` is
the document at a position, `Expr.at?` the node of a tree there.  What a document says
about a declaration at one of its references is a `Mention`, and it does not depend on
the rest of the document.

Decoding one node adds the declarations that are mentioned in it and no others.  The
tree it gives has the positions of the document, and the reference at each of them
resolves to what the declarations hold for the key of its mention; since declarations
are only ever added at the end, this stays so for the rest of the document. -/
set_option autoImplicit false
namespace CondSat

/-! ## Nesting of values -/

namespace Json

mutual

def nesting : Json → Nat
  | .arr items => nestingItems items + 1
  | .obj members => nestingMembers members + 1
  | _ => 0

def nestingItems : List Json → Nat
  | [] => 0
  | item :: rest => max (nesting item) (nestingItems rest)

def nestingMembers : List (String × Json) → Nat
  | [] => 0
  | (_, value) :: rest => max (nesting value) (nestingMembers rest)

end

theorem nesting_lt_of_mem {items : List Json} {item : Json} (member : item ∈ items) :
    item.nesting < (arr items).nesting := by
  rw [nesting, Nat.lt_succ_iff]
  induction items with
  | nil => cases member
  | cons first rest ih =>
      rw [nestingItems]
      rcases List.mem_cons.mp member with rfl | later
      · exact le_max_left _ _
      · exact le_trans (ih later) (le_max_right _ _)

theorem nesting_lt_of_get? {data value : Json} {key : String} (found : data.get? key = some value) :
    value.nesting < data.nesting := by
  cases data with
  | obj members =>
      rw [nesting, Nat.lt_succ_iff]
      rw [get?] at found
      induction members with
      | nil => cases found
      | cons first rest ih =>
          rw [nestingMembers]
          rw [List.lookup_cons] at found
          split at found
          · cases found
            exact le_max_left _ _
          · exact le_trans (ih found) (le_max_right _ _)
  | _ => cases found

end Json

namespace Source

/-! ## Positions -/

def Step.holder? : Step → Option String
  | left | right => some "binary"
  | operand => some "unary"
  | child _ => some "unsupported"
  | operator | returnType | type | underlying | constant => none

def nodePart? (step : Step) (data : Json) : Option Json :=
  match step.holder? with
  | some name => if data.get? "node" = some (.str name) then step.follow? data else none
  | none => none

def nodeAt? : List Step → Json → Option Json
  | [], data => some data
  | step :: rest, data => (nodePart? step data).bind (nodeAt? rest)

def Step.rank : Step → Nat
  | right => 1
  | child index => index
  | _ => 0

/-- Whether a position is read before another: where they part, it goes into an earlier part. -/
def Precedes : List Step → List Step → Prop
  | step :: rest, other :: otherRest =>
      step.rank < other.rank ∨ step = other ∧ Precedes rest otherRest
  | _, _ => False

namespace Expr

def part? : Step → Expr → Option Expr
  | .operand, unary _ operand _ _ _ => some operand
  | .left, binary _ left _ _ _ _ => some left
  | .right, binary _ _ right _ _ _ => some right
  | .child index, unmodelled _ _ _ children _ => children[index]?
  | _, _ => none

def at? : List Step → Expr → Option Expr
  | [], node => some node
  | step :: rest, node => (node.part? step).bind (at? rest)

theorem exists_at?_of_mem_declarations (root : Expr) {declaration : Declaration}
    (used : declaration ∈ root.declarations) :
    ∃ steps, (root.at? steps).bind declaration? = some declaration := by
  induction root using treeInduction with
  | literal => simp at used
  | reference known type text constant =>
      rw [declarations_reference, Option.mem_toList] at used
      exact ⟨[], used⟩
  | unary operator operand type text constant ih =>
      obtain ⟨steps, found⟩ := ih used
      exact ⟨.operand :: steps, found⟩
  | binary operator left right type text constant leftIh rightIh =>
      rw [declarations_binary, List.mem_append] at used
      rcases used with onLeft | onRight
      · obtain ⟨steps, found⟩ := leftIh onLeft
        exact ⟨.left :: steps, found⟩
      · obtain ⟨steps, found⟩ := rightIh onRight
        exact ⟨.right :: steps, found⟩
  | unmodelled shape type text children constant ih =>
      rw [declarations_unmodelled] at used
      obtain ⟨child, member, inside⟩ := List.mem_flatMap.mp used
      obtain ⟨steps, found⟩ := ih child member inside
      obtain ⟨index, here⟩ := List.mem_iff_getElem?.mp member
      refine ⟨.child index :: steps, ?_⟩
      simpa [at?, part?, here] using found

end Expr

theorem nodePart?_eq_follow? {step : Step} {data : Json} {name : String}
    (holder : step.holder? = some name) (named : data.get? "node" = some (.str name)) :
    nodePart? step data = step.follow? data := by
  simp [nodePart?, holder, named]

theorem nodePart?_eq_none {step : Step} {data : Json} {name : String}
    (named : data.get? "node" = some (.str name)) (other : step.holder? ≠ some name) :
    nodePart? step data = none := by
  unfold nodePart?
  split
  · next held holder =>
      rw [if_neg]
      rw [named, Option.some_inj]
      rintro ⟨⟩
      exact other holder
  · rfl

/-- Children that are given as a list are those of the document; else they are texts, and
have no members. -/
theorem follow?_child {data item : Json} {items : List Json} {index : Nat}
    (children : childrenOf data = .ok items) (found : items[index]? = some item) :
    (Step.child index).follow? data = some item ∨ ∀ key, item.get? key = none := by
  rw [Step.follow?]
  unfold childrenOf at children
  split at children
  · cases children
    cases found
  · next stated =>
      cases children
      rw [stated]
      exact Or.inl found
  · cases children
    obtain ⟨c, -, rfl⟩ := List.mem_map.mp (List.mem_of_getElem? found)
    exact Or.inr fun _ => rfl
  · cases children
    obtain ⟨mark, -, rfl⟩ := List.mem_map.mp (List.mem_of_getElem? found)
    refine Or.inr fun _ => ?_
    unfold Json.ofMarks
    split <;> rfl
  · cases children
    obtain ⟨entry, -, rfl⟩ := List.mem_map.mp (List.mem_of_getElem? found)
    exact Or.inr fun _ => rfl
  · cases children

/-- No child is missed: those of the document are among the ones that are decoded. -/
theorem getElem?_of_follow?_child {data item : Json} {items : List Json} {index : Nat}
    (children : childrenOf data = .ok items) (found : (Step.child index).follow? data = some item) :
    items[index]? = some item := by
  rw [Step.follow?] at found
  split at found
  · next stated =>
      rw [childrenOf, stated] at children
      cases children
      exact found
  · cases found

/-! ## What a node says -/

def isReference (data : Json) : Bool :=
  data.get? "node" == some (.str "variable") &&
    ((data.get? "resolved").map Json.isTruthy).getD true

/-- Whether a node has a member that cannot serve as what it is needed for. -/
def isMisfit (data : Json) : Bool :=
  isReference data && ((data.get? "id").or (data.get? "name")).any (!isLookupKey ·) ||
    data.get? "node" == some (.str "unsupported") && (data.get? "children").any fun value =>
      match value with
      | .arr _ | .str _ | .torn _ | .obj _ => false
      | _ => true

def HasMisfit (data : Json) : Prop := ∃ steps, (nodeAt? steps data).any isMisfit = true

/-- The kind of declaration a reference states; a local variable when it states none. -/
def statedKind? (data : Json) : Option ElementKind :=
  match data.get? "kind" with
  | none => some .localVariable
  | some (.str name) => ElementKind.ofName? name
  | some _ => none

def statedType? (data : Json) : Option SourceType :=
  (decodeType (data.nesting + 1) .document data).toOption

/-- What a reference says about its declaration. -/
structure Mention where
  key : DeclarationKey
  name : Json
  kind : ElementKind
  type : SourceType
  deriving DecidableEq, Repr

/-- The mention of a node: the key is the id, or the name and the kind without one. -/
def mention? (data : Json) : Option Mention := do
  guard (isReference data)
  let name ← data.get? "name"
  let kind ← statedKind? data
  let type ← (data.get? "type").bind statedType?
  match data.get? "id" with
  | some id => some ⟨.id id, name, kind, type⟩
  | none => some ⟨.named name kind, name, kind, type⟩

/-- A type is the same wherever it stands, as long as there are levels enough for it. -/
theorem decodeType_of_nesting {budget other : Nat} {place there : Place} {data : Json}
    {type : SourceType} (decoded : decodeType budget place data = .ok type)
    (enough : data.nesting < other) : decodeType other there data = .ok type := by
  induction budget generalizing other place there data type with
  | zero => cases decoded
  | succ budget ih =>
      obtain ⟨other, rfl⟩ : ∃ k, other = k + 1 := ⟨other - 1, by omega⟩
      cases data with
      | str name =>
          rw [decodeType] at decoded ⊢
          cases found : SourceType.primitive? name with
          | some primitive =>
              rw [found] at decoded
              exact decoded
          | none =>
              rw [found] at decoded
              dsimp only at decoded ⊢
              split at decoded
              · next named => rw [if_pos named]; exact decoded
              · cases decoded
      | obj members =>
          have below : ∀ {key : String} {value : Json},
              (Json.obj members).get? key = some value → value.nesting < other := by
            intro key value found
            have := Json.nesting_lt_of_get? found
            omega
          rw [decodeType] at decoded ⊢
          obtain ⟨kind, stated, decoded⟩ := bind_ok decoded
          have kindStated := require_ok.mp stated
          rw [require_ok.mpr kindStated]
          change (if kind = .str "enum" then _ else _) = _ at decoded ⊢
          by_cases enum : kind = .str "enum"
          · rw [if_pos enum] at decoded ⊢
            obtain ⟨underlying, inner, decoded⟩ := bind_ok decoded
            obtain ⟨name, named, decoded⟩ := bind_ok decoded
            have innerNesting : (((Json.obj members).get? "underlying").getD (.str "int")).nesting
                < other := by
              cases given : (Json.obj members).get? "underlying" with
              | some value => exact below given
              | none =>
                  have := below kindStated
                  simp only [Option.getD_none, Json.nesting]
                  omega
            have nameStated := require_ok.mp named
            rw [ih inner innerNesting, require_ok.mpr nameStated]
            exact congrArg (atPlace there) (atPlace_ok decoded)
          · rw [if_neg enum] at decoded ⊢
            by_cases open' : kind = .str "other"
            · rw [if_pos open'] at decoded ⊢
              exact congrArg (atPlace there) (atPlace_ok decoded)
            · rw [if_neg open'] at decoded ⊢
              exact ih decoded (below kindStated)
      | _ => cases decoded

theorem statedType?_eq {budget : Nat} {place : Place} {data : Json} {type : SourceType}
    (decoded : decodeType budget place data = .ok type) : statedType? data = some type := by
  rw [statedType?, decodeType_of_nesting decoded (Nat.lt_succ_self _)]
  rfl

theorem statedKind?_eq {place : Place} {data : Json} {kind : ElementKind}
    (decoded : decodeElementKind place data = .ok kind) : statedKind? data = some kind := by
  unfold decodeElementKind at decoded
  unfold statedKind?
  cases stated : data.get? "kind" with
  | none =>
      rw [stated] at decoded
      cases decoded
      rfl
  | some shown =>
      rw [stated] at decoded
      cases shown with
      | str name =>
          dsimp only at decoded ⊢
          cases found : ElementKind.ofName? name with
          | none => rw [found] at decoded; cases decoded
          | some known => rw [found] at decoded; cases decoded; rfl
      | _ => cases decoded

/-! ## Declarations and mentions -/

def Declarations.find? (state : Declarations) (key : DeclarationKey) : Option Declaration :=
  (state.known.find? (·.1.same key)).map (·.2)

theorem Declarations.exists_entry {state : Declarations} {key : DeclarationKey}
    {declaration : Declaration} (found : state.find? key = some declaration) :
    ∃ entry ∈ state.known, entry.1.same key = true ∧ entry.2 = declaration := by
  obtain ⟨entry, first, same⟩ := Option.map_eq_some_iff.mp found
  exact ⟨entry, List.mem_of_find?_eq_some first, by simpa using List.find?_some first, same⟩

/-- The declaration of a reference: the one for the key of its mention, under the name
and the type of the mention. -/
def Declarations.Resolves (state : Declarations) (data : Json) (declaration : Declaration) : Prop :=
  ∃ mention, mention? data = some mention ∧ state.find? mention.key = some declaration ∧
    declaration.name = mention.name ∧ declaration.type = mention.type

/-- What the tree has at a position for what the document has there. -/
structure Declarations.Renders (state : Declarations) (data : Json) (node : Expr) : Prop where
  isNode : (data.get? "node").isSome = true
  fits : isMisfit data = false
  reference : isReference data = node.declaration?.isSome
  resolves : ∀ declaration ∈ node.declaration?, state.Resolves data declaration

def Declarations.RendersTree (state : Declarations) (data : Json) (root : Expr) : Prop :=
  ∀ steps, Option.Rel state.Renders (nodeAt? steps data) (root.at? steps)

def NewAt (data : Json) (key : DeclarationKey) (steps : List Step) : Prop :=
  ∀ earlier mention, Precedes earlier steps → (nodeAt? earlier data).bind mention? = some mention →
    mention.key.same key = false

/-- An entry of the declarations is what the first reference to it in the document says. -/
def Written (data : Json) (entry : DeclarationKey × Declaration) : Prop :=
  ∃ steps mention, (nodeAt? steps data).bind mention? = some mention ∧ mention.key = entry.1 ∧
    mention.name = entry.2.name ∧ mention.kind = entry.2.kind ∧ mention.type = entry.2.type ∧
    NewAt data entry.1 steps

def Declarations.Lacks (state : Declarations) (key : DeclarationKey) : Prop :=
  ∀ entry ∈ state.known, entry.1.same key = false

structure Enrolled (start : Declarations) (data : Json) (node : Expr) (final : Declarations) :
    Prop where
  grown : start.known <+: final.known
  rendered : final.RendersTree data node
  written : ∀ entry ∈ final.known, entry ∈ start.known ∨ start.Lacks entry.1 ∧ Written data entry

def Enrols (decode : Place → Json → Decoder Expr) : Prop :=
  ∀ place data start node final, decode place data start = .ok node final →
    Enrolled start data node final

theorem Declarations.find?_of_grown {state later : Declarations} {key : DeclarationKey}
    {declaration : Declaration} (grown : state.known <+: later.known)
    (found : state.find? key = some declaration) : later.find? key = some declaration := by
  obtain ⟨added, extended⟩ := grown
  obtain ⟨entry, first, rfl⟩ := Option.map_eq_some_iff.mp found
  rw [find?, ← extended, List.find?_append, first]
  rfl

theorem Declarations.Renders.later {state later : Declarations} {data : Json} {node : Expr}
    (grown : state.known <+: later.known) (renders : state.Renders data node) :
    later.Renders data node := by
  refine ⟨renders.isNode, renders.fits, renders.reference, ?_⟩
  intro declaration member
  obtain ⟨mention, mentioned, found, agrees⟩ := renders.resolves declaration member
  exact ⟨mention, mentioned, find?_of_grown grown found, agrees⟩

theorem Declarations.RendersTree.cases {state : Declarations} {data : Json} {root : Expr}
    (rendered : state.RendersTree data root) (steps : List Step) :
    (nodeAt? steps data = none ∧ root.at? steps = none) ∨
      ∃ part node, nodeAt? steps data = some part ∧ root.at? steps = some node ∧
        state.Renders part node := by
  have there := rendered steps
  generalize nodeAt? steps data = part at there ⊢
  generalize root.at? steps = node at there ⊢
  cases there with
  | none => exact Or.inl ⟨rfl, rfl⟩
  | some renders => exact Or.inr ⟨_, _, rfl, rfl, renders⟩

theorem Enrolled.renderedLater {start final later : Declarations} {data : Json} {node : Expr}
    (enrolled : Enrolled start data node final) (grown : final.known <+: later.known) :
    later.RendersTree data node := by
  intro steps
  rcases enrolled.rendered.cases steps with ⟨noPart, noNode⟩ | ⟨part, child, found, has, renders⟩
  · rw [noPart, noNode]
    exact .none
  · rw [found, has]
    exact .some (renders.later grown)

theorem isReference_of_mention? {data : Json} {mention : Mention}
    (mentioned : mention? data = some mention) : isReference data = true := by
  unfold mention? at mentioned
  cases reference : isReference data with
  | true => rfl
  | false =>
      rw [reference] at mentioned
      cases mentioned

/-- At every reference of the document the tree refers to the declaration for its key. -/
theorem Declarations.RendersTree.resolves {state : Declarations} {data : Json} {root : Expr}
    (rendered : state.RendersTree data root) {steps : List Step} {node : Json}
    (located : nodeAt? steps data = some node) (reference : isReference node = true) :
    ∃ declaration, (root.at? steps).bind Expr.declaration? = some declaration ∧
      state.Resolves node declaration := by
  rcases rendered.cases steps with ⟨nothing, -⟩ | ⟨part, child, found, has, renders⟩
  · rw [located] at nothing
    cases nothing
  · cases located.symm.trans found
    obtain ⟨declaration, declared⟩ :=
      Option.isSome_iff_exists.mp (renders.reference.symm.trans reference)
    rw [has]
    exact ⟨declaration, declared, renders.resolves declaration declared⟩

theorem Enrolled.not_same {start final : Declarations} {data : Json} {node : Expr}
    (enrolled : Enrolled start data node final) {key : DeclarationKey} (lacks : final.Lacks key)
    {steps : List Step} {mention : Mention}
    (mentioned : (nodeAt? steps data).bind mention? = some mention) :
    mention.key.same key = false := by
  obtain ⟨part, located, isMention⟩ := Option.bind_eq_some_iff.mp mentioned
  obtain ⟨declaration, -, other, stated, found, -⟩ :=
    enrolled.rendered.resolves located (isReference_of_mention? isMention)
  cases stated.symm.trans isMention
  obtain ⟨entry, known, keyed, -⟩ := Declarations.exists_entry found
  rw [Bool.eq_false_iff]
  intro same
  have different := lacks entry known
  rw [DeclarationKey.same_trans keyed same] at different
  cases different

/-- What is written in a part is written in the whole, unless an earlier part mentions it. -/
theorem Written.ofPart {data part : Json} {step : Step} {entry : DeclarationKey × Declaration}
    (found : nodePart? step data = some part)
    (new : ∀ other otherPart, other.rank < step.rank → nodePart? other data = some otherPart →
      ∀ steps mention, (nodeAt? steps otherPart).bind mention? = some mention →
        mention.key.same entry.1 = false)
    (written : Written part entry) : Written data entry := by
  obtain ⟨steps, mention, mentioned, key, name, kind, type, newInside⟩ := written
  have inside : ∀ other rest, nodeAt? (other :: rest) data =
      (nodePart? other data).bind (nodeAt? rest) := fun _ _ => rfl
  refine ⟨step :: steps, mention, ?_, key, name, kind, type, ?_⟩
  · rw [inside, found]
    exact mentioned
  · intro earlier mention' before mentioned'
    cases earlier with
    | nil => cases before
    | cons other rest =>
        rw [inside] at mentioned'
        rcases before with smaller | ⟨rfl, before⟩
        · cases there : nodePart? other data with
          | none =>
              rw [there] at mentioned'
              cases mentioned'
          | some otherPart =>
              rw [there] at mentioned'
              exact new other otherPart smaller there rest mention' mentioned'
        · rw [found] at mentioned'
          exact newInside rest mention' before mentioned'

theorem HasMisfit.ofPart {data part : Json} {step : Step} (found : nodePart? step data = some part)
    (misfit : HasMisfit part) : HasMisfit data := by
  obtain ⟨steps, here⟩ := misfit
  refine ⟨step :: steps, ?_⟩
  rw [nodeAt?, found]
  exact here

theorem rendered_of_parts {state : Declarations} {data : Json} {node : Expr}
    (here : state.Renders data node)
    (parts : ∀ step, (nodePart? step data = none ∧ node.part? step = none) ∨
      ∃ part child, nodePart? step data = some part ∧ node.part? step = some child ∧
        state.RendersTree part child) : state.RendersTree data node := by
  intro steps
  cases steps with
  | nil => exact .some here
  | cons step rest =>
      rw [nodeAt?, Expr.at?]
      rcases parts step with ⟨noPart, noChild⟩ | ⟨part, child, found, has, below⟩
      · rw [noPart, noChild]
        exact .none
      · rw [found, has]
        exact below rest

/-- A node that refers to nothing renders a document that does not either. -/
theorem Declarations.Renders.plain {state : Declarations} {data : Json} {node : Expr}
    {name : String} (named : data.get? "node" = some (.str name)) (other : name ≠ "variable")
    (fits : isMisfit data = false) (nothing : node.declaration? = none) :
    state.Renders data node := by
  refine ⟨by simp [named], fits, ?_, ?_⟩
  · rw [nothing, isReference, named]
    simp [other]
  · simp [nothing]

theorem isMisfit_eq_false {data : Json} {name : String}
    (named : data.get? "node" = some (.str name)) (first : name ≠ "variable")
    (second : name ≠ "unsupported") : isMisfit data = false := by
  rw [isMisfit, isReference, named]
  simp [first, second]

/-! ## Leaves -/

theorem nodePart?_leaf {data : Json} {name : String} (named : data.get? "node" = some (.str name))
    (leaf : name = "literal" ∨ name = "variable") (step : Step) : nodePart? step data = none := by
  refine nodePart?_eq_none named ?_
  rcases leaf with rfl | rfl <;> cases step <;> simp [Step.holder?]

theorem decodeLiteral_enrols {budget : Nat} {place : Place} {data : Json}
    {start final : Declarations} {node : Expr} (named : data.get? "node" = some (.str "literal"))
    (run : Decoder.lift (decodeLiteral budget place data) start = .ok node final) :
    Enrolled start data node final := by
  obtain ⟨decoded, rfl⟩ := Decoder.lift_ok.mp run
  obtain ⟨value, -, decoded⟩ := bind_ok decoded
  obtain ⟨type, -, decoded⟩ := bind_ok decoded
  obtain ⟨kind, -, decoded⟩ := bind_ok decoded
  cases decoded
  refine ⟨List.prefix_rfl, ?_, fun entry known => Or.inl known⟩
  refine rendered_of_parts ?_ fun step => Or.inl ⟨nodePart?_leaf named (Or.inl rfl) step, ?_⟩
  · exact .plain named (by decide) (isMisfit_eq_false named (by decide) (by decide)) rfl
  · cases step <;> rfl

/-- A declaration that is looked up is the known one for its key, or is added with what
the reference says. -/
theorem declare_enrols {place : Place} {key : DeclarationKey} {name : Json} {kind : ElementKind}
    {type : SourceType} {start final : Declarations} {declaration : Declaration}
    (run : declare place key name kind type start = .ok declaration final) :
    start.known <+: final.known ∧ final.find? key = some declaration ∧ declaration.name = name ∧
      declaration.type = type ∧
      ∀ entry ∈ final.known, entry ∈ start.known ∨
        start.Lacks key ∧ entry = (key, declaration) ∧ declaration.kind = kind := by
  rw [declare_apply] at run
  cases found : start.known.find? (·.1.same key) with
  | some entry =>
      rw [found] at run
      dsimp only at run
      split at run
      · next agrees =>
          cases run
          refine ⟨List.prefix_rfl, ?_, agrees.2, agrees.1, fun entry known => Or.inl known⟩
          rw [Declarations.find?, found]
          rfl
      · cases run
  | none =>
      rw [found] at run
      cases run
      refine ⟨List.prefix_append _ _, ?_, rfl, rfl, ?_⟩
      · simp [Declarations.find?, List.find?_append, found, key.same_refl]
      · intro entry member
        rcases List.mem_append.mp member with known | added
        · exact Or.inl known
        · refine Or.inr ⟨?_, List.mem_singleton.mp added, rfl⟩
          simpa [Declarations.Lacks] using List.find?_eq_none.mp found

theorem decodeDeclaration_enrols {place : Place} {type : SourceType} {data : Json}
    {start final : Declarations} {declaration : Declaration} (reference : isReference data = true)
    (typed : (data.get? "type").bind statedType? = some type)
    (run : decodeDeclaration place type data start = .ok declaration final) :
    start.known <+: final.known ∧ final.Resolves data declaration ∧ isMisfit data = false ∧
      ∀ entry ∈ final.known, entry ∈ start.known ∨
        start.Lacks entry.1 ∧ Written data entry := by
  unfold decodeDeclaration at run
  obtain ⟨name, named, run⟩ := Decoder.lift_bind_ok run
  obtain ⟨kind, kinded, run⟩ := Decoder.lift_bind_ok run
  dsimp only at run
  split at run
  · next lookup =>
      have nameStated := require_ok.mp named
      obtain ⟨grown, found, sameName, sameType, entries⟩ := declare_enrols run
      obtain ⟨mention, mentioned, keyed, called, ofKind, ofType⟩ :
          ∃ mention, mention? data = some mention ∧
            mention.key = (match data.get? "id" with
              | some value => .id value
              | none => .named name kind) ∧
            mention.name = name ∧ mention.kind = kind ∧ mention.type = type := by
        rw [mention?, reference, nameStated, statedKind?_eq kinded, typed]
        cases data.get? "id" with
        | some value => exact ⟨_, rfl, rfl, rfl, rfl, rfl⟩
        | none => exact ⟨_, rfl, rfl, rfl, rfl, rfl⟩
      refine ⟨grown, ⟨mention, mentioned, by rw [keyed]; exact found, by rw [sameName, called],
        by rw [sameType, ofType]⟩, ?_, ?_⟩
      · have isNode : data.get? "node" = some (.str "variable") := by
          have := (Bool.and_eq_true _ _ ▸ reference).1
          simpa using this
        rw [isMisfit, reference, isNode, nameStated]
        cases stated : data.get? "id" with
        | some value => rw [stated] at lookup; simpa using lookup
        | none => rw [stated] at lookup; simpa using lookup
      · intro entry member
        rcases entries entry member with known | ⟨lacks, rfl, isKind⟩
        · exact Or.inl known
        · refine Or.inr ⟨lacks, [], mention, mentioned, keyed, by rw [called, sameName],
            by rw [ofKind, isKind], by rw [ofType, sameType], ?_⟩
          intro earlier _ before
          cases earlier <;> cases before
  · cases run

theorem decodeReference_enrols {budget : Nat} {place : Place} {data : Json}
    {start final : Declarations} {node : Expr} (named : data.get? "node" = some (.str "variable"))
    (run : decodeReference budget place data start = .ok node final) :
    Enrolled start data node final := by
  obtain ⟨type, typed, run⟩ := Decoder.lift_bind_ok run
  obtain ⟨constant, -, run⟩ := Decoder.lift_bind_ok run
  have leaf : ∀ declaration text step,
      nodePart? step data = none ∧
        (Expr.reference declaration type text constant).part? step = none :=
    fun _ _ step => ⟨nodePart?_leaf named (Or.inr rfl) step, by cases step <;> rfl⟩
  split at run
  · next resolved =>
      have reference : isReference data = true := by simp [isReference, named, resolved]
      obtain ⟨stated, required, decoded⟩ := bind_ok typed
      have typeStated : (data.get? "type").bind statedType? = some type := by
        rw [require_ok.mp required]
        exact statedType?_eq decoded
      obtain ⟨declaration, middle, declared, run⟩ := Stateful.bind_ok run
      obtain ⟨rfl, rfl⟩ := Stateful.pure_ok.mp run
      obtain ⟨grown, resolves, fits, written⟩ :=
        decodeDeclaration_enrols reference typeStated declared
      refine ⟨grown, rendered_of_parts ?_ fun step => Or.inl (leaf _ _ step), written⟩
      refine ⟨by simp [named], fits, reference, ?_⟩
      rintro found ⟨⟩
      exact resolves
  · next unresolved =>
      obtain ⟨text, -, run⟩ := Decoder.lift_bind_ok run
      obtain ⟨rfl, rfl⟩ := Stateful.pure_ok.mp run
      have reference : isReference data = false := by simpa [isReference, named] using unresolved
      refine ⟨List.prefix_rfl, rendered_of_parts ?_ fun step => Or.inl (leaf _ _ step),
        fun entry known => Or.inl known⟩
      refine ⟨by simp [named], ?_, reference, by simp [Expr.declaration?]⟩
      rw [isMisfit, reference, named]
      rfl

/-! ## Nodes with parts -/

theorem decodePart_enrols {decode : Place → Json → Decoder Expr} (enrols : Enrols decode)
    {key : String} {step : Step} {place : Place} {data : Json} {start final : Declarations}
    {node : Expr} (run : decodePart decode key step place data start = .ok node final) :
    ∃ part, data.get? key = some part ∧ Enrolled start part node final := by
  obtain ⟨part, required, run⟩ := Decoder.lift_bind_ok run
  exact ⟨part, require_ok.mp required, enrols _ part start node final run⟩

theorem decodeUnary_enrols {budget : Nat} {decode : Place → Json → Decoder Expr}
    (enrols : Enrols decode) {place : Place} {data : Json} {start final : Declarations}
    {node : Expr} (named : data.get? "node" = some (.str "unary"))
    (run : decodeUnary decode budget place data start = .ok node final) :
    Enrolled start data node final := by
  obtain ⟨operator, -, run⟩ := Decoder.lift_bind_ok run
  obtain ⟨operand, middle, decoded, run⟩ := Stateful.bind_ok run
  obtain ⟨type, -, run⟩ := Decoder.lift_bind_ok run
  obtain ⟨constant, -, run⟩ := Decoder.lift_bind_ok run
  obtain ⟨rfl, rfl⟩ := Stateful.pure_ok.mp run
  obtain ⟨part, held, enrolled⟩ := decodePart_enrols enrols decoded
  have found : nodePart? .operand data = some part :=
    (nodePart?_eq_follow? rfl named).trans held
  refine ⟨enrolled.grown, rendered_of_parts ?_ ?_, ?_⟩
  · exact .plain named (by decide) (isMisfit_eq_false named (by decide) (by decide)) rfl
  · intro step
    cases step with
    | operand => exact Or.inr ⟨part, operand, found, rfl, enrolled.rendered⟩
    | _ => exact Or.inl ⟨nodePart?_eq_none named (by simp [Step.holder?]), rfl⟩
  · intro entry member
    refine (enrolled.written entry member).imp_right fun written => ⟨written.1, ?_⟩
    exact written.2.ofPart found fun other _ smaller => absurd smaller (Nat.not_lt_zero _)

theorem decodeBinary_enrols {budget : Nat} {decode : Place → Json → Decoder Expr}
    (enrols : Enrols decode) {place : Place} {data : Json} {start final : Declarations}
    {node : Expr} (named : data.get? "node" = some (.str "binary"))
    (run : decodeBinary decode budget place data start = .ok node final) :
    Enrolled start data node final := by
  obtain ⟨operator, -, run⟩ := Decoder.lift_bind_ok run
  obtain ⟨left, middle, leftDecoded, run⟩ := Stateful.bind_ok run
  obtain ⟨right, later, rightDecoded, run⟩ := Stateful.bind_ok run
  obtain ⟨type, -, run⟩ := Decoder.lift_bind_ok run
  obtain ⟨constant, -, run⟩ := Decoder.lift_bind_ok run
  obtain ⟨rfl, rfl⟩ := Stateful.pure_ok.mp run
  obtain ⟨leftPart, leftHeld, first⟩ := decodePart_enrols enrols leftDecoded
  obtain ⟨rightPart, rightHeld, second⟩ := decodePart_enrols enrols rightDecoded
  have onLeft : nodePart? .left data = some leftPart :=
    (nodePart?_eq_follow? rfl named).trans leftHeld
  have onRight : nodePart? .right data = some rightPart :=
    (nodePart?_eq_follow? rfl named).trans rightHeld
  refine ⟨first.grown.trans second.grown, rendered_of_parts ?_ ?_, ?_⟩
  · exact .plain named (by decide) (isMisfit_eq_false named (by decide) (by decide)) rfl
  · intro step
    cases step with
    | left => exact Or.inr ⟨leftPart, left, onLeft, rfl, first.renderedLater second.grown⟩
    | right => exact Or.inr ⟨rightPart, right, onRight, rfl, second.rendered⟩
    | _ => exact Or.inl ⟨nodePart?_eq_none named (by simp [Step.holder?]), rfl⟩
  · intro entry member
    rcases second.written entry member with earlier | ⟨lacks, written⟩
    · refine (first.written entry earlier).imp_right fun written => ⟨written.1, ?_⟩
      exact written.2.ofPart onLeft fun other _ smaller => absurd smaller (Nat.not_lt_zero _)
    · refine Or.inr ⟨fun known there => lacks known (first.grown.subset there), ?_⟩
      refine written.ofPart onRight fun other part smaller there => ?_
      -- only the left operand is read before the right one
      cases other with
      | left =>
          cases onLeft.symm.trans there
          exact fun steps mention => first.not_same lacks
      | right => exact absurd smaller (Nat.lt_irrefl _)
      | _ =>
          rw [nodePart?_eq_none named (by simp [Step.holder?])] at there
          cases there

/-- Children that are decoded stand at the positions of their documents, and what one of them
adds is mentioned in none before it. -/
theorem decodeChildren_enrols {decode : Place → Json → Decoder Expr} (enrols : Enrols decode)
    {place : Place} {items : List Json} :
    ∀ {index : Nat} {start final : Declarations} {nodes : List Expr},
      decodeChildren decode place index items start = .ok nodes final →
      start.known <+: final.known ∧
        (∀ i : Nat, Option.Rel final.RendersTree items[i]? nodes[i]?) ∧
        ∀ entry ∈ final.known, entry ∈ start.known ∨ start.Lacks entry.1 ∧
          ∃ (i : Nat) (item : Json), items[i]? = some item ∧ Written item entry ∧
            ∀ j < i, ∀ earlier, items[j]? = some earlier → ∀ steps mention,
              (nodeAt? steps earlier).bind mention? = some mention →
              mention.key.same entry.1 = false := by
  induction items with
  | nil =>
      intro index start final nodes run
      obtain ⟨rfl, rfl⟩ := Stateful.pure_ok.mp run
      exact ⟨List.prefix_rfl, fun i => .none, fun entry known => Or.inl known⟩
  | cons item rest ih =>
      intro index start final nodes run
      obtain ⟨node, middle, decoded, run⟩ := Stateful.bind_ok run
      obtain ⟨others, later, followed, run⟩ := Stateful.bind_ok run
      obtain ⟨rfl, rfl⟩ := Stateful.pure_ok.mp run
      have first := enrols _ item start node middle decoded
      obtain ⟨grown, rendered, written⟩ := ih followed
      refine ⟨first.grown.trans grown, ?_, ?_⟩
      · intro i
        cases i with
        | zero => exact .some (first.renderedLater grown)
        | succ i => exact rendered i
      · intro entry member
        rcases written entry member with earlier | ⟨lacks, i, other, found, there, new⟩
        · rcases first.written entry earlier with known | ⟨lacks, here⟩
          · exact Or.inl known
          · exact Or.inr ⟨lacks, 0, item, rfl, here, by simp⟩
        · refine Or.inr ⟨fun known there => lacks known (first.grown.subset there), i + 1, other,
            found, there, ?_⟩
          intro j smaller before located
          cases j with
          | zero =>
              -- the first child is decoded by now, and the entry is added only after it
              cases located
              exact fun steps mention => first.not_same lacks
          | succ j => exact new j (Nat.lt_of_succ_lt_succ smaller) before located

theorem isMisfit_of_children {data : Json} {items : List Json}
    (named : data.get? "node" = some (.str "unsupported"))
    (children : childrenOf data = .ok items) : isMisfit data = false := by
  rw [isMisfit, isReference, named]
  unfold childrenOf at children
  split at children
  · next missing => simp [missing]
  · next stated => simp [stated]
  · next stated => simp [stated]
  · next stated => simp [stated]
  · next stated => simp [stated]
  · cases children

theorem decodeUnmodelled_enrols {budget : Nat} {decode : Place → Json → Decoder Expr}
    (enrols : Enrols decode) {place : Place} {data : Json} {start final : Declarations}
    {node : Expr} (named : data.get? "node" = some (.str "unsupported"))
    (run : decodeUnmodelled decode budget place data start = .ok node final) :
    Enrolled start data node final := by
  obtain ⟨shape, -, run⟩ := Decoder.lift_bind_ok run
  obtain ⟨type, -, run⟩ := Decoder.lift_bind_ok run
  obtain ⟨items, children, run⟩ := Decoder.lift_bind_ok run
  obtain ⟨nodes, middle, decoded, run⟩ := Stateful.bind_ok run
  obtain ⟨constant, -, run⟩ := Decoder.lift_bind_ok run
  obtain ⟨text, -, run⟩ := Decoder.lift_bind_ok run
  obtain ⟨rfl, rfl⟩ := Stateful.pure_ok.mp run
  obtain ⟨grown, rendered, written⟩ := decodeChildren_enrols enrols decoded
  have step : ∀ index, nodePart? (.child index) data = items[index]? := by
    intro index
    rw [nodePart?_eq_follow? rfl named]
    cases found : items[index]? with
    | none =>
        cases followed : (Step.child index).follow? data with
        | none => rfl
        | some item =>
            rw [getElem?_of_follow?_child children followed] at found
            cases found
    | some item =>
        -- a text is no node, so what was decoded stands in a list of children
        rcases follow?_child children found with followed | bare
        · exact followed
        · have there := rendered index
          rw [found] at there
          generalize nodes[index]? = child at there
          cases there with
          | some renders =>
              cases renders [] with
              | some here =>
                  have isNode := here.isNode
                  rw [bare] at isNode
                  cases isNode
  refine ⟨grown, rendered_of_parts ?_ ?_, ?_⟩
  · exact .plain named (by decide) (isMisfit_of_children named children) rfl
  · intro other
    cases other with
    | child index =>
        have there := rendered index
        rw [← step index] at there
        change Option.Rel _ _ ((Expr.unmodelled shape type text nodes constant).part?
          (.child index)) at there
        generalize nodePart? (.child index) data = part at there ⊢
        generalize Expr.part? _ _ = child at there ⊢
        cases there with
        | none => exact Or.inl ⟨rfl, rfl⟩
        | some renders => exact Or.inr ⟨_, _, rfl, rfl, renders⟩
    | _ => exact Or.inl ⟨nodePart?_eq_none named (by simp [Step.holder?]), rfl⟩
  · intro entry member
    rcases written entry member with known | ⟨lacks, index, item, found, there, new⟩
    · exact Or.inl known
    · refine Or.inr ⟨lacks,
        there.ofPart ((step index).trans found) fun other part smaller held => ?_⟩
      cases other with
      | child earlier => exact new earlier smaller part ((step earlier).symm.trans held)
      | _ =>
          rw [nodePart?_eq_none named (by simp [Step.holder?])] at held
          cases held

/-- Decoding a node adds what is mentioned in it, and gives a tree that renders it. -/
theorem decodeNode_enrols (budget : Nat) : Enrols (decodeNode budget) := by
  -- operands are decoded two levels further down and children three, hence all smaller budgets
  induction budget using Nat.strongRecOn with
  | ind budget ih =>
      intro place data start node final run
      match budget, ih with
      | 0, _ | 1, _ | 2, _ => cases run
      | budget + 3, ih =>
          cases data with
          | obj members =>
              rw [decodeNode] at run
              obtain ⟨shown, required, run⟩ := Decoder.lift_bind_ok run
              have named := require_ok.mp required
              split at run
              · exact decodeLiteral_enrols named run
              · exact decodeReference_enrols named run
              · exact decodeUnary_enrols (ih _ (by omega)) named run
              · exact decodeBinary_enrols (ih _ (by omega)) named run
              · exact decodeUnmodelled_enrols (ih _ (by omega)) named run
              · cases run
          | _ => cases run

/-- The declarations of an accepted document: each has a number of its own and comes from
a mention, and every position of the tree renders the one of the document. -/
theorem Expr.ofJson_enrols [Limits] {data : Json} {next later : Nat} {tree : Expr}
    (decoded : Expr.ofJson data next = (.ok tree, later)) :
    ∃ state : Declarations, state.Sound ∧ (∀ entry ∈ state.known, Written data entry) ∧
      state.RendersTree data tree := by
  unfold ofJson at decoded
  split at decoded
  · next found final run =>
      cases decoded
      have fresh : (Declarations.mk [] next).Sound := ⟨by simp, List.nodup_nil⟩
      have delivered := decodeNode_delivers Limits.decoding _ _ _ _ _ fresh run
      have enrolled := decodeNode_enrols Limits.decoding _ _ _ _ _ run
      refine ⟨final, delivered.sound, ?_, enrolled.rendered⟩
      intro entry member
      exact ((enrolled.written entry member).resolve_left (by simp)).2
  · cases decoded

end Source

end CondSat
