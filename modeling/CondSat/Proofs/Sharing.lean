import CondSat.Proofs.Faults

/-! # Shared declarations

Since keys that denote the same are equivalent, what is known for a key is known for every
key that denotes the same, and references share a declaration exactly when their keys
denote the same.

The declaration of a reference has the name and the type it states.  Its kind is the one
that its first reference in the document states; a later one may state another. -/
set_option autoImplicit false
namespace CondSat

namespace Source

/-! ## References of one document -/

/-- Without an id, references of one declaration state one kind. -/
theorem kind_eq_of_same {data data' : Json} {mention mention' : Mention}
    (mentioned : mention? data = some mention) (mentioned' : mention? data' = some mention')
    (same : mention.key.same mention'.key = true) (noId : mention'.key.isId = false) :
    mention.kind = mention'.kind := by
  have keyed : ∀ {data : Json} {mention : Mention}, mention? data = some mention →
      mention.key.isId = false → mention.key = .named mention.name mention.kind := by
    intro data mention mentioned noId
    simp only [mention?, Option.bind_eq_bind, Option.bind_eq_some_iff] at mentioned
    obtain ⟨-, -, name, -, kind, -, type, -, mentioned⟩ := mentioned
    split at mentioned <;> cases mentioned
    · cases noId
    · rfl
  have noId' := (DeclarationKey.isId_eq_of_same same).trans noId
  rw [keyed mentioned noId', keyed mentioned' noId] at same
  exact (DeclarationKey.same_named_iff.mp same).2

theorem Declarations.find?_congr (state : Declarations) {a b : DeclarationKey}
    (same : a.same b = true) : state.find? a = state.find? b := by
  have alike : (fun entry : DeclarationKey × Declaration => entry.1.same a) =
      fun entry => entry.1.same b := by
    funext entry
    rw [Bool.eq_iff_iff]
    exact ⟨fun first => DeclarationKey.same_trans first same,
      fun second => DeclarationKey.same_trans second (DeclarationKey.same_symm same)⟩
  rw [find?, find?, alike]

/-- A position at which the document mentions a declaration and the tree refers to one. -/
structure Refers (data : Json) (tree : Expr) (steps : List Step) (mention : Mention)
    (declaration : Declaration) : Prop where
  mentioned : (nodeAt? steps data).bind mention? = some mention
  referred : (tree.at? steps).bind Expr.declaration? = some declaration

section

variable {state : Declarations} {data : Json} {tree : Expr} {steps steps' : List Step}
  {mention mention' : Mention} {declaration declaration' : Declaration}

theorem exists_refers (rendered : state.RendersTree data tree) {node : Json}
    (located : nodeAt? steps data = some node) (reference : isReference node = true) :
    ∃ mention declaration, Refers data tree steps mention declaration := by
  obtain ⟨declaration, referred, mention, mentioned, -⟩ := rendered.resolves located reference
  exact ⟨mention, declaration, by rw [located]; exact mentioned, referred⟩

theorem refers_of_mentioned (rendered : state.RendersTree data tree)
    (mentioned : (nodeAt? steps data).bind mention? = some mention) :
    ∃ declaration, Refers data tree steps mention declaration := by
  obtain ⟨node, located, isMention⟩ := Option.bind_eq_some_iff.mp mentioned
  obtain ⟨declaration, referred, -⟩ :=
    rendered.resolves located (isReference_of_mention? isMention)
  exact ⟨declaration, mentioned, referred⟩

theorem refers_of_referred (rendered : state.RendersTree data tree)
    (referred : (tree.at? steps).bind Expr.declaration? = some declaration) :
    ∃ mention, Refers data tree steps mention declaration := by
  obtain ⟨node, here, declared⟩ := Option.bind_eq_some_iff.mp referred
  rcases rendered.cases steps with ⟨-, nothing⟩ | ⟨part, child, found, has, renders⟩
  · rw [here] at nothing
    cases nothing
  · cases here.symm.trans has
    obtain ⟨mention, mentioned, -⟩ := renders.resolves declaration declared
    exact ⟨mention, by rw [found]; exact mentioned, referred⟩

theorem Refers.resolved (rendered : state.RendersTree data tree)
    (refers : Refers data tree steps mention declaration) :
    state.find? mention.key = some declaration ∧ declaration.name = mention.name ∧
      declaration.type = mention.type := by
  obtain ⟨node, located, isMention⟩ := Option.bind_eq_some_iff.mp refers.mentioned
  obtain ⟨other, referred, stated, isStated, resolved⟩ :=
    rendered.resolves located (isReference_of_mention? isMention)
  cases isStated.symm.trans isMention
  cases referred.symm.trans refers.referred
  exact resolved

theorem Refers.eq_of_same (rendered : state.RendersTree data tree)
    (refers : Refers data tree steps mention declaration)
    (refers' : Refers data tree steps' mention' declaration')
    (same : mention.key.same mention'.key = true) : declaration = declaration' := by
  obtain ⟨found, -⟩ := refers.resolved rendered
  obtain ⟨found', -⟩ := refers'.resolved rendered
  rw [state.find?_congr same, found', Option.some_inj] at found
  exact found.symm

theorem Refers.id_eq_iff (sound : state.Sound) (rendered : state.RendersTree data tree)
    (refers : Refers data tree steps mention declaration)
    (refers' : Refers data tree steps' mention' declaration') :
    declaration.id = declaration'.id ↔ mention.key.same mention'.key = true := by
  constructor
  · intro same
    obtain ⟨found, -⟩ := refers.resolved rendered
    obtain ⟨found', -⟩ := refers'.resolved rendered
    obtain ⟨entry, known, keyed, rfl⟩ := Declarations.exists_entry found
    obtain ⟨entry', known', keyed', rfl⟩ := Declarations.exists_entry found'
    have one : entry = entry' := sound.eq_of_id known known' same
    exact DeclarationKey.same_trans (DeclarationKey.same_symm (one ▸ keyed)) keyed'
  · intro same
    rw [refers.eq_of_same rendered refers' same]

/-- The kind of a declaration is the one that its first reference states. -/
theorem Refers.exists_first (rendered : state.RendersTree data tree)
    (written : ∀ entry ∈ state.known, Written data entry)
    (refers : Refers data tree steps mention declaration) :
    ∃ first firstMention, Refers data tree first firstMention declaration ∧
      firstMention.key.same mention.key = true ∧ declaration.kind = firstMention.kind ∧
      NewAt data mention.key first := by
  obtain ⟨found, -⟩ := refers.resolved rendered
  obtain ⟨entry, known, keyed, rfl⟩ := Declarations.exists_entry found
  obtain ⟨first, firstMention, mentioned, key, -, kind, -, new⟩ := written entry known
  obtain ⟨declared, firstRefers⟩ := refers_of_mentioned rendered mentioned
  have keyed' : firstMention.key.same mention.key = true := key ▸ keyed
  rw [firstRefers.eq_of_same rendered refers keyed'] at firstRefers
  refine ⟨first, firstMention, firstRefers, keyed', kind.symm, ?_⟩
  -- an earlier mention of the key would also be one of the key it is entered under
  intro earlier other before there
  rw [Bool.eq_false_iff]
  intro same
  have different := new earlier other before there
  rw [DeclarationKey.same_trans same (DeclarationKey.same_symm keyed)] at different
  cases different

end

/-! ## Accepted and refused documents -/

namespace Expr

/-- References of an accepted document share a declaration exactly when their keys are
equal: the id where they have one, the name and the kind where they have none.  Those that
share one agree on its name and its type.  Names are texts here: one that is another value
is told apart from all that are written differently, equal numbers included. -/
theorem references_share_by_key [Limits] {data : Json} {next later : Nat} {tree : Expr}
    (decoded : ofJson data next = (.ok tree, later)) :
    (∀ steps node, nodeAt? steps data = some node → isReference node = true →
      ∃ mention declaration, Refers data tree steps mention declaration) ∧
    (∀ declaration ∈ tree.declarations, ∃ steps mention,
      Refers data tree steps mention declaration) ∧
    ∀ steps mention declaration steps' mention' declaration',
      Refers data tree steps mention declaration → Refers data tree steps' mention' declaration' →
      (declaration.id = declaration'.id ↔ mention.key.same mention'.key = true) ∧
      (mention.key.isPlain = true → mention'.key.isPlain = true →
        (declaration.id = declaration'.id ↔ mention.key = mention'.key)) ∧
      (declaration.id = declaration'.id → declaration = declaration' ∧
        mention.key.isId = mention'.key.isId ∧ mention.name = mention'.name ∧
        mention.type = mention'.type) := by
  obtain ⟨state, sound, -, rendered⟩ := ofJson_enrols decoded
  refine ⟨fun steps node => exists_refers rendered, ?_, ?_⟩
  · intro declaration used
    obtain ⟨steps, refers⟩ := tree.exists_at?_of_mem_declarations used
    obtain ⟨mention, here⟩ := refers_of_referred rendered refers
    exact ⟨steps, mention, here⟩
  · intro steps mention declaration steps' mention' declaration' refers refers'
    have shares := refers.id_eq_iff sound rendered refers'
    refine ⟨shares, ?_, ?_⟩
    · intro plain plain'
      rw [shares, DeclarationKey.same_iff_eq plain plain']
    · intro same
      have keys := shares.mp same
      have one := refers.eq_of_same rendered refers' keys
      obtain ⟨-, name, type⟩ := refers.resolved rendered
      obtain ⟨-, name', type'⟩ := refers'.resolved rendered
      exact ⟨one, DeclarationKey.isId_eq_of_same keys, by rw [← name, ← name', one],
        by rw [← type, ← type', one]⟩

def comparedDocument (left right : Json) : Json :=
  .obj [("node", .str "binary"), ("operator", .str "BinaryEqualityBool"), ("left", left),
    ("right", right)]

def sharedDocument : Json :=
  comparedDocument (variableDocument "x" [("id", .str "a")])
    (.obj [("node", .str "unsupported"), ("type", .str "bool"), ("text", .str "f(x, x)"),
      ("children", .arr [variableDocument "x" [("id", .str "a")], variableDocument "x" []])])

def sharedTree : Expr :=
  let x (id : Nat) : Expr := .reference (some ⟨"x", .localVariable, .bool, id⟩) .bool "x" none
  .binary (.ofTag (.connective .equal)) (x 1) (.unmodelled .other .bool "f(x, x)" [x 1, x 2] none)
    .bool "x == f(x, x)" none

theorem references_share_by_key_mixed :
    ofJson sharedDocument 1 = (.ok sharedTree, 3) ∧
    (∃ mention mention' declaration declaration',
      Refers sharedDocument sharedTree [.left] mention declaration ∧
      Refers sharedDocument sharedTree [.right, .child 0] mention' declaration' ∧
      declaration.id = declaration'.id) ∧
    ∃ mention mention' declaration declaration',
      Refers sharedDocument sharedTree [.left] mention declaration ∧
      Refers sharedDocument sharedTree [.right, .child 1] mention' declaration' ∧
      declaration.id ≠ declaration'.id := by
  have accepted : ofJson sharedDocument 1 = (.ok sharedTree, 3) := rfl
  have left : Refers sharedDocument sharedTree [.left] ⟨.id (.str "a"), "x", .localVariable, .bool⟩
      ⟨"x", .localVariable, .bool, 1⟩ := ⟨rfl, rfl⟩
  have byId : Refers sharedDocument sharedTree [.right, .child 0]
      ⟨.id (.str "a"), "x", .localVariable, .bool⟩ ⟨"x", .localVariable, .bool, 1⟩ := ⟨rfl, rfl⟩
  have byName : Refers sharedDocument sharedTree [.right, .child 1]
      ⟨.named "x" .localVariable, "x", .localVariable, .bool⟩ ⟨"x", .localVariable, .bool, 2⟩ :=
    ⟨rfl, rfl⟩
  obtain ⟨-, -, shares⟩ := references_share_by_key accepted
  refine ⟨accepted, ⟨_, _, _, _, left, byId, ?_⟩, _, _, _, _, left, byName, ?_⟩
  · exact ((shares _ _ _ _ _ _ left byId).2.1 rfl rfl).mpr rfl
  · intro same
    cases ((shares _ _ _ _ _ _ left byName).2.1 rfl rfl).mp same

/-- A declaration has the name and the type that each of its references states, and the
kind that the first of them states; without an id this is the kind that all of them state.
Documents whose references disagree on the name or the type of a declaration are refused.
Names are texts here, and other values are told apart as they are written. -/
theorem references_declare_what_they_say [Limits] (data : Json) (next : Nat) :
    (∀ tree later, ofJson data next = (.ok tree, later) →
      (∀ steps mention declaration, Refers data tree steps mention declaration →
        declaration.name = mention.name ∧ declaration.type = mention.type ∧
        (mention.key.isId = false → declaration.kind = mention.kind) ∧
        ∃ first firstMention, Refers data tree first firstMention declaration ∧
          firstMention.key.same mention.key = true ∧ declaration.kind = firstMention.kind ∧
          NewAt data mention.key first) ∧
      ((∀ steps mention declaration, Refers data tree steps mention declaration →
          declaration.kind = mention.kind) ↔
        ∀ steps mention steps' mention' declaration,
          Refers data tree steps mention declaration →
          Refers data tree steps' mention' declaration → mention.kind = mention'.kind)) ∧
    ∀ steps mention steps' mention', (nodeAt? steps data).bind mention? = some mention →
      (nodeAt? steps' data).bind mention? = some mention' →
      mention.key.same mention'.key = true →
      mention.name ≠ mention'.name ∨ mention.type ≠ mention'.type →
      ∃ fault later, ofJson data next = (.error fault, later) ∧
        fault.Excused (HasMisfit data) (Limits.decoding < levelsFor data) := by
  constructor
  · intro tree later decoded
    obtain ⟨state, -, written, rendered⟩ := ofJson_enrols decoded
    constructor
    · intro steps mention declaration refers
      obtain ⟨-, name, type⟩ := refers.resolved rendered
      have stated := refers.exists_first rendered written
      refine ⟨name, type, ?_, stated⟩
      intro noId
      obtain ⟨first, firstMention, firstRefers, same, kind, -⟩ := stated
      obtain ⟨node, -, mentioned⟩ := Option.bind_eq_some_iff.mp firstRefers.mentioned
      obtain ⟨node', -, mentioned'⟩ := Option.bind_eq_some_iff.mp refers.mentioned
      rw [kind]
      exact kind_eq_of_same mentioned mentioned' same noId
    · constructor
      · intro faithful steps mention steps' mention' declaration refers refers'
        rw [← faithful _ _ _ refers, ← faithful _ _ _ refers']
      · intro agree steps mention declaration refers
        obtain ⟨first, firstMention, firstRefers, -, kind, -⟩ :=
          refers.exists_first rendered written
        rw [kind]
        exact agree _ _ _ _ _ firstRefers refers
  · intro steps mention steps' mention' here there same differ
    rcases ended : ofJson data next with ⟨fault | tree, later⟩
    · exact ⟨fault, later, rfl, ofJson_excused ended⟩
    · obtain ⟨state, -, -, rendered⟩ := ofJson_enrols ended
      obtain ⟨declaration, refers⟩ := refers_of_mentioned rendered here
      obtain ⟨declaration', refers'⟩ := refers_of_mentioned rendered there
      have one := refers.eq_of_same rendered refers' same
      obtain ⟨-, name, type⟩ := refers.resolved rendered
      obtain ⟨-, name', type'⟩ := refers'.resolved rendered
      rw [← name, ← name', ← type, ← type', one] at differ
      exact absurd differ (by simp)

def kindsDocument (left right : ElementKind) : Json :=
  comparedDocument (variableDocument "x" [("id", .int 1), ("kind", .str left.name)])
    (variableDocument "x" [("id", .int 1), ("kind", .str right.name)])

def kindsTree (kind : ElementKind) : Expr :=
  let x : Expr := .reference (some ⟨"x", kind, .bool, 1⟩) .bool "x" none
  .binary (.ofTag (.connective .equal)) x x .bool "x == x" none

def renamedDocument : Json :=
  comparedDocument (variableDocument "x" [("id", .int 1)]) (variableDocument "y" [("id", .int 1)])

theorem references_declare_what_they_say_renamed :
    (∃ fault later, ofJson renamedDocument 1 = (.error fault, later)) ∧
      ofJson (kindsDocument .field .field) 1 = (.ok (kindsTree .field), 2) ∧
      ∃ steps mention, Refers (kindsDocument .field .field) (kindsTree .field) steps mention
        ⟨"x", .field, .bool, 1⟩ ∧ mention.name = "x" := by
  have accepted : ofJson (kindsDocument .field .field) 1 = (.ok (kindsTree .field), 2) := rfl
  have refers : Refers (kindsDocument .field .field) (kindsTree .field) [.right]
      ⟨.id (.int 1), "x", .field, .bool⟩ ⟨"x", .field, .bool, 1⟩ := ⟨rfl, rfl⟩
  obtain ⟨declares, -⟩ :=
    (references_declare_what_they_say (kindsDocument .field .field) 1).1 _ _ accepted
  refine ⟨?_, accepted, _, _, refers, (declares _ _ _ refers).1.symm⟩
  obtain ⟨fault, later, refused, -⟩ := (references_declare_what_they_say renamedDocument 1).2
    [.left] ⟨.id (.int 1), "x", .localVariable, .bool⟩ [.right]
    ⟨.id (.int 1), "y", .localVariable, .bool⟩ rfl rfl rfl (Or.inl (by decide))
  exact ⟨fault, later, refused⟩

/-- The reference to a field that comes second is taken for one to a local variable, and the
other way round when the operands are exchanged. -/
theorem second_kind_is_ignored :
    (nodeAt? [.right] (kindsDocument .localVariable .field)).bind mention? =
      some ⟨.id (.int 1), "x", .field, .bool⟩ ∧
    ofJson (kindsDocument .localVariable .field) 1 = (.ok (kindsTree .localVariable), 2) ∧
    ofJson (kindsDocument .field .localVariable) 1 = (.ok (kindsTree .field), 2) :=
  ⟨rfl, rfl, rfl⟩

end Expr

end Source

end CondSat
