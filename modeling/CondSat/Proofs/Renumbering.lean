import CondSat.Proofs.Steps

/-! # Formulas of renumbered trees

Different declarations have different unknowns, whatever their numbers are.  Building
the formula of a tree with other numbers therefore makes the same terms, binds the
same constants in the same order and reports the same events; only the keys of the
declarations are other ones.  `Build.Renumbers` relates two steps in this way from
every session on, and a build is such a step by the walk through `nodeTerm`. -/
set_option autoImplicit false
namespace CondSat.Analysis

open Source

variable (number : Nat → Nat)

/-! ## Sessions under other numbers -/

def Key.renumber : Key → Key
  | declaration declared => declaration (declared.renumber number)
  | unmodelled text => unmodelled text
  | roundingMode => roundingMode
  | label value => label value

def Bindings.renumber (bindings : Bindings) : Bindings where
  bound := bindings.bound.map fun entry => (entry.1.renumber number, entry.2)
  reserved := bindings.reserved.map fun entry => (entry.1.renumber number, entry.2)

def Run.renumber (run : Run) : Run := { run with bindings := run.bindings.renumber number }

def Session.renumber : Session → Session
  | closed => closed
  | opened run => opened (run.renumber number)

def Progress.renumber (progress : Progress) : Progress :=
  { progress with session := progress.session.renumber number }

def Session.declarations : Session → List (String × Solver.ValueSort)
  | closed => []
  | opened run => run.bindings.declarations

theorem Session.declarations_renumber (session : Session) :
    (session.renumber number).declarations = session.declarations := by
  cases session with
  | closed => rfl
  | opened run =>
      simp [renumber, declarations, Run.renumber, Bindings.renumber, Bindings.declarations,
        List.flatMap_map]

variable {number}

theorem Key.renumber_injective (injective : Function.Injective number) :
    Function.Injective (Key.renumber number) := by
  intro first second same
  cases first with
  | declaration declared =>
      cases second with
      | declaration other =>
          obtain ⟨name, kind, type, id⟩ := declared
          obtain ⟨name', kind', type', id'⟩ := other
          simp only [renumber, Declaration.renumber, declaration.injEq, Declaration.mk.injEq] at same
          obtain ⟨rfl, rfl, rfl, numbers⟩ := same
          rw [injective numbers]
      | _ => cases same
  | _ => cases second <;> first | cases same; rfl | cases same

/-- What is found at a key is found there also after keys and values have been replaced,
as long as no other key becomes the same. -/
theorem lookup_map_entries {κ β γ : Type} [BEq κ] [LawfulBEq κ] (f : κ → κ) (g : β → γ)
    (entries : List (κ × β)) (key : κ)
    (apart : ∀ entry ∈ entries, f key = f entry.1 → key = entry.1) :
    (entries.map fun entry => (f entry.1, g entry.2)).lookup (f key) =
      (entries.lookup key).map g := by
  induction entries with
  | nil => rfl
  | cons entry rest ih =>
      obtain ⟨other, value⟩ := entry
      have same : (f key == f other) = (key == other) := by
        rw [Bool.eq_iff_iff]
        simpa using ⟨apart (other, value) (by simp), congrArg f⟩
      have later := ih fun entry member => apart entry (by simp [member])
      simp only [List.map_cons, List.lookup_cons, same, later]
      cases key == other <;> rfl

theorem Bindings.bind_renumber (injective : Function.Injective number) (bindings : Bindings)
    (key : Key) (type : SourceType) (name : String) :
    (bindings.renumber number).bind (key.renumber number) type name =
      ((bindings.bind key type name).1, (bindings.bind key type name).2.1.renumber number,
        (bindings.bind key type name).2.2) := by
  have found : ∀ {β : Type} (entries : List (Key × β)),
      (entries.map fun entry => (entry.1.renumber number, entry.2)).lookup (key.renumber number) =
        entries.lookup key := by
    intro β entries
    have renamed := lookup_map_entries (Key.renumber number) id entries key
      fun _ _ same => Key.renumber_injective injective same
    rwa [Option.map_id] at renamed
  have known : (bindings.renumber number).get? (key.renumber number) = bindings.get? key :=
    found bindings.bound
  have taken : (bindings.renumber number).taken = bindings.taken := by
    simp [taken, renumber, Function.comp_def]
  have reserved : (bindings.renumber number).reserve (key.renumber number) name =
      ((bindings.reserve key name).1, (bindings.reserve key name).2.renumber number) := by
    unfold reserve
    rw [taken]
    simp only [renumber, found]
    cases bindings.reserved.lookup key with
    | some name => rfl
    | none => simp
  unfold Bindings.bind
  rw [known, reserved]
  cases bindings.get? key with
  | some term => rfl
  | none =>
      cases type.sort? with
      | none => rfl
      | some sort => simp [insert, renumber]

/-! ## Steps under other numbers -/

namespace Build

variable {α β : Type}

/-- The second step does in the renumbered session what the first one does. -/
def Renumbers (number : Nat → Nat) (step step' : Build α) : Prop :=
  ∀ start, step' (start.renumber number) =
    match step start with
    | .ok value final => .ok value (final.renumber number)
    | .error failure final => .error failure (final.renumber number)

theorem renumbers_pure (value : α) : (pure value : Build α).Renumbers number (pure value) :=
  fun _ => rfl

theorem renumbers_throw (failure : Failure) :
    (throw failure : Build α).Renumbers number (throw failure) := fun _ => rfl

theorem renumbers_seq {step step' : Build α} {next next' : α → Build β}
    (first : step.Renumbers number step')
    (rest : ∀ value, (next value).Renumbers number (next' value)) :
    (step >>= next).Renumbers number (step' >>= next') := by
  intro start
  rw [Stateful.bind_apply, Stateful.bind_apply, first start]
  cases step start with
  | ok value middle => exact rest value middle
  | error failure middle => rfl

theorem renumbers_report (events : List Event) : (report events).Renumbers number (report events) :=
  fun _ => rfl

theorem renumbers_bind (injective : Function.Injective number) (key : Key) (type : SourceType)
    (name : String) :
    (Build.bind key type name).Renumbers number (Build.bind (key.renumber number) type name) := by
  rintro ⟨session, events⟩
  cases session with
  | closed => rfl
  | opened run =>
      change Build.bind (key.renumber number) type name ⟨.opened (run.renumber number), events⟩ = _
      rw [bind_opened, bind_opened]
      simp only [Run.renumber, Bindings.bind_renumber injective]
      rfl

theorem renumbers_bindNamed (injective : Function.Injective number) (key : Key)
    (type : SourceType) (text : Json) (name : String) :
    (bindNamed key type text name).Renumbers number
      (bindNamed (key.renumber number) type text name) := by
  rintro ⟨session, events⟩
  cases session with
  | closed => rfl
  | opened run =>
      change bindNamed (key.renumber number) type text name ⟨.opened (run.renumber number), events⟩ = _
      rw [bindNamed_opened, bindNamed_opened]
      cases nameFault? text type with
      | some failure => rfl
      | none => exact renumbers_bind injective key type name ⟨.opened run, events⟩

theorem renumbers_useRoundingMode : useRoundingMode.Renumbers number useRoundingMode := by
  rintro ⟨session, events⟩
  cases session with
  | closed => rfl
  | opened run =>
      change useRoundingMode ⟨.opened (run.renumber number), events⟩ = _
      rw [useRoundingMode_opened, useRoundingMode_opened]
      rfl

theorem map_apply (f : α → β) (step : Build α) (start : Progress) :
    (f <$> step) start =
      match step start with
      | .ok value final => .ok (f value) final
      | .error failure final => .error failure final := by
  simp only [Functor.map, EStateM.map]
  cases step start <;> rfl

theorem renumbers_law :
    Build.Law (fun {α : Type} (f : α → α) (step step' : Build α) =>
      (f <$> step).Renumbers number step') Eq id where
  pure f value _ := rfl
  onto := Function.surjective_id
  seq {_ _ f g step step' next next'} _ first rest := by
    intro start
    have stepped := first start
    rw [map_apply] at stepped
    rw [map_apply, Stateful.bind_apply, Stateful.bind_apply, stepped]
    cases step start with
    | ok value middle =>
        have rested := rest value middle
        rw [map_apply] at rested
        exact rested
    | error failure middle => rfl
  report event _ text text' word := by
    rw [id_map, word]
    exact renumbers_report [event text']
  mode := by
    rw [id_map]
    exact renumbers_useRoundingMode
  unary _ _ := map_map_id
  binary _ _ _ := map_map_id

end Build

theorem constantTerm_renumbers (constant : Option Constant) :
    (constantTerm constant).Renumbers number (constantTerm constant) := by
  cases constant with
  | none => exact Build.renumbers_pure none
  | some constant =>
      rw [constantTerm]
      cases encodeConstant constant.value constant.kind with
      | error failure => exact Build.renumbers_throw failure
      | ok answer =>
          exact Build.renumbers_seq (Build.renumbers_report _) fun _ => Build.renumbers_pure _

theorem formulate_renumbers [Limits] (injective : Function.Injective number) (root : Expr) :
    (formulate root).Renumbers number
      (formulate (root.relabel (Declaration.renumber number) id)) := by
  have kinds : ∀ declaration : Declaration,
      (declaration.renumber number).isVariable = declaration.isVariable := fun _ => rfl
  have leaves : Build.RelatesLeaves (fun {α : Type} (f : α → α) (step step' : Build α) =>
      (f <$> step).Renumbers number step') Eq id (Declaration.renumber number) root := by
    constructor
    · intro other member
      rw [Option.map_id, id_map]
      exact constantTerm_renumbers _
    · intro declaration member _
      rw [Option.map_id, id_map]
      exact Build.renumbers_bindNamed injective (.declaration declaration) _ _ _
    · intro parent _ other member other' type word
      rw [Option.map_id, id_map, Build.bindUnmodelled, Build.bindUnmodelled, Expr.label, Expr.label,
        ← type, ← word]
      exact Build.renumbers_bindNamed injective (.unmodelled _) _ _ _
  have mirrored := formulate_related Build.renumbers_law kinds root.matches_relabel leaves
    fun _ => by
      rw [Option.map_id, id_map]
      exact Build.renumbers_throw _
  rwa [Option.map_id, id_map] at mirrored

/-- What formulating a tree in a fresh session shows: its formula or why it failed, and the
constants that were bound. -/
def formulated [Limits] (root : Expr) :
    Except Failure (Option TypedTerm) × List (String × Solver.ValueSort) :=
  let outcome := Build.outcome (formulate root) .start
  (outcome.1, outcome.2.session.declarations)

/-- A tree that differs in its numbers only has the same formula over the same constants. -/
theorem formulated_renumber [Limits] (injective : Function.Injective number) (root : Expr) :
    formulated (root.relabel (Declaration.renumber number) id) = formulated root := by
  have mirrored := formulate_renumbers injective root ⟨.start, []⟩
  have fresh : (⟨.start, []⟩ : Progress).renumber number = ⟨.start, []⟩ := rfl
  rw [fresh] at mirrored
  simp only [formulated, Build.outcome, EStateM.run, mirrored]
  cases formulate root ⟨.start, []⟩ with
  | ok term final => simp [Progress.renumber, Session.declarations_renumber]
  | error failure final => simp [Progress.renumber, Session.declarations_renumber]

end CondSat.Analysis
