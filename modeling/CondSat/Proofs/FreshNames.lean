import CondSat.Analysis.Bindings
import Mathlib.Computability.StateTransition
import Mathlib.Data.List.Nodup
import Mathlib.Data.List.Perm.Subperm
import Mathlib.Data.Nat.Find
import Mathlib.Order.Bounds.Defs

/-! # Names handed out once

A name that is taken is followed by a number: `x`, `x!1`, `x!2`, ….  All these
candidates differ, so one of the first `taken.length + 1` is free, whatever the
names that are taken look like.  The first free one is where a search ends that
goes from candidate to candidate without a bound. -/
set_option autoImplicit false
namespace CondSat.Analysis.Bindings

variable {taken : List String} {name : String}

/-! ## Candidates -/

def candidate (name : String) : Nat → String
  | 0 => name
  | number + 1 => name ++ "!" ++ toString (number + 1)

theorem candidate_of_pos {number : Nat} (numbered : 1 ≤ number) :
    candidate name number = name ++ "!" ++ toString number := by
  cases number with
  | zero => omega
  | succ number => rfl

theorem candidates_eq (name : String) (count : Nat) :
    candidates name count = (List.range (count + 1)).map (candidate name) := by
  rw [candidates, List.range_succ_eq_map, List.map_cons, List.map_map]
  rfl

theorem numbered_injective (name : String) {first second : Nat}
    (same : name ++ "!" ++ toString (first + 1) = name ++ "!" ++ toString (second + 1)) :
    first = second := by
  have texts : Nat.repr (first + 1) = Nat.repr (second + 1) :=
    (String.append_right_inj _).mp same
  have digits : Nat.toDigits 10 (first + 1) = Nat.toDigits 10 (second + 1) := by
    simpa only [Nat.toList_repr] using congrArg String.toList texts
  have successors := congrArg (Nat.ofDigitChars 10 · 0) digits
  simp only [Nat.ofDigitChars_ten_toDigits] at successors
  omega

theorem name_ne_numbered (name : String) (index : Nat) :
    name ≠ name ++ "!" ++ toString (index + 1) := by
  intro same
  have lengths := congrArg String.length same
  simp only [String.length_append] at lengths
  have mark : "!".length = 1 := rfl
  omega

theorem candidate_injective (name : String) : Function.Injective (candidate name) := by
  intro first second same
  cases first with
  | zero =>
      cases second with
      | zero => rfl
      | succ second => exact absurd same (name_ne_numbered name second)
  | succ first =>
      cases second with
      | zero => exact absurd same.symm (name_ne_numbered name first)
      | succ second => rw [numbered_injective name same]

/-- More distinct candidates than taken names: one is free. -/
theorem exists_free_candidate (taken : List String) (name : String) :
    ∃ number ≤ taken.length, candidate name number ∉ taken := by
  by_contra allTaken
  have subset : (List.range (taken.length + 1)).map (candidate name) ⊆ taken := by
    intro tried member
    obtain ⟨number, small, rfl⟩ := List.mem_map.mp member
    by_contra free
    exact allTaken ⟨number, Nat.lt_succ_iff.mp (List.mem_range.mp small), free⟩
  have distinct : ((List.range (taken.length + 1)).map (candidate name)).Nodup :=
    List.nodup_range.map (candidate_injective name)
  have bounded := (List.Nodup.subperm distinct subset).length_le
  simp at bounded

theorem exists_first_free (taken : List String) (name : String) :
    ∃ number ≤ taken.length, candidate name number ∉ taken ∧
      ∀ earlier < number, candidate name earlier ∈ taken := by
  obtain ⟨bound, small, free⟩ := exists_free_candidate taken name
  have some : ∃ number, candidate name number ∉ taken := ⟨bound, free⟩
  refine ⟨Nat.find some, (Nat.find_min' some free).trans small, Nat.find_spec some, ?_⟩
  intro earlier before
  exact not_not.mp (Nat.find_min some before)

theorem freshName_eq {number : Nat} (small : number ≤ taken.length)
    (free : candidate name number ∉ taken)
    (blocked : ∀ earlier < number, candidate name earlier ∈ taken) :
    freshName taken name = candidate name number := by
  have found : (candidates name taken.length).find? (fun tried => !taken.contains tried) =
      some (candidate name number) := by
    rw [candidates_eq, List.find?_eq_some_iff_getElem]
    refine ⟨by simpa using free, number, by simpa using Nat.lt_succ_iff.mpr small, by simp, ?_⟩
    intro earlier before
    simpa using blocked earlier before
  rw [freshName, found]
  rfl

theorem freshName_not_mem (taken : List String) (name : String) :
    freshName taken name ∉ taken := by
  obtain ⟨number, small, free, blocked⟩ := exists_first_free taken name
  rw [freshName_eq small free blocked]
  exact free

/-! ## The search -/

/-- A turn of the search: a candidate that is taken gives way to the one with the next number. -/
def searchTurn (taken : List String) (name : String) : String × Nat → Option (String × Nat)
  | (tried, next) =>
    if tried ∈ taken then some (name ++ "!" ++ toString next, next + 1) else none

theorem search_reaches {number : Nat} (blocked : ∀ earlier < number, candidate name earlier ∈ taken) :
    StateTransition.Reaches (searchTurn taken name) (name, 1)
      (candidate name number, number + 1) := by
  induction number with
  | zero => exact Relation.ReflTransGen.refl
  | succ number ih =>
      refine (ih fun earlier before => blocked earlier (by omega)).tail ?_
      rw [Option.mem_def, searchTurn, if_pos (blocked number (by omega))]
      rfl

theorem search_ends {number : Nat} (free : candidate name number ∉ taken)
    (blocked : ∀ earlier < number, candidate name earlier ∈ taken) :
    StateTransition.eval (searchTurn taken name) (name, 1) =
      Part.some (candidate name number, number + 1) :=
  Part.eq_some_iff.mpr (StateTransition.mem_eval.mpr ⟨search_reaches blocked, if_neg free⟩)

/-! ## Reserving -/

section Reserve

variable {bindings : Bindings} {key : Key}

theorem reserve_known {known : String} (recorded : bindings.reserved.lookup key = some known)
    (name : String) : bindings.reserve key name = (known, bindings) := by
  rw [reserve, recorded]

theorem reserve_unseen (unseen : bindings.reserved.lookup key = none) (name : String) :
    bindings.reserve key name = (freshName bindings.taken name,
      { bindings with
        reserved := bindings.reserved ++ [(key, freshName bindings.taken name)] }) := by
  rw [reserve, unseen]

end Reserve

/-- Whatever names are taken, the search ends, and its result is the name itself if that is
free and else the one with the least number that makes it free.  A key that holds a name keeps
it and nothing changes; for any other key the result is recorded and taken from then on, and
the names of all other keys stay. -/
theorem reserve_takes_first_free (name : String) :
    (∀ taken : List String,
      (∃ next, StateTransition.eval (searchTurn taken name) (name, 1) =
        Part.some (freshName taken name, next)) ∧
      (name ∉ taken → freshName taken name = name) ∧
      (name ∈ taken → ∃ number, freshName taken name = name ++ "!" ++ toString number ∧
        IsLeast {number : Nat | 1 ≤ number ∧ name ++ "!" ++ toString number ∉ taken} number)) ∧
    ∀ (bindings : Bindings) (key : Key),
      (∀ known, bindings.reserved.lookup key = some known →
        bindings.reserve key name = (known, bindings)) ∧
      (bindings.reserved.lookup key = none → ∃ later,
        bindings.reserve key name = (freshName bindings.taken name, later) ∧
        later.taken = bindings.taken ++ [freshName bindings.taken name] ∧
        later.reserved.lookup key = some (freshName bindings.taken name) ∧
        (∀ other ≠ key, later.reserved.lookup other = bindings.reserved.lookup other) ∧
        later.bound = bindings.bound) := by
  constructor
  · intro taken
    obtain ⟨number, small, free, blocked⟩ := exists_first_free taken name
    rw [freshName_eq small free blocked]
    refine ⟨⟨_, search_ends free blocked⟩, ?_, ?_⟩
    · intro nameFree
      cases number with
      | zero => rfl
      | succ number => exact absurd (blocked 0 (Nat.succ_pos number)) nameFree
    · intro nameTaken
      have numbered : 1 ≤ number := by
        rcases Nat.eq_zero_or_pos number with rfl | positive
        · exact absurd nameTaken free
        · exact positive
      refine ⟨number, candidate_of_pos numbered, ⟨numbered, ?_⟩, ?_⟩
      · rwa [candidate_of_pos numbered] at free
      · rintro other ⟨positive, otherFree⟩
        by_contra smaller
        have otherTaken := blocked other (by omega)
        rw [candidate_of_pos positive] at otherTaken
        exact otherFree otherTaken
  · intro bindings key
    refine ⟨fun known recorded => reserve_known recorded name, fun unseen => ?_⟩
    refine ⟨_, reserve_unseen unseen name, by simp [Bindings.taken], ?_, ?_, rfl⟩
    · simp [List.lookup_append, unseen]
    · intro other different
      have apart : (other == key) = false := beq_false_of_ne different
      simp [List.lookup_append, List.lookup_cons, apart]

def numberedNames : Bindings where
  reserved := [(.label (.str "a"), "x"), (.label (.str "b"), "x!1"), (.label (.str "c"), "x!3")]

theorem reserve_takes_first_free_gap :
    "x" ∈ numberedNames.taken ∧ numberedNames.reserved.lookup (.label (.str "d")) = none ∧
      (∃ next, StateTransition.eval (searchTurn numberedNames.taken "x") ("x", 1) =
        Part.some ("x!2", next)) ∧
      ∃ later, numberedNames.reserve (.label (.str "d")) "x" = ("x!2", later) ∧
        later.taken = ["x", "x!1", "x!3", "x!2"] ∧
        later.reserved.lookup (.label (.str "c")) = some "x!3" := by
  have taken : "x" ∈ numberedNames.taken := by decide
  have unseen : numberedNames.reserved.lookup (.label (.str "d")) = none := by decide
  have fresh : freshName numberedNames.taken "x" = "x!2" := by decide
  obtain ⟨search, reserving⟩ := reserve_takes_first_free "x"
  obtain ⟨later, reserved, takenLater, -, others, -⟩ :=
    (reserving numberedNames (.label (.str "d"))).2 unseen
  have ends := (search numberedNames.taken).1
  rw [fresh] at ends reserved takenLater
  exact ⟨taken, unseen, ends, later, reserved, takenLater, others _ (by decide)⟩

end CondSat.Analysis.Bindings
