import CondSat.Proofs.Witness
import CondSat.Solver.Presentation
import Mathlib.Data.String.Basic

/-! # The listing of constants

A name is listed if some constant of that name is declared or defined by the model, and it
is listed once: the declared names in the order in which they first occur, then the others
in increasing order. -/
set_option autoImplicit false
namespace CondSat.Solver

namespace Presentation

variable {S : Type} (p : Presentation S) (declared : List (Symbol S))

def constantNames (symbols : List (Symbol S)) : List String :=
  (symbols.filter fun symbol => symbol.arity == 0).map (·.name)

theorem mem_constantNames {symbols : List (Symbol S)} {name : String} :
    name ∈ constantNames symbols ↔
      ∃ symbol ∈ symbols, symbol.arity = 0 ∧ symbol.name = name := by
  simp [constantNames, and_assoc]

/-- What is emitted are the names that have not been seen, at their first occurrence. -/
theorem emit_names (symbols : List (Symbol S)) (seen : List String) :
    (emit symbols seen).map (·.name) =
      ((constantNames symbols).filter fun name => !seen.contains name).eraseDups := by
  induction symbols generalizing seen with
  | nil => rfl
  | cons symbol rest ih =>
      unfold emit
      by_cases constant : symbol.arity = 0
      · have here : constantNames (symbol :: rest) = symbol.name :: constantNames rest := by
          simp [constantNames, constant]
        rw [here]
        by_cases known : symbol.name ∈ seen
        · simp [known, ih]
        · rw [if_neg (by simp [constant, known]), List.map_cons, ih, List.filter_cons_of_pos
            (by simp [known]), List.eraseDups_cons, List.filter_filter]
          congr 2
          refine List.filter_congr fun name _ => ?_
          rw [List.contains_cons, Bool.not_or]
      · have here : constantNames (symbol :: rest) = constantNames rest := by
          simp [constantNames, constant]
        rw [here, ← ih, if_pos (by simp [constant])]

theorem emit_sublist (symbols : List (Symbol S)) (seen : List String) :
    (emit symbols seen).Sublist symbols := by
  induction symbols generalizing seen with
  | nil => exact List.Sublist.refl _
  | cons symbol rest ih =>
      unfold emit
      split
      · exact (ih _).cons symbol
      · exact (ih _).cons_cons symbol

theorem emit_fresh (symbols : List (Symbol S)) (seen : List String) :
    ((emit symbols seen).map (·.name)).Nodup ∧
      ∀ name ∈ (emit symbols seen).map (·.name), name ∉ seen := by
  induction symbols generalizing seen with
  | nil => exact ⟨List.nodup_nil, nofun⟩
  | cons symbol rest ih =>
      unfold emit
      split
      · exact ih seen
      · next taken =>
          obtain ⟨distinct, fresh⟩ := ih (symbol.name :: seen)
          rw [List.map_cons]
          refine ⟨List.nodup_cons.mpr ⟨fun again => fresh _ again List.mem_cons_self, distinct⟩, ?_⟩
          intro name member
          rcases List.mem_cons.mp member with rfl | later
          · simp only [Bool.or_eq_true, not_or, List.contains_iff_mem] at taken
            exact taken.1
          · exact fun known => fresh name later (List.mem_cons_of_mem _ known)

/-- The second pass goes on with the names of the first one. -/
theorem emit_append (first second : List (Symbol S)) (seen : List String) :
    emit (first ++ second) seen =
      emit first seen ++ emit second (((emit first seen).map (·.name)).reverse ++ seen) := by
  induction first generalizing seen with
  | nil => rfl
  | cons symbol rest ih =>
      rw [List.cons_append, emit, emit, ih, ih]
      split
      · rfl
      · rw [List.cons_append, List.map_cons, List.reverse_cons, List.append_assoc,
          List.singleton_append]

theorem byName_ordered (symbols : List (Symbol S)) :
    (byName symbols).Pairwise fun a b => a.name ≤ b.name := by
  refine (List.pairwise_mergeSort ?_ ?_ symbols).imp fun order => of_decide_eq_true order
  · intro a b c
    simpa using le_trans
  · intro a b
    simpa using le_total a.name b.name

theorem emit_byName_ordered (symbols : List (Symbol S)) (seen : List String) :
    ((emit (byName symbols) seen).map (·.name)).Pairwise (· < ·) := by
  have ordered := (byName_ordered symbols).sublist (emit_sublist _ seen)
  have distinct := List.pairwise_map.mp (emit_fresh (byName symbols) seen).1
  exact List.pairwise_map.mpr ((ordered.and distinct).imp fun both => lt_of_le_of_ne both.1 both.2)

theorem emit_nil_names (symbols : List (Symbol S)) :
    (emit symbols []).map (·.name) = (constantNames symbols).eraseDups := by
  rw [emit_names]
  congr 1
  exact List.filter_eq_self.mpr fun _ _ => rfl

theorem mem_listed_names {name : String} :
    name ∈ (p.listed declared).map (·.name) ↔
      ∃ symbol ∈ declared ++ p.defined, symbol.arity = 0 ∧ symbol.name = name := by
  rw [listed, emit_nil_names, List.mem_eraseDups, mem_constantNames]
  simp only [byName, List.mem_append, List.mem_mergeSort]

theorem listed_names_split :
    ∃ rest, (p.listed declared).map (·.name) = (constantNames declared).eraseDups ++ rest ∧
      rest.Pairwise (· < ·) := by
  rw [listed, emit_append, List.map_append, emit_nil_names]
  exact ⟨_, rfl, emit_byName_ordered _ _⟩

theorem header_iff :
    "CONSTANTS:\n".toList <+: (p.text declared).toList ↔ p.listed declared ≠ [] := by
  cases listed : p.listed declared with
  | nil =>
      have plain : p.text declared = "MODEL:" ++ "\n" ++ p.dump := by
        simp [text, listed, String.intercalate_cons_cons]
      refine iff_of_false ?_ (not_not_intro rfl)
      rintro ⟨rest, same⟩
      rw [plain] at same
      simp at same
  | cons first rest =>
      have headed : p.text declared = "CONSTANTS:" ++ "\n" ++
          "\n".intercalate ((first :: rest).map p.line ++ [""] ++ ["MODEL:", p.dump]) := by
        rw [text, listed]
        exact String.intercalate_cons_of_ne_nil (List.cons_ne_nil _ _)
      refine iff_of_true ?_ (List.cons_ne_nil _ _)
      rw [headed, String.toList_append]
      exact List.prefix_append _ _

end Presentation

/-! ## Models of formulas -/

namespace Model

variable (model : Model) {declared : List Constant}

theorem emit_ofConstant (constants : List Constant) (seen : List String) :
    Presentation.emit (constants.map Symbol.ofConstant) seen =
      (distinctNames constants seen).map Symbol.ofConstant := by
  induction constants generalizing seen with
  | nil => rfl
  | cons constant rest ih =>
      rw [List.map_cons, Presentation.emit, distinctNames]
      split
      · next passed =>
          rw [if_pos (by simpa [Symbol.ofConstant] using passed), ih]
      · next taken =>
          rw [if_neg (by simpa [Symbol.ofConstant] using taken), ih]
          rfl

theorem listed_presentation (declared : List Constant) :
    model.presentation.listed (declared.map Symbol.ofConstant) =
      (listed declared model).map Symbol.ofConstant := by
  have sorted : (byName (model.map (·.1))).map Symbol.ofConstant =
      Presentation.byName ((model.map (·.1)).map Symbol.ofConstant) :=
    List.map_mergeSort fun _ _ _ _ => rfl
  rw [listed, ← emit_ofConstant, List.map_append, sorted, List.map_map]
  rfl

theorem assignment_of_defined {constant : Constant} (defined : constant ∈ model.map (·.1)) :
    (model.assignment constant.1 constant.2).isSome = true := by
  obtain ⟨⟨_, value⟩, entry, rfl⟩ := List.mem_map.mp defined
  unfold assignment
  cases found : model.lookup (_, _) with
  | some value => rfl
  | none =>
      have absent := List.lookup_eq_none_iff.mp found _ entry
      simp at absent

theorem assignment_of_listed
    (complete : ∀ constant ∈ declared, (Value.default? constant.2).isSome = true)
    {constant : Constant} (member : constant ∈ listed declared model) :
    (model.assignment constant.1 constant.2).isSome = true := by
  have inside := ((distinctNames_nodup _ _).2 constant member).1
  rcases List.mem_append.mp inside with first | second
  · exact model.assignment_isSome (complete constant first)
  · exact model.assignment_of_defined (List.mem_mergeSort.mp second)

theorem valueText_of_assigned {constant : Constant} {value : Value}
    (assigned : model.assignment constant.1 constant.2 = some value) :
    model.valueText (.ofConstant constant) = value.text := by
  rw [valueText, Symbol.ofConstant, assigned]

section Shown

variable (complete : ∀ constant ∈ declared, (Value.default? constant.2).isSome = true)
include complete

theorem entries_eq_presentation :
    (model.entries declared).map entryText =
      (model.presentation.listed (declared.map Symbol.ofConstant)).map model.presentation.line := by
  rw [listed_presentation, List.map_map, entries, List.map_filterMap, ← List.filterMap_eq_map]
  refine List.filterMap_congr fun constant member => ?_
  obtain ⟨value, assigned⟩ := Option.isSome_iff_exists.mp
    (model.assignment_of_listed complete member)
  change _ = some (constant.1 ++ " = " ++ model.valueText (.ofConstant constant))
  rw [assigned, model.valueText_of_assigned assigned]
  rfl

theorem text_eq_presentation :
    model.text declared = model.presentation.text (declared.map Symbol.ofConstant) := by
  rw [Model.text, Presentation.text, model.entries_eq_presentation complete]
  rfl

end Shown

end Model

/-- The listing of a model names the declared constants and those that the model defines, each
once, and nothing else: first the declared ones in the order of their first occurrence, then the
others in increasing order.  It has a header if there is a constant at all.  The models of
formulas are presented like this. -/
theorem constants_listed_once {S : Type} (p : Presentation S) (declared : List (Symbol S)) :
    let names := (p.listed declared).map (·.name)
    p.text declared = "\n".intercalate ((if names.isEmpty then [] else
        "CONSTANTS:" :: (p.listed declared).map p.line ++ [""]) ++ ["MODEL:", p.dump]) ∧
    names.Nodup ∧
    (∀ name, name ∈ names ↔
      ∃ symbol ∈ declared ++ p.defined, symbol.arity = 0 ∧ symbol.name = name) ∧
    (∃ rest, names = (Presentation.constantNames declared).eraseDups ++ rest ∧
      rest.Pairwise (· < ·)) ∧
    ("CONSTANTS:\n".toList <+: (p.text declared).toList ↔
      ∃ symbol ∈ declared ++ p.defined, symbol.arity = 0) ∧
    ∀ (model : Model) (constants : List Constant),
      (∀ constant ∈ constants, (Value.default? constant.2).isSome = true) →
      (model.entries constants).map entryText =
        (model.presentation.listed (constants.map Symbol.ofConstant)).map model.presentation.line ∧
      model.text constants = model.presentation.text (constants.map Symbol.ofConstant) := by
  refine ⟨?_, (Presentation.emit_fresh _ _).1, fun _ => p.mem_listed_names declared,
    p.listed_names_split declared, ?_, fun model _ complete =>
      ⟨model.entries_eq_presentation complete, model.text_eq_presentation complete⟩⟩
  · rw [Presentation.text]
    simp only [List.isEmpty_map]
  · rw [p.header_iff]
    constructor
    · intro some
      obtain ⟨first, inside⟩ := List.exists_mem_of_ne_nil _ some
      obtain ⟨symbol, member, constant, -⟩ :=
        (p.mem_listed_names declared).mp (List.mem_map_of_mem inside)
      exact ⟨symbol, member, constant⟩
    · rintro ⟨symbol, member, constant⟩
      have inside := (p.mem_listed_names declared).mpr ⟨symbol, member, constant, rfl⟩
      exact List.ne_nil_of_mem (List.mem_map.mp inside).choose_spec.1

end CondSat.Solver
