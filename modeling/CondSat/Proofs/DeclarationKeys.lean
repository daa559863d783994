import CondSat.Proofs.FloatText
import CondSat.Source.Decode

/-! # Keys of declarations

Ids are compared as the values they are: a text with the same text, a number with every
spelling of the same number, be it whole, a truth value or a floating-point number.  This is
an equivalence on keys, and on texts and whole numbers it is equality. -/
set_option autoImplicit false
namespace CondSat

/-! ## Numbers in documents -/

namespace Ieee.Format

variable (f : Format)

def signedValue (pattern : Nat) : ℚ :=
  if f.isNegative pattern then -f.value (f.magnitude pattern) else f.value (f.magnitude pattern)

theorem value_eq_zero {m : Nat} : f.value m = 0 ↔ m = 0 := by
  constructor
  · intro none
    by_contra positive
    exact (f.value_pos (Nat.pos_of_ne_zero positive)).ne' none
  · rintro rfl
    exact f.value_zero

theorem signedValue_eq_int {pattern : Nat} {n : Int} :
    f.signedValue pattern = n ↔ f.value (f.magnitude pattern) = |(n : ℚ)| ∧
      (n = 0 ∨ f.isNegative pattern = decide (n < 0)) := by
  have nonneg := f.value_nonneg (f.magnitude pattern)
  rw [signedValue]
  cases f.isNegative pattern with
  | true =>
      rw [if_pos rfl]
      constructor
      · intro same
        have below : (n : ℚ) ≤ 0 := by linarith
        refine ⟨by rw [abs_of_nonpos below]; linarith, ?_⟩
        have : n ≤ 0 := by exact_mod_cast below
        rcases this.lt_or_eq with negative | zero
        · exact Or.inr (decide_eq_true negative).symm
        · exact Or.inl zero
      · rintro ⟨same, rfl | negative⟩
        · simpa using same
        · have below : (n : ℚ) < 0 := by exact_mod_cast of_decide_eq_true negative.symm
          rw [same, abs_of_neg below, neg_neg]
  | false =>
      rw [if_neg Bool.false_ne_true]
      constructor
      · intro same
        have above : (0 : ℚ) ≤ n := by linarith
        refine ⟨by rw [abs_of_nonneg above]; exact same, Or.inr ?_⟩
        have : 0 ≤ n := by exact_mod_cast above
        exact (decide_eq_false (by omega)).symm
      · rintro ⟨same, rfl | positive⟩
        · simpa using same
        · have above : (0 : ℚ) ≤ n := by
            exact_mod_cast not_lt.mp (of_decide_eq_false positive.symm)
          rw [same, abs_of_nonneg above]

variable {f}

/-- Patterns of one finite number have one magnitude, and one sign unless it is zero. -/
theorem place_eq_iff_signedValue {left right : Nat} (precise : 1 ≤ f.precision)
    (leftFinite : f.magnitude left < f.infinity) (rightFinite : f.magnitude right < f.infinity) :
    f.place left = f.place right ↔ f.signedValue left = f.signedValue right := by
  have injective : f.value (f.magnitude left) = f.value (f.magnitude right) →
      f.magnitude left = f.magnitude right := by
    intro same
    rw [← nearest_value f precise leftFinite, same, nearest_value f precise rightFinite]
  have onLeft := f.value_nonneg (f.magnitude left)
  have onRight := f.value_nonneg (f.magnitude right)
  rw [place, place, signedValue, signedValue]
  cases f.isNegative left <;> cases f.isNegative right <;>
    simp only [Bool.false_eq_true, if_true, if_false]
  · constructor
    · intro same
      rw [show f.magnitude left = f.magnitude right by omega]
    · intro same
      rw [injective same]
  · constructor
    · intro same
      rw [f.value_eq_zero.mpr (by omega), f.value_eq_zero.mpr (by omega), neg_zero]
    · intro same
      have leftZero : f.magnitude left = 0 := f.value_eq_zero.mp (by linarith)
      have rightZero : f.magnitude right = 0 := f.value_eq_zero.mp (by linarith)
      omega
  · constructor
    · intro same
      rw [f.value_eq_zero.mpr (by omega), f.value_eq_zero.mpr (by omega), neg_zero]
    · intro same
      have leftZero : f.magnitude left = 0 := f.value_eq_zero.mp (by linarith)
      have rightZero : f.magnitude right = 0 := f.value_eq_zero.mp (by linarith)
      omega
  · constructor
    · intro same
      rw [show f.magnitude left = f.magnitude right by omega]
    · intro same
      rw [injective (neg_inj.mp same)]

end Ieee.Format

namespace Source

def amount? : Json → Option ℚ
  | .bool value => some (if value then 1 else 0)
  | .int value => some value
  | .float pattern =>
    if Ieee.Format.double.magnitude pattern.toNat < Ieee.Format.double.infinity then
      some (Ieee.Format.double.signedValue pattern.toNat)
    else none
  | _ => none

theorem amount?_numberOf (value : Json) : amount? (numberOf value) = amount? value := by
  cases value with
  | bool truth => cases truth <;> rfl
  | _ => rfl

theorem sameNumber_float_int (pattern : BitVec 64) (n : Int) :
    sameNumber (.float pattern) (.int n) = true ↔ amount? (.float pattern) = some (n : ℚ) := by
  have proper :
      ((Ieee.Format.double.ratio (Ieee.Format.double.magnitude pattern.toNat)).2 : ℚ) ≠ 0 :=
    Nat.cast_ne_zero.mpr (Ieee.Format.ratio_pos _ _).ne'
  have whole : (Ieee.Format.double.ratio (Ieee.Format.double.magnitude pattern.toNat)).1 =
      n.natAbs * (Ieee.Format.double.ratio (Ieee.Format.double.magnitude pattern.toNat)).2 ↔
      Ieee.Format.double.value (Ieee.Format.double.magnitude pattern.toNat) = |(n : ℚ)| := by
    rw [← Ieee.Format.ratio_value, div_eq_iff proper, ← Int.cast_abs, ← Nat.cast_natAbs]
    exact_mod_cast Iff.rfl
  rw [sameNumber, amount?]
  simp only [Bool.and_eq_true, decide_eq_true_eq, beq_iff_eq, whole, Bool.or_eq_true]
  by_cases finite : Ieee.Format.double.magnitude pattern.toNat < Ieee.Format.double.infinity
  · rw [if_pos finite, Option.some_inj, Ieee.Format.signedValue_eq_int]
    tauto
  · rw [if_neg finite]
    tauto

theorem amount?_of_numEq {left right : BitVec 64}
    (same : Ieee.Format.double.numEq left.toNat right.toNat = true) :
    left = right ∨ ∃ q, amount? (.float left) = some q ∧ amount? (.float right) = some q := by
  have number : ∀ pattern : BitVec 64, Ieee.Format.double.isNaN pattern.toNat = false →
      Ieee.Format.double.IsNumber pattern.toNat := by
    intro pattern noNaN
    refine ⟨pattern.isLt, ?_⟩
    simpa [Ieee.Format.isNaN] using noNaN
  have compared := same
  simp only [Ieee.Format.numEq, Bool.and_eq_true, Bool.not_eq_true', beq_iff_eq] at compared
  obtain ⟨⟨leftNumber, rightNumber⟩, places⟩ := compared
  have magnitudes : Ieee.Format.double.magnitude left.toNat =
      Ieee.Format.double.magnitude right.toNat := by
    unfold Ieee.Format.place at places
    split at places <;> split at places <;> omega
  by_cases finite : Ieee.Format.double.magnitude left.toNat < Ieee.Format.double.infinity
  · have rightFinite := magnitudes ▸ finite
    refine Or.inr ⟨_, if_pos finite, ?_⟩
    rw [amount?, if_pos rightFinite]
    exact congrArg some
      ((Ieee.Format.place_eq_iff_signedValue (by decide) finite rightFinite).mp places).symm
  · refine Or.inl (BitVec.eq_of_toNat_eq ?_)
    refine (number left leftNumber).eq_of_numEq (number right rightNumber) ?_ same
    have positive : 0 < Ieee.Format.double.infinity := by decide
    rw [Ieee.Format.isZero, beq_eq_false_iff_ne]
    omega

theorem amount?_of_sameNumber {a b : Json} (same : sameNumber a b = true) :
    a = b ∨ ∃ q, amount? a = some q ∧ amount? b = some q := by
  unfold sameNumber at same
  split at same
  · exact (amount?_of_numEq same).imp_left fun equal => by rw [equal]
  · next pattern n => exact Or.inr ⟨n, (sameNumber_float_int pattern n).mp same, rfl⟩
  · next n pattern => exact Or.inr ⟨n, rfl, (sameNumber_float_int pattern n).mp same⟩
  · next m n => exact Or.inr ⟨m, rfl, by rw [beq_iff_eq.mp same]; rfl⟩
  · cases same

theorem amount?_eq_some {value : Json} {q : ℚ} (amount : amount? value = some q) :
    (∃ n : Int, numberOf value = .int n ∧ q = n) ∨
      ∃ pattern : BitVec 64, numberOf value = .float pattern ∧
        Ieee.Format.double.magnitude pattern.toNat < Ieee.Format.double.infinity ∧
        q = Ieee.Format.double.signedValue pattern.toNat := by
  cases value with
  | bool truth =>
      refine Or.inl ⟨_, rfl, ?_⟩
      cases truth <;> cases amount <;> rfl
  | int n =>
      cases amount
      exact Or.inl ⟨n, rfl, rfl⟩
  | float pattern =>
      rw [amount?] at amount
      split at amount
      · next finite =>
          cases amount
          exact Or.inr ⟨pattern, rfl, finite, rfl⟩
      · cases amount
  | _ => cases amount

theorem sameNumber_of_amount? {a b : Json} {q : ℚ} (left : amount? a = some q)
    (right : amount? b = some q) : sameNumber (numberOf a) (numberOf b) = true := by
  rcases amount?_eq_some left with ⟨m, leftInt, rfl⟩ | ⟨pattern, leftFloat, leftFinite, rfl⟩
  · rcases amount?_eq_some right with ⟨n, rightInt, same⟩ | ⟨pattern, rightFloat, -, -⟩
    · rw [leftInt, rightInt, Int.cast_inj.mp same]
      exact beq_self_eq_true n
    · rw [← amount?_numberOf, rightFloat] at right
      rw [leftInt, rightFloat]
      exact (sameNumber_float_int pattern m).mpr right
  · rcases amount?_eq_some right with ⟨n, rightInt, same⟩ | ⟨other, rightFloat, rightFinite, same⟩
    · rw [← amount?_numberOf, leftFloat, same] at left
      rw [leftFloat, rightInt]
      exact (sameNumber_float_int pattern n).mpr left
    · have places :=
        (Ieee.Format.place_eq_iff_signedValue (by decide) leftFinite rightFinite).mpr same
      have number : ∀ p, Ieee.Format.double.magnitude p < Ieee.Format.double.infinity →
          Ieee.Format.double.isNaN p = false := by
        intro p finite
        rw [Ieee.Format.isNaN, decide_eq_false_iff_not]
        omega
      rw [leftFloat, rightFloat, sameNumber, Ieee.Format.numEq, number _ leftFinite,
        number _ rightFinite, places]
      exact beq_self_eq_true _

/-! ## Keys that denote the same -/

namespace DeclarationKey

theorem same_refl (key : DeclarationKey) : key.same key = true := by
  cases key <;> simp [same]

/-- Ids denote the same declaration if they are the same value or the same number. -/
theorem same_id_iff {a b : Json} :
    (id a).same (id b) = true ↔ a = b ∨ ∃ q, amount? a = some q ∧ amount? b = some q := by
  rw [same, Bool.or_eq_true, beq_iff_eq]
  constructor
  · rintro (equal | number)
    · exact Or.inl equal
    · have answered := amount?_of_sameNumber number
      rw [amount?_numberOf, amount?_numberOf] at answered
      rcases answered with equal | amounts
      · -- a truth value is compared as a number, so equal numbers need not be one value
        cases amount : amount? a with
        | some q =>
            refine Or.inr ⟨q, rfl, ?_⟩
            rw [← amount?_numberOf, ← equal, amount?_numberOf, amount]
        | none =>
            have noBool : ∀ value, amount? value = none → numberOf value = value := by
              intro value none
              cases value with
              | bool truth => cases none
              | _ => rfl
            have other : amount? b = none := by
              rw [← amount?_numberOf, ← equal, amount?_numberOf, amount]
            exact Or.inl (by rw [← noBool a amount, equal, noBool b other])
      · exact Or.inr amounts
  · rintro (equal | ⟨q, left, right⟩)
    · exact Or.inl equal
    · exact Or.inr (sameNumber_of_amount? left right)

theorem same_named_iff {name name' : Json} {kind kind' : ElementKind} :
    (named name kind).same (named name' kind') = true ↔ name = name' ∧ kind = kind' := by
  simp [same]

theorem same_symm {a b : DeclarationKey} (same : a.same b = true) : b.same a = true := by
  cases a with
  | id value =>
      cases b with
      | id other =>
          rw [same_id_iff] at same ⊢
          rcases same with rfl | ⟨q, left, right⟩
          · exact Or.inl rfl
          · exact Or.inr ⟨q, right, left⟩
      | named => cases same
  | named name kind =>
      cases b with
      | id => cases same
      | named name' kind' =>
          rw [same_named_iff] at same ⊢
          exact ⟨same.1.symm, same.2.symm⟩

theorem same_trans {a b c : DeclarationKey} (first : a.same b = true) (second : b.same c = true) :
    a.same c = true := by
  cases b with
  | id value =>
      cases a with
      | named => cases first
      | id left =>
          cases c with
          | named => cases second
          | id right =>
              rw [same_id_iff] at first second ⊢
              rcases first with rfl | ⟨q, leftAmount, amount⟩
              · exact second
              · rcases second with rfl | ⟨r, amount', rightAmount⟩
                · exact Or.inr ⟨q, leftAmount, amount⟩
                · rw [amount] at amount'
                  cases amount'
                  exact Or.inr ⟨q, leftAmount, rightAmount⟩
  | named name kind =>
      cases a with
      | id => cases first
      | named leftName leftKind =>
          cases c with
          | id => cases second
          | named rightName rightKind =>
              rw [same_named_iff] at first second ⊢
              exact ⟨first.1.trans second.1, first.2.trans second.2⟩

def isId : DeclarationKey → Bool
  | id _ => true
  | named _ _ => false

/-- Whether a key has only one spelling: an id that is a text or a whole number is compared
as it stands. -/
def isPlain : DeclarationKey → Bool
  | id (.str _) | id (.int _) | named _ _ => true
  | id _ => false

theorem isId_eq_of_same {a b : DeclarationKey} (same : a.same b = true) : a.isId = b.isId := by
  cases a <;> cases b <;> first | rfl | cases same

theorem same_iff_eq {a b : DeclarationKey} (left : a.isPlain = true) (right : b.isPlain = true) :
    a.same b = true ↔ a = b := by
  constructor
  · intro same
    cases a with
    | named name kind =>
        cases b with
        | id => cases same
        | named name' kind' =>
            obtain ⟨rfl, rfl⟩ := same_named_iff.mp same
            rfl
    | id value =>
        cases b with
        | named => cases same
        | id other =>
            rcases same_id_iff.mp same with rfl | ⟨q, amount, amount'⟩
            · rfl
            · cases value with
              | int m =>
                  cases other with
                  | int n =>
                      cases amount
                      rw [Int.cast_inj.mp (Option.some_inj.mp amount')]
                  | str => cases amount'
                  | _ => cases right
              | str => cases amount
              | _ => cases left
  · rintro rfl
    exact same_refl a

end DeclarationKey

end Source

end CondSat
