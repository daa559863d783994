import CondSat.Proofs.Narrowing

/-! # Bits and what they stand for

Stored bits are read as a 64-bit number.  Nothing is rounded: the number has the sign
and the value of the bits, subnormal bits become normal numbers, infinities and NaNs stay
what they are.  So narrowing the number to the width of the bits gives them back; of a
NaN only that it is one is kept. -/
set_option autoImplicit false
namespace CondSat.Ieee

open Format

/-- What a 64-bit number has in common with the bits it was read from. -/
structure WidenedTo (f : Format) (pattern wide : Nat) : Prop where
  fits : wide < 2 ^ 64
  sign : double.isNegative wide = f.isNegative pattern
  finite : f.magnitude pattern < f.infinity → double.magnitude wide < double.infinity ∧
    double.value (double.magnitude wide) = f.value (f.magnitude pattern)
  infinite : f.isInfinite pattern = true → double.isInfinite wide = true
  nan : f.isNaN pattern = true → double.isNaN wide = true

section

variable {f : Format} {pattern : Nat}

theorem widen_double (pattern : Nat) : widen .double pattern = pattern := if_pos rfl

theorem widenedTo_self (fits : pattern < 2 ^ 64) : WidenedTo .double pattern pattern :=
  ⟨fits, rfl, fun finite => ⟨finite, rfl⟩, id, id⟩

theorem widenedTo_withSign {m : Nat} (small : m < double.signBit)
    (finite : f.magnitude pattern < f.infinity →
      m < double.infinity ∧ double.value m = f.value (f.magnitude pattern))
    (infinite : f.isInfinite pattern = true → m = double.infinity)
    (nan : f.isNaN pattern = true → double.infinity < m) :
    WidenedTo f pattern (double.withSign (f.isNegative pattern) m) := by
  have magnitude : double.magnitude (double.withSign (f.isNegative pattern) m) = m :=
    magnitude_withSign small
  refine ⟨withSign_lt small, isNegative_withSign small, ?_, ?_, ?_⟩
  · rwa [magnitude]
  · intro found
    rw [isInfinite, magnitude, beq_iff_eq]
    exact infinite found
  · intro found
    rw [isNaN, magnitude]
    exact decide_eq_true (nan found)

theorem widenedTo_single (pattern : Nat) : WidenedTo .single pattern (widen .single pattern) := by
  have top : double.infinity < double.signBit := Stored.infinity_lt (.inr rfl)
  rcases lt_trichotomy (single.magnitude pattern) single.infinity with finite | infinite | nan
  · obtain ⟨wideFinite, exact⟩ := double_nearest_single finite
    rw [widen_finite finite]
    refine widenedTo_withSign (wideFinite.trans top) (fun _ => ⟨wideFinite, exact⟩) ?_ ?_
    · intro infinite
      exact absurd (beq_iff_eq.mp infinite) finite.ne
    · intro nan
      exact absurd (of_decide_eq_true nan) finite.not_gt
  · rw [widen_single, convert_infinite infinite]
    refine widenedTo_withSign top ?_ (fun _ => rfl) ?_
    · intro finite
      exact absurd infinite finite.ne
    · intro nan
      exact absurd (of_decide_eq_true nan) infinite.le.not_gt
  · obtain ⟨m, converted, above, small⟩ :=
      convert_nan (f := single) (g := double) (.inl rfl) (.inr rfl) (decide_eq_true nan)
    rw [widen_single, converted]
    refine widenedTo_withSign small ?_ ?_ fun _ => above
    · intro finite
      exact absurd finite nan.not_gt
    · intro infinite
      exact absurd (beq_iff_eq.mp infinite) nan.ne'

theorem widenedTo_widen (stored : f.Stored) (fits : pattern < 2 ^ f.width) :
    WidenedTo f pattern (widen f pattern) := by
  rcases stored with rfl | rfl
  · exact widenedTo_single pattern
  · rw [widen_double]
    exact widenedTo_self fits

/-! ## Back to the bits -/

theorem toPattern_widen (stored : f.Stored) (fits : pattern < 2 ^ f.width)
    (number : f.isNaN pattern = false) :
    (Number.real (widen f pattern)).toPattern f = .ok pattern := by
  rcases stored with rfl | rfl
  · have isNumber : single.IsNumber pattern := ⟨fits, not_lt.mp (of_decide_eq_false number)⟩
    rw [toPattern_real, (narrow_widen isNumber).1]
  · rw [widen_double]
    rfl

theorem toPattern_widen_nan (stored : f.Stored) (fits : pattern < 2 ^ f.width)
    (nan : f.isNaN pattern = true) :
    ∃ narrow, (Number.real (widen f pattern)).toPattern f = .ok narrow ∧ narrow < 2 ^ f.width ∧
      f.isNaN narrow = true := by
  have widened := widenedTo_widen stored fits
  rcases stored with rfl | rfl
  · have wide := widened.nan nan
    refine ⟨_, toPattern_real _, ?_, isNaN_convert wide⟩
    have narrowed := convert_lt (BitVec.ofNat 64 (widen single pattern))
    rwa [BitVec.toNat_ofNat, Nat.mod_eq_of_lt widened.fits] at narrowed
  · rw [widen_double]
    exact ⟨pattern, rfl, fits, nan⟩

end

theorem stored_of_storedFormat? {width : Nat} {f : Format} (stored : storedFormat? width = some f) :
    f.Stored ∧ f.width = width := by
  unfold storedFormat? at stored
  split at stored
  · cases stored
    exact ⟨.inl rfl, rfl⟩
  · cases stored
    exact ⟨.inr rfl, rfl⟩
  · cases stored

/-- Bits of a width of 32 or 64 stand for a 64-bit number exactly when they fit the width.  The
number has their sign and value.  Storing it at the width gives the bits back; those of
a NaN give a NaN. -/
theorem stored_bits_read_back {width : Nat} {f : Format} (stored : storedFormat? width = some f)
    (bits : Int) :
    (0 ≤ bits ∧ bits < 2 ^ width →
      ∃ wide, widen? f bits = some wide ∧ WidenedTo f bits.toNat wide ∧
        (f.isNaN bits.toNat = false → (Number.real wide).toPattern f = .ok bits.toNat) ∧
        (f.isNaN bits.toNat = true → ∃ narrow, (Number.real wide).toPattern f = .ok narrow ∧
          narrow < 2 ^ width ∧ f.isNaN narrow = true)) ∧
      (¬ (0 ≤ bits ∧ bits < 2 ^ width) → widen? f bits = none) := by
  obtain ⟨format, rfl⟩ := stored_of_storedFormat? stored
  have words : ((Word.count f.width : Nat) : Int) = 2 ^ f.width := Int.natCast_pow 2 f.width
  rw [widen?, words]
  constructor
  · intro inside
    have fits : bits.toNat < 2 ^ f.width := by
      rw [← Int.ofNat_lt, Int.toNat_of_nonneg inside.1, Int.natCast_pow]
      exact inside.2
    rw [if_pos inside]
    exact ⟨_, rfl, widenedTo_widen format fits, toPattern_widen format fits,
      toPattern_widen_nan format fits⟩
  · intro outside
    rw [if_neg outside]

theorem stored_bits_read_back_subnormal :
    storedFormat? 32 = some .single ∧ (0 ≤ (1 : Int) ∧ (1 : Int) < 2 ^ 32) ∧
      ∃ wide, widen? .single 1 = some wide ∧ (Number.real wide).toPattern .single = .ok 1 := by
  have stored : storedFormat? 32 = some .single := rfl
  have inside : 0 ≤ (1 : Int) ∧ (1 : Int) < 2 ^ 32 := by decide
  obtain ⟨wide, read, -, number, -⟩ := (stored_bits_read_back stored 1).1 inside
  exact ⟨stored, inside, wide, read, number (by decide)⟩

end CondSat.Ieee
