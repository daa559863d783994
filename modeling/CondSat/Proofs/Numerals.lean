import CondSat.Text.Numeral
import Mathlib.Data.List.Basic

/-! # Reading numerals back

A natural number written in decimal is read back as itself, alone or as the
whole part, the fraction or the exponent of a real number. -/
set_option autoImplicit false
namespace CondSat.Text

/-! ## Digits -/

theorem isDigit_bounds {c : Char} (digit : c.isDigit = true) : 48 ≤ c.toNat ∧ c.toNat ≤ 57 := by
  simp only [Char.isDigit, Bool.and_eq_true, decide_eq_true_eq] at digit
  exact ⟨UInt32.le_iff_toNat_le.mp digit.1, UInt32.le_iff_toNat_le.mp digit.2⟩

theorem digitValue?_of_isDigit {c : Char} (digit : c.isDigit = true) :
    digitValue? c = some (c.toNat - 48) := by
  obtain ⟨low, high⟩ := isDigit_bounds digit
  have first : digitZeros = 48 :: digitZeros.tail := rfl
  rw [digitValue?, first, List.find?_cons_of_pos]
  · rfl
  · simp only [Bool.and_eq_true, decide_eq_true_eq]
    omega

theorem isGroupChar_of_isDigit {c : Char} (digit : c.isDigit = true) : isGroupChar c = true := by
  rw [isGroupChar, digitValue?_of_isDigit digit]
  rfl

theorem isBlank_of_isDigit {c : Char} (digit : c.isDigit = true) : isBlank c = false := by
  obtain ⟨low, high⟩ := isDigit_bounds digit
  have apart : ∀ range ∈ blanks, range.2 < 48 ∨ 57 < range.1 := by decide
  rw [isBlank, List.any_eq_false]
  intro range member
  have := apart range member
  simp only [Bool.and_eq_true, decide_eq_true_eq]
  omega

theorem toLower_of_isDigit {c : Char} (digit : c.isDigit = true) : c.toLower = c := by
  have := isDigit_bounds digit
  unfold Char.toLower
  rw [dif_neg]
  rintro ⟨low, -⟩
  have low : 65 ≤ c.toNat := UInt32.le_iff_toNat_le.mp low
  omega

def AllDigits (text : List Char) : Prop := ∀ c ∈ text, c.isDigit = true

theorem AllDigits.append {text more : List Char} (first : AllDigits text)
    (second : AllDigits more) : AllDigits (text ++ more) := by
  intro c member
  exact (List.mem_append.mp member).elim (first c) (second c)

theorem AllDigits.replicate_zero (count : Nat) : AllDigits (List.replicate count '0') := by
  intro c member
  rw [(List.mem_replicate.mp member).2]
  rfl

theorem AllDigits.toDigits (n : Nat) : AllDigits (Nat.toDigits 10 n) := fun _ member =>
  Nat.isDigit_of_mem_toDigits (by decide) (by decide) member

theorem digitGroup?_of_allDigits {text : List Char} (nonempty : text ≠ [])
    (digits : AllDigits text) : digitGroup? text = some (text.map (·.toNat - 48)) := by
  induction text with
  | nil => exact absurd rfl nonempty
  | cons c rest ih =>
      have first := digitValue?_of_isDigit (digits c List.mem_cons_self)
      cases rest with
      | nil => simp [digitGroup?, first]
      | cons next rest =>
          have group := ih (List.cons_ne_nil _ _) fun x member =>
            digits x (List.mem_cons_of_mem _ member)
          have plain : next ≠ '_' := by
            rintro rfl
            have := digits '_' (by simp)
            exact absurd this (by decide)
          rw [digitGroup?.eq_4 c (next :: rest) (by simp)
            (fun others same => plain (List.cons.inj same).1), first, group]
          rfl

theorem ofDigits_map (text : List Char) :
    ofDigits (text.map (·.toNat - 48)) = Nat.ofDigitChars 10 text 0 := by
  rw [ofDigits, List.foldl_map]
  rfl

theorem digitGroup?_toString (n : Nat) :
    (digitGroup? (toString n).toList).map ofDigits = some n := by
  rw [show (toString n).toList = Nat.toDigits 10 n from Nat.toList_repr,
    digitGroup?_of_allDigits Nat.toDigits_ne_nil (AllDigits.toDigits n), Option.map_some,
    ofDigits_map, Nat.ofDigitChars_ten_toDigits]

/-! ## Real numbers -/

/-- A text that does not go on with a group of digits. -/
def EndsGroup (text : List Char) : Prop := ∀ c ∈ text.head?, isGroupChar c = false

theorem takeWhile_allDigits {digits rest : List Char} (all : AllDigits digits)
    (ends : EndsGroup rest) : (digits ++ rest).takeWhile isGroupChar = digits := by
  induction digits with
  | nil =>
      cases rest with
      | nil => rfl
      | cons c rest => exact List.takeWhile_cons_of_neg (by simp [ends c rfl])
  | cons c digits ih =>
      rw [List.cons_append,
        List.takeWhile_cons_of_pos (isGroupChar_of_isDigit (all c List.mem_cons_self)),
        ih fun x member => all x (List.mem_cons_of_mem _ member)]

theorem dropWhile_allDigits {digits rest : List Char} (all : AllDigits digits)
    (ends : EndsGroup rest) : (digits ++ rest).dropWhile isGroupChar = rest := by
  have parts := List.takeWhile_append_dropWhile (p := isGroupChar) (l := digits ++ rest)
  rw [takeWhile_allDigits all ends] at parts
  exact List.append_cancel_left parts

theorem optionalGroup?_of_allDigits {digits : List Char} (all : AllDigits digits) :
    optionalGroup? digits = some (digits.map (·.toNat - 48)) := by
  unfold optionalGroup?
  cases digits with
  | nil => rfl
  | cons c rest => exact digitGroup?_of_allDigits (List.cons_ne_nil _ _) all

/-- A number with a point is read as its digits, and the exponent makes up for
those behind the point. -/
theorem unsignedDecimal?_point {whole fraction tail : List Char} {exponent : Int}
    (wholeDigits : AllDigits whole) (nonempty : whole ≠ []) (fractionDigits : AllDigits fraction)
    (ends : EndsGroup tail) (read : exponentPart? tail = some exponent) :
    unsignedDecimal? (whole ++ '.' :: (fraction ++ tail)) =
      some (Nat.ofDigitChars 10 (whole ++ fraction) 0, exponent - fraction.length) := by
  have point : EndsGroup ('.' :: (fraction ++ tail)) := by
    rintro c ⟨⟩
    decide
  unfold unsignedDecimal?
  rw [takeWhile_allDigits wholeDigits point, dropWhile_allDigits wholeDigits point,
    optionalGroup?_of_allDigits wholeDigits]
  simp only [Option.bind_eq_bind, Option.bind_some, takeWhile_allDigits fractionDigits ends,
    dropWhile_allDigits fractionDigits ends, optionalGroup?_of_allDigits fractionDigits, read]
  simp [nonempty, ← ofDigits_map]

theorem unsignedDecimal?_plain {whole tail : List Char} {exponent : Int}
    (wholeDigits : AllDigits whole) (nonempty : whole ≠ []) (ends : EndsGroup tail)
    (noPoint : ∀ c ∈ tail.head?, c ≠ '.') (read : exponentPart? tail = some exponent) :
    unsignedDecimal? (whole ++ tail) = some (Nat.ofDigitChars 10 whole 0, exponent) := by
  unfold unsignedDecimal?
  rw [takeWhile_allDigits wholeDigits ends, dropWhile_allDigits wholeDigits ends,
    optionalGroup?_of_allDigits wholeDigits]
  simp only [Option.bind_eq_bind, Option.bind_some]
  split
  · next rest same => exact absurd rfl (noPoint '.' (by simp))
  · simp [read, nonempty, ofDigits_map]

def IsNumberChar (c : Char) : Prop :=
  c.isDigit = true ∨ c = '.' ∨ c = 'e' ∨ c = '+' ∨ c = '-'

theorem IsNumberChar.not_isBlank {c : Char} (isNumberChar : IsNumberChar c) :
    isBlank c = false := by
  rcases isNumberChar with digit | rfl | rfl | rfl | rfl
  · exact isBlank_of_isDigit digit
  all_goals decide

theorem dropWhile_isBlank {text : List Char} (none : ∀ c ∈ text, isBlank c = false) :
    text.dropWhile isBlank = text := by
  cases text with
  | nil => rfl
  | cons c rest => exact List.dropWhile_cons_of_neg (by simp [none c List.mem_cons_self])

theorem trimBlanks_eq {text : List Char} (none : ∀ c ∈ text, isBlank c = false) :
    trimBlanks text = text := by
  rw [trimBlanks, dropWhile_isBlank none,
    dropWhile_isBlank fun c member => none c (List.mem_reverse.mp member), List.reverse_reverse]

theorem leadingSign_signed (negative : Bool) {c : Char} (rest : List Char)
    (first : c.isDigit = true) :
    leadingSign ((if negative then "-" else "") ++ String.ofList (c :: rest)).toList =
      (negative, c :: rest) := by
  cases negative with
  | true => simp [leadingSign]
  | false =>
      simp only [Bool.false_eq_true, if_false, String.empty_append, String.toList_ofList]
      rw [leadingSign.eq_3]
      all_goals
        rintro others ⟨⟩
        exact absurd first (by decide)

theorem ne_word_of_isDigit {c : Char} (first : c.isDigit = true) (rest : List Char) {letter : Char}
    (isLetter : letter.isDigit = false) (word : List Char) :
    (String.ofList ((c :: rest).map Char.toLower) == String.ofList (letter :: word)) = false := by
  rw [beq_eq_false_iff_ne]
  intro same
  have same := (List.cons.inj (String.ofList_injective same)).1
  rw [toLower_of_isDigit first] at same
  rw [same, isLetter] at first
  cases first

theorem real?_decimal (negative : Bool) {c : Char} {rest : List Char} {digits : Nat}
    {exponent : Int} (first : c.isDigit = true) (others : ∀ x ∈ rest, IsNumberChar x)
    (read : unsignedDecimal? (c :: rest) = some (digits, exponent)) :
    real? ((if negative then "-" else "") ++ String.ofList (c :: rest)) =
      some (.decimal negative digits exponent) := by
  have chars : ∀ x ∈ ((if negative then "-" else "") ++ String.ofList (c :: rest)).toList,
      isBlank x = false := by
    intro x member
    have member : x = '-' ∨ x = c ∨ x ∈ rest := by
      cases negative <;> simp_all
    rcases member with rfl | rfl | later
    · decide
    · exact isBlank_of_isDigit first
    · exact (others x later).not_isBlank
  have notInf := ne_word_of_isDigit first rest (show 'i'.isDigit = false by decide) ['n', 'f']
  have notInfinity := ne_word_of_isDigit first rest (show 'i'.isDigit = false by decide)
    ['n', 'f', 'i', 'n', 'i', 't', 'y']
  have notNan := ne_word_of_isDigit first rest (show 'n'.isDigit = false by decide) ['a', 'n']
  unfold real?
  rw [trimBlanks_eq chars, leadingSign_signed negative rest first]
  dsimp only
  rw [show "inf" = String.ofList ['i', 'n', 'f'] from rfl, notInf,
    show "infinity" = String.ofList ['i', 'n', 'f', 'i', 'n', 'i', 't', 'y'] from rfl, notInfinity,
    show "nan" = String.ofList ['n', 'a', 'n'] from rfl, notNan, read]
  rfl

end CondSat.Text
