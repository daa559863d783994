import CondSat.Proofs.DecimalText
import CondSat.Proofs.Sequencing
import CondSat.Source.Decode
import CondSat.Source.Encode
import Mathlib.Data.List.Nodup

/-! # Names, types and operators in documents

A document holds names for kinds, shapes and predefined operators, and objects for
the types and operators that have no name of their own.  What is decoded from a
document is `Storable`: a primitive type or one with a name, and an operator that is
tagged exactly when it is predefined and its name is in the catalogue.  What is
storable is read back from what is written for it, with one exception: a predefined
operator is written by its name alone, so that it comes back as `catalogued`, with
the result type of its signature. -/
set_option autoImplicit false
namespace CondSat

/-! ## Values as text -/

namespace Ieee.Format

theorem text_starts (f : Format) (pattern : Nat) :
    ∃ c rest, (f.text pattern).toList = c :: rest ∧
      (c = '-' ∨ c = 'n' ∨ c = 'i' ∨ c.isDigit = true) := by
  have signed : ∀ (negative : Bool) (body : String) (c : Char) (rest : List Char),
      body.toList = c :: rest → (c = 'i' ∨ c.isDigit = true) →
      ∃ c rest, ((if negative then "-" else "") ++ body).toList = c :: rest ∧
        (c = '-' ∨ c = 'n' ∨ c = 'i' ∨ c.isDigit = true) := by
    intro negative body c rest starts first
    cases negative with
    | true => exact ⟨'-', c :: rest, by simp [String.toList_append, starts], Or.inl rfl⟩
    | false => exact ⟨c, rest, by simp [starts], Or.inr (Or.inr first)⟩
  unfold text
  dsimp only
  split
  · exact ⟨'n', ['a', 'n'], rfl, by simp⟩
  · split
    · exact signed _ _ 'i' ['n', 'f'] rfl (by simp)
    · split
      · exact signed _ _ '0' ['.', '0'] rfl (by decide)
      · obtain ⟨c, rest, starts, digit⟩ := (f.shortest (f.magnitude pattern)).layout_reads.starts
        exact signed _ _ c rest starts (Or.inr digit)

end Ieee.Format

theorem Text.Torn.backslash_mem_spelled (text : Torn) :
    92 ∈ text.spelled.toByteArray.data.toList := by
  obtain ⟨mark, member, isHalf⟩ := List.any_eq_true.mp text.torn
  have backslash : '\\' ∈ text.marks.flatMap Mark.spelled := by
    refine List.mem_flatMap.mpr ⟨mark, member, ?_⟩
    cases mark with
    | char c => cases isHalf
    | half offset => exact List.mem_cons_self
  rw [spelled, String.toByteArray_ofList, List.utf8Encode, List.data_toByteArray]
  exact List.mem_flatMap.mpr ⟨_, backslash, by decide⟩

namespace Json

/-- The text of a value that is no text begins like no name of an operator. -/
theorem quoted_starts (value : Json) :
    ∃ c rest, value.quoted.toList = c :: rest ∧ c ≠ 'B' ∧ c ≠ 'U' := by
  have digits : ∀ n : Nat, ∃ c rest, (toString n).toList = c :: rest ∧ c.isDigit = true := by
    intro n
    have plain : (toString n).toList = Nat.toDigits 10 n := Nat.toList_repr
    cases text : Nat.toDigits 10 n with
    | nil => exact absurd text Nat.toDigits_ne_nil
    | cons c rest =>
        exact ⟨c, rest, plain.trans text, Text.AllDigits.toDigits n c (by simp [text])⟩
  have ordinary : ∀ c : Char, c.isDigit = true → c ≠ 'B' ∧ c ≠ 'U' := by
    rintro c digit
    constructor <;> rintro rfl <;> exact absurd digit (by decide)
  cases value with
  | null => exact ⟨_, _, rfl, by decide, by decide⟩
  | bool truth => cases truth <;> exact ⟨_, _, rfl, by decide, by decide⟩
  | int number =>
      cases number with
      | ofNat n =>
          obtain ⟨c, rest, starts, digit⟩ := digits n
          exact ⟨c, rest, starts, ordinary c digit⟩
      | negSucc n =>
          obtain ⟨c, rest, starts, -⟩ := digits (n + 1)
          refine ⟨'-', c :: rest, ?_, by decide, by decide⟩
          change ("-" ++ toString (n + 1)).toList = _
          rw [String.toList_append, starts]
          rfl
  | float pattern =>
      obtain ⟨c, rest, starts, first⟩ := Ieee.Format.double.text_starts pattern.toNat
      refine ⟨c, rest, starts, ?_⟩
      rcases first with rfl | rfl | rfl | digit
      · decide
      · decide
      · decide
      · exact ordinary c digit
  | str text =>
      refine ⟨Text.quoteFor text.toList, _, String.toList_ofList, ?_⟩
      unfold Text.quoteFor
      split <;> decide
  | torn text =>
      refine ⟨_, _, String.toList_ofList, ?_⟩
      unfold Text.quoteFor
      split <;> decide
  | arr items =>
      have starts : (arr items).quoted.toList = '[' :: ((quotedItems items).toList ++ [']']) := by
        simp [quoted, String.toList_append]
      exact ⟨_, _, starts, by decide, by decide⟩
  | obj members =>
      have starts : (obj members).quoted.toList =
          '\x7b' :: ((quotedMembers members).toList ++ ['\x7d']) := by
        simp [quoted, String.toList_append]
      exact ⟨_, _, starts, by decide, by decide⟩

end Json

namespace Source

/-! ## Names -/

theorem find?_key {α κ : Type} [BEq κ] [LawfulBEq κ] {key : α → κ} {values : List α} {value : α}
    (member : value ∈ values) (only : ∀ other ∈ values, key other = key value → other = value) :
    values.find? (key · == key value) = some value := by
  cases found : values.find? (key · == key value) with
  | none => simpa using List.find?_eq_none.mp found value member
  | some other =>
      have same : key other = key value := by simpa using List.find?_some found
      rw [only other (List.mem_of_find?_eq_some found) same]

theorem find?_name {α : Type} {name : α → String} {values : List α}
    (distinct : (values.map name).Nodup) {value : α} (member : value ∈ values) :
    values.find? (name · == name value) = some value :=
  find?_key member fun _ otherMember => List.inj_on_of_nodup_map distinct otherMember member

@[simp] theorem Kind.ofName?_name (kind : Kind) : Kind.ofName? kind.name = some kind :=
  find?_name (by decide) (by cases kind <;> decide)

@[simp] theorem ElementKind.ofName?_name (kind : ElementKind) :
    ElementKind.ofName? kind.name = some kind :=
  find?_name (by decide) (by cases kind <;> decide)

@[simp] theorem Shape.ofName?_name (shape : Shape) : Shape.ofName? shape.name = some shape :=
  find?_name (by decide) (by cases shape <;> decide)

/-! ### The catalogue of operators -/

theorem IntegerType.mem_all (type : IntegerType) : type ∈ all := by cases type <;> simp [all]

theorem FloatType.mem_all (type : FloatType) : type ∈ all := by cases type <;> simp [all]

theorem Connective.mem_all (op : Connective) : op ∈ all := by cases op <;> simp [all]

theorem Arithmetic.mem_all (op : Arithmetic) : op ∈ all := by cases op <;> simp [all]

theorem Bitwise.mem_all (op : Bitwise) : op ∈ all := by cases op <;> simp [all]

theorem Shift.mem_all (op : Shift) : op ∈ all := by cases op <;> simp [all]

theorem Comparison.mem_all (op : Comparison) : op ∈ all := by cases op <;> simp [all]

theorem Unmodelled.mem_binary {op : Unmodelled} (two : op.isUnary = false) : op ∈ binary := by
  cases op <;> first | contradiction | simp [binary]

theorem mem_pairs {α β γ : Type} {firsts : List α} {seconds : List β} {f : α → β → γ} {a : α}
    {b : β} (first : a ∈ firsts) (second : b ∈ seconds) :
    f a b ∈ firsts.flatMap fun a => seconds.map (f a) :=
  List.mem_flatMap.mpr ⟨a, first, List.mem_map_of_mem second⟩

namespace Tag

theorem mem_all (tag : Tag) : tag ∈ all := by
  delta all
  simp only [List.mem_append]
  cases tag with
  | connective op => simp only [List.mem_map_of_mem op.mem_all, true_or]
  | arithmetic op type | bitwise op type | shift op type | comparison op type
  | floatArithmetic op type | floatComparison op type =>
      simp only [mem_pairs op.mem_all type.mem_all, true_or, or_true]
  | complement type | floatMinus type | plus type | floatPlus type =>
      simp only [List.mem_map_of_mem type.mem_all, true_or, or_true]
  | enumEqual | enumUnequal | negation => simp only [List.mem_cons, true_or, or_true]
  | minus type => cases type <;> simp only [List.mem_cons, true_or, or_true]
  | unmodelled op =>
      cases arity : op.isUnary with
      | false => simp only [List.mem_map_of_mem (Unmodelled.mem_binary arity), true_or, or_true]
      | true => cases op <;> first | contradiction | simp only [List.mem_cons, true_or, or_true]

/-- The bytes of a name as one number, which is faster to compare than the name. -/
def nameCode (name : String) : Nat :=
  name.toByteArray.data.toList.foldl (fun code byte => 256 * code + byte.toNat) 0

theorem names_nodup : (all.map name).Nodup := by
  -- comparing the texts pair by pair is too slow for the kernel, comparing numbers is not
  have codes : (all.map fun tag => nameCode tag.name).Nodup := by decide +kernel
  refine List.Nodup.of_map nameCode ?_
  rw [List.map_map]
  exact codes

@[simp] theorem ofName?_name (tag : Tag) : ofName? tag.name = some tag :=
  find?_name names_nodup tag.mem_all

theorem name_of_ofName? {text : String} {tag : Tag} (found : ofName? text = some tag) :
    tag.name = text := by
  have searched : all.find? (·.name == text) = some tag := found
  have named := List.find?_some searched
  exact eq_of_beq named

theorem name_starts (tag : Tag) :
    tag.name.toList.head? = some 'B' ∨ tag.name.toList.head? = some 'U' := by
  have first : ∀ (c : Char) (word : List Char) (rest : String),
      (String.ofList (c :: word) ++ rest).toList.head? = some c := by
    intro c word rest
    rw [String.toList_append, String.toList_ofList]
    rfl
  have binary : ∀ word suffix : String, ("Binary" ++ word ++ suffix).toList.head? = some 'B' := by
    intro word suffix
    rw [String.append_assoc]
    exact first 'B' "inary".toList _
  cases tag with
  | unmodelled op =>
      cases op with
      | minusDecimal | plusDecimal => exact Or.inr rfl
      | _ => exact Or.inl rfl
  | enumEqual | enumUnequal => exact Or.inl rfl
  | negation => exact Or.inr rfl
  | complement type => exact Or.inr (first 'U' "naryBitwiseComplement".toList _)
  | minus type => exact Or.inr (first 'U' "naryMinus".toList _)
  | floatMinus type => exact Or.inr (first 'U' "naryMinus".toList _)
  | plus type | floatPlus type => exact Or.inr (first 'U' "naryPlus".toList _)
  | _ => exact Or.inl (binary _ _)

theorem backslash_notMem_name (tag : Tag) : 92 ∉ tag.name.toByteArray.data.toList := by
  have names : ∀ tag ∈ all, 92 ∉ tag.name.toByteArray.data.toList := by decide +kernel
  exact names tag tag.mem_all

theorem ofName?_display {value : Json} (noText : ∀ text, value ≠ .str text) :
    ofName? value.display = none := by
  cases found : ofName? value.display with
  | none => rfl
  | some tag =>
      have shown : value.display = value.quoted := by
        cases value with
        | str text => exact absurd rfl (noText text)
        | torn text =>
            have inside := text.backslash_mem_spelled
            rw [show text.spelled = tag.name from (name_of_ofName? found).symm] at inside
            exact absurd inside tag.backslash_notMem_name
        | _ => rfl
      obtain ⟨c, rest, starts, notB, notU⟩ := value.quoted_starts
      have first := tag.name_starts
      rw [name_of_ofName? found, shown, starts, List.head?_cons, Option.some_inj,
        Option.some_inj] at first
      exact absurd first (not_or.mpr ⟨notB, notU⟩)

end Tag

/-! ## Types -/

namespace SourceType

/-- Types that a document can hold: the primitive ones, and enumerations and other types
that have a name. -/
def Storable (type : SourceType) : Prop :=
  type ∈ primitives ∨ (type.kind = .enum ∨ type.kind = .other) ∧ type.name ≠ ""

def levels (type : SourceType) : Nat := if type.isEnum then 2 else 1

theorem levels_pos (type : SourceType) : 0 < type.levels := by
  unfold levels
  split <;> decide

theorem levels_le (type : SourceType) : type.levels ≤ 2 := by
  unfold levels
  split <;> decide

theorem primitive_document {type : SourceType} (member : type ∈ primitives) :
    type.levels = 1 ∧ type.toJson = .str type.name := by
  revert type
  decide

theorem primitive?_name {type : SourceType} (member : type ∈ primitives) :
    primitive? type.name = some type :=
  find?_name (by decide) member

theorem build_ok {kind : Kind} {name : String} {underlying : Option SourceType} {type : SourceType}
    (built : build kind name underlying = .ok type) :
    type.kind = kind ∧ type.name = if name.isEmpty then kind.name else name := by
  simp only [build] at built
  by_cases admitted : kind.admits (underlying.map (·.kind)) = true
  · rw [dif_pos admitted] at built
    cases built
    exact ⟨rfl, rfl⟩
  · rw [dif_neg admitted] at built
    split at built <;> cases built

theorem build_named {kind : Kind} {name : String} {underlying : Option SourceType}
    (named : name ≠ "") (admitted : kind.admits (underlying.map (·.kind)) = true) :
    build kind name underlying = .ok ⟨kind, name, underlying.map (·.kind), admitted⟩ := by
  have nonempty : name.isEmpty = false := by simpa using named
  simp [build, nonempty, admitted]

end SourceType

theorem atPlace_ok {α : Type} {place : Place} {answer : Except TypeFault α} {value : α}
    (found : atPlace place answer = .ok value) : answer = .ok value := by
  cases answer with
  | ok value => cases found; rfl
  | error fault => cases found

theorem require_ok {key : String} {place : Place} {data value : Json} :
    require key place data = .ok value ↔ data.get? key = some value := by
  unfold require
  cases data.get? key <;> simp

theorem SourceType.storable_of_build {kind : Kind} {name : String} {underlying : Option SourceType}
    {type : SourceType} (named : kind = .enum ∨ kind = .other)
    (built : build kind name underlying = .ok type) : type.Storable := by
  obtain ⟨kinds, names⟩ := build_ok built
  refine Or.inr ⟨by rwa [kinds], ?_⟩
  rw [names]
  split
  · rcases named with rfl | rfl <;> decide
  · next nonempty => simpa using nonempty

/-- A decoded type is storable, and its document was not nested deeper than it has to be. -/
theorem decodeType_ok {budget : Nat} {place : Place} {data : Json} {type : SourceType}
    (decoded : decodeType budget place data = .ok type) : type.Storable ∧ type.levels ≤ budget := by
  induction budget generalizing place data type with
  | zero => cases decoded
  | succ budget ih =>
      cases data with
      | str name =>
          rw [decodeType] at decoded
          cases found : SourceType.primitive? name with
          | some primitive =>
              rw [found] at decoded
              cases decoded
              have member := List.mem_of_find?_eq_some found
              have plain := (SourceType.primitive_document member).1
              exact ⟨Or.inl member, by omega⟩
          | none =>
              rw [found] at decoded
              dsimp only at decoded
              split at decoded
              · cases decoded
                exact ⟨Or.inr (by decide), by change 1 ≤ _; omega⟩
              · cases decoded
      | obj members =>
          rw [decodeType] at decoded
          obtain ⟨kind, -, decoded⟩ := bind_ok decoded
          split at decoded
          -- an enumeration takes two levels, and the type under it has left one of them
          · obtain ⟨underlying, inner, decoded⟩ := bind_ok decoded
            obtain ⟨name, -, decoded⟩ := bind_ok decoded
            have below := (ih inner).2
            have := underlying.levels_pos
            have := type.levels_le
            exact ⟨SourceType.storable_of_build (Or.inl rfl) (atPlace_ok decoded), by omega⟩
          · split at decoded
            · have built := atPlace_ok decoded
              have other : type.levels = 1 := by
                rw [SourceType.levels, SourceType.isEnum, (SourceType.build_ok built).1]
                rfl
              exact ⟨SourceType.storable_of_build (Or.inr rfl) built, by omega⟩
            · obtain ⟨storable, below⟩ := ih decoded
              exact ⟨storable, by omega⟩
      | _ => cases decoded

/-- The answer is the value, or there is an excuse for finding the document nested too
deeply. -/
def AnswersUnless {α : Type} (excuse : Prop) (answer : Except DecodeError α) (value : α) : Prop :=
  answer = .ok value ∨ excuse ∧ answer = .error .tooDeep

theorem AnswersUnless.mono {α : Type} {excuse weaker : Prop} {answer : Except DecodeError α}
    {value : α} (answers : AnswersUnless excuse answer value) (weaken : excuse → weaker) :
    AnswersUnless weaker answer value :=
  answers.imp_right fun ⟨excused, failed⟩ => ⟨weaken excused, failed⟩

theorem AnswersUnless.seq {α β : Type} {excuse : Prop} {answer : Except DecodeError α}
    {next : α → Except DecodeError β} {value : α} {result : β}
    (first : AnswersUnless excuse answer value) (rest : AnswersUnless excuse (next value) result) :
    AnswersUnless excuse (answer >>= next) result := by
  rcases first with rfl | ⟨excused, rfl⟩
  · exact rest
  · exact Or.inr ⟨excused, rfl⟩

theorem decodeType_primitive {type : SourceType} (member : type ∈ SourceType.primitives)
    (budget : Nat) (place : Place) :
    AnswersUnless (budget < 1) (decodeType budget place (.str type.name)) type := by
  cases budget with
  | zero => exact Or.inr ⟨by decide, rfl⟩
  | succ budget => exact Or.inl (by simp [decodeType, SourceType.primitive?_name member])

theorem Kind.carrier {kind : Kind} (integral : kind.isIntegral = true) :
    ∃ type ∈ SourceType.primitives, type.kind = kind ∧ type.name = kind.name := by
  cases kind <;> first | contradiction | decide

theorem nameText_str {name : String} (named : name ≠ "") : nameText (.str name) = name := by
  simp [nameText, Json.isTruthy, Json.display, named]

/-- A storable type is read back from its document if there are levels enough. -/
theorem decodeType_toJson {type : SourceType} (storable : type.Storable) (budget : Nat)
    (place : Place) :
    AnswersUnless (budget < type.levels) (decodeType budget place type.toJson) type := by
  rcases storable with member | ⟨kinds, named⟩
  · obtain ⟨plain, written⟩ := SourceType.primitive_document member
    rw [plain, written]
    exact decodeType_primitive member budget place
  cases budget with
  | zero => exact Or.inr ⟨type.levels_pos, by rw [decodeType]⟩
  | succ budget =>
      obtain ⟨kind, name, underlying, admitted⟩ := type
      have text := nameText_str named
      cases underlying with
      | none =>
          obtain rfl : kind = .other := by
            rcases kinds with rfl | rfl
            · cases admitted
            · rfl
          have built : SourceType.build .other name none = .ok _ :=
            SourceType.build_named named admitted
          refine Or.inl ?_
          simp [SourceType.toJson, decodeType, require, Json.get?, List.lookup_cons, text, atPlace, bind,
            Except.bind, built]
      | some carrier =>
          obtain ⟨rfl, integral⟩ : kind = .enum ∧ carrier.isIntegral = true := by
            simpa [Kind.admits] using admitted
          obtain ⟨underlying, member, rfl, carried⟩ := Kind.carrier integral
          have built : SourceType.build .enum name (some underlying) = .ok _ :=
            SourceType.build_named named admitted
          have inner := decodeType_primitive member budget (place.push .underlying)
          rw [carried] at inner
          rcases inner with decoded | ⟨deep, failed⟩
          · refine Or.inl ?_
            simp [SourceType.toJson, decodeType, require, Json.get?, List.lookup_cons, text, atPlace, bind,
              Except.bind, decoded, SourceType.enumeration, built]
          · refine Or.inr ⟨Nat.succ_lt_succ deep, ?_⟩
            simp [SourceType.toJson, decodeType, require, Json.get?, List.lookup_cons, bind, Except.bind,
              failed]

/-! ## Constants -/

theorem decodeConstant_member (place : Place) (type : SourceType) (constant : Option Constant) :
    decodeConstant place type ((constantMember constant).lookup "constant") = .ok constant := by
  cases constant with
  | none => rfl
  | some constant =>
      simp [constantMember, Constant.toJson, decodeConstant, kindCode, decodeKind, Json.get?,
        List.lookup_cons, bind, Except.bind, pure, Except.pure]

/-! ## Operators -/

/-- Operators that a document can hold: the predefined ones have the tag of their name. -/
structure Operator.Storable (operator : Operator) : Prop where
  result : operator.returnType.Storable
  tagged : operator.tag = if operator.isPredefined then Tag.ofName? operator.name else none

/-- A predefined operator as the catalogue has it, any other operator as it is. -/
def Operator.catalogued (operator : Operator) : Operator :=
  match operator.tag with
  | some tag => .predefined tag
  | none => operator

namespace Resolution

def Storable : Resolution → Prop
  | resolved operator => operator.Storable
  | ambiguous | unresolved => True

def catalogued : Resolution → Resolution
  | resolved operator => resolved operator.catalogued
  | resolution => resolution

end Resolution

theorem IntegerType.storable (type : IntegerType) : type.type.Storable := by
  cases type <;> exact Or.inl (by decide)

theorem FloatType.storable (type : FloatType) : type.type.Storable := by
  cases type <;> exact Or.inl (by decide)

theorem Tag.storable_result (tag : Tag) : tag.signature.result.Storable := by
  have bool : SourceType.bool.Storable := Or.inl (by decide)
  cases tag with
  | arithmetic op type | bitwise op type | shift op type | complement type | plus type =>
      exact type.storable
  | minus type => exact type.toInteger.storable
  | floatArithmetic op type | floatMinus type | floatPlus type => exact type.storable
  | connective | comparison | floatComparison | enumEqual | enumUnequal | negation => exact bool
  | unmodelled op => cases op <;> exact Or.inl (by decide)

theorem Operator.Storable.predefined (tag : Tag) : (Operator.predefined tag).Storable :=
  ⟨tag.storable_result, tag.ofName?_name.symm⟩

theorem namedTag?_eq (name : Json) : namedTag? name = Tag.ofName? name.display := by
  cases name with
  | str text => rfl
  | _ => exact (Tag.ofName?_display (by simp)).symm

theorem decodeOperator_ok {budget : Nat} {place : Place} {data : Json} {resolution : Resolution}
    (decoded : decodeOperator budget place data = .ok resolution) : resolution.Storable := by
  cases data with
  | str name =>
      rw [decodeOperator] at decoded
      cases found : Tag.ofName? name with
      | none =>
          rw [found] at decoded
          cases decoded
      | some tag =>
          rw [found] at decoded
          cases decoded
          exact .predefined tag
  | obj members =>
      rw [decodeOperator] at decoded
      split at decoded
      · obtain ⟨name, -, decoded⟩ := bind_ok decoded
        obtain ⟨result, typed, decoded⟩ := bind_ok decoded
        cases decoded
        refine ⟨?_, by rw [namedTag?_eq]⟩
        unfold operatorResult at typed
        split at typed
        · exact (decodeType_ok typed).1
        · cases typed
          exact Tag.storable_result _
        · cases typed
      · cases decoded
        trivial
      · cases decoded
        trivial
      · cases decoded
  | _ => cases decoded

/-- A storable operator is read back from its document as the catalogue has it. -/
theorem decodeOperator_toJson {resolution : Resolution} (storable : resolution.Storable)
    (budget : Nat) (place : Place) :
    AnswersUnless (budget < 2) (decodeOperator budget place resolution.toJson)
      resolution.catalogued := by
  cases resolution with
  | ambiguous => exact Or.inl rfl
  | unresolved => exact Or.inl rfl
  | resolved operator =>
      obtain ⟨name, result, tag, isPredefined⟩ := operator
      obtain ⟨resultStorable, tagged⟩ := storable
      dsimp only at resultStorable tagged
      cases tag with
      | some tag =>
          obtain ⟨rfl, found⟩ : isPredefined = true ∧ Tag.ofName? name = some tag := by
            cases isPredefined with
            | true => exact ⟨rfl, tagged.symm⟩
            | false => cases tagged
          refine Or.inl ?_
          rw [Resolution.toJson, Operator.toJson]
          simp [Tag.name_of_ofName? found, decodeOperator, found, Resolution.catalogued,
            Operator.catalogued, Resolution.ofTag]
      | none =>
          have written : (Operator.mk name result none isPredefined).toJson = .obj
              [("name", .str name), ("return_type", result.toJson),
                ("predefined", .bool isPredefined)] := by
            simp [Operator.toJson]
          rw [Resolution.toJson, written]
          rcases decodeType_toJson resultStorable budget (place.push .returnType) with
            decoded | ⟨deep, failed⟩
          · refine Or.inl ?_
            simp [decodeOperator, operatorResult, namedTag?, require, Json.get?, List.lookup_cons, bind,
              Except.bind, pure, Except.pure, decoded, Json.isTruthy, Json.display, ← tagged,
              Resolution.catalogued, Operator.catalogued]
          · refine Or.inr ⟨deep.trans_le result.levels_le, ?_⟩
            simp [decodeOperator, operatorResult, require, Json.get?, List.lookup_cons, bind, Except.bind,
              failed]

end Source

end CondSat
