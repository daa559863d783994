import CondSat.Ieee.Decimal
import CondSat.Text.Torn

/-! # Document values

Trees and settings arrive as JSON documents.  Whole numbers of any size and
64-bit floating-point numbers are different values, and an object keeps its
members in the order of their first appearance.  Text in which half a surrogate pair
stands alone is a value of its own. -/
set_option autoImplicit false
namespace CondSat

inductive Json where
  | null
  | bool (value : Bool)
  | int (value : Int)
  | float (pattern : BitVec 64)
  | str (value : String)
  | torn (value : Text.Torn)
  | arr (items : List Json)
  | obj (members : List (String × Json))
  deriving Repr, Inhabited

instance : Coe String Json := ⟨.str⟩

namespace Json

mutual

def decEq : (a b : Json) → Decidable (a = b)
  | .null, .null => isTrue rfl
  | .bool a, .bool b => if h : a = b then isTrue (h ▸ rfl) else isFalse fun e => h (bool.inj e)
  | .int a, .int b => if h : a = b then isTrue (h ▸ rfl) else isFalse fun e => h (int.inj e)
  | .float a, .float b => if h : a = b then isTrue (h ▸ rfl) else isFalse fun e => h (float.inj e)
  | .str a, .str b => if h : a = b then isTrue (h ▸ rfl) else isFalse fun e => h (str.inj e)
  | .torn a, .torn b => if h : a = b then isTrue (h ▸ rfl) else isFalse fun e => h (torn.inj e)
  | .arr a, .arr b =>
    match decEqItems a b with
    | isTrue h => isTrue (h ▸ rfl)
    | isFalse h => isFalse fun e => h (arr.inj e)
  | .obj a, .obj b =>
    match decEqMembers a b with
    | isTrue h => isTrue (h ▸ rfl)
    | isFalse h => isFalse fun e => h (obj.inj e)
  | .null, .bool _ | .null, .int _ | .null, .float _ | .null, .str _ | .null, .torn _
  | .null, .arr _ | .null, .obj _ | .bool _, .null | .bool _, .int _ | .bool _, .float _
  | .bool _, .str _ | .bool _, .torn _ | .bool _, .arr _ | .bool _, .obj _ | .int _, .null
  | .int _, .bool _ | .int _, .float _ | .int _, .str _ | .int _, .torn _ | .int _, .arr _
  | .int _, .obj _ | .float _, .null | .float _, .bool _ | .float _, .int _ | .float _, .str _
  | .float _, .torn _ | .float _, .arr _ | .float _, .obj _ | .str _, .null | .str _, .bool _
  | .str _, .int _ | .str _, .float _ | .str _, .torn _ | .str _, .arr _ | .str _, .obj _
  | .torn _, .null | .torn _, .bool _ | .torn _, .int _ | .torn _, .float _ | .torn _, .str _
  | .torn _, .arr _ | .torn _, .obj _ | .arr _, .null | .arr _, .bool _ | .arr _, .int _
  | .arr _, .float _ | .arr _, .str _ | .arr _, .torn _ | .arr _, .obj _ | .obj _, .null
  | .obj _, .bool _ | .obj _, .int _ | .obj _, .float _ | .obj _, .str _ | .obj _, .torn _
  | .obj _, .arr _ => isFalse nofun

def decEqItems : (a b : List Json) → Decidable (a = b)
  | [], [] => isTrue rfl
  | [], _ :: _ | _ :: _, [] => isFalse nofun
  | x :: xs, y :: ys =>
    match decEq x y, decEqItems xs ys with
    | isTrue h, isTrue hs => isTrue (h ▸ hs ▸ rfl)
    | isFalse h, _ => isFalse fun e => h (List.cons.inj e).1
    | _, isFalse h => isFalse fun e => h (List.cons.inj e).2

def decEqMembers : (a b : List (String × Json)) → Decidable (a = b)
  | [], [] => isTrue rfl
  | [], _ :: _ | _ :: _, [] => isFalse nofun
  | (k, x) :: xs, (l, y) :: ys =>
    if hk : k = l then
      match decEq x y, decEqMembers xs ys with
      | isTrue h, isTrue hs => isTrue (hk ▸ h ▸ hs ▸ rfl)
      | isFalse h, _ => isFalse fun e => h (Prod.mk.inj (List.cons.inj e).1).2
      | _, isFalse h => isFalse fun e => h (List.cons.inj e).2
    else isFalse fun e => hk (Prod.mk.inj (List.cons.inj e).1).1

end

instance : DecidableEq Json := decEq

mutual

def mapScalars (f : Json → Json) : Json → Json
  | .arr items => .arr (mapItems f items)
  | .obj members => .obj (mapMembers f members)
  | scalar => f scalar

def mapItems (f : Json → Json) : List Json → List Json
  | [] => []
  | item :: rest => mapScalars f item :: mapItems f rest

def mapMembers (f : Json → Json) : List (String × Json) → List (String × Json)
  | [] => []
  | (key, value) :: rest => (key, mapScalars f value) :: mapMembers f rest

end

def get? (key : String) : Json → Option Json
  | .obj members => members.lookup key
  | _ => none

/-- Set a member: in place when the key is there, at the end otherwise. -/
def setMember (key : String) (value : Json) (members : List (String × Json)) :
    List (String × Json) :=
  if members.any (·.1 == key) then
    members.map fun member => if member.1 == key then (key, value) else member
  else members ++ [(key, value)]

/-- Whether a value counts as true where a yes or no is wanted: nothing, zero
and the empty text, list and object do not. -/
def isTruthy : Json → Bool
  | .null => false
  | .bool value => value
  | .int value => value != 0
  | .float pattern => !Ieee.Format.double.isZero pattern.toNat
  | .str value => !value.isEmpty
  | .torn _ => true
  | .arr items => !items.isEmpty
  | .obj members => !members.isEmpty

def truthy? (key : String) (value : Json) : Option Json := (value.get? key).filter isTruthy

end Json

end CondSat
