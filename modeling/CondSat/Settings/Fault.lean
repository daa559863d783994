import CondSat.Analysis.Options
import CondSat.Storage.Disk
import CondSat.Text.Numeral
import CondSat.Json.Value

/-! # Faults of settings

Settings come from a document that a user may write by hand, so every access
can find something else than it needs. -/
set_option autoImplicit false
namespace CondSat.Settings

inductive Fault where
  /-- The file is there and cannot be read. -/
  | file (fault : Storage.Fault)
  /-- The file holds no text. -/
  | notText
  /-- The document is nested too deeply. -/
  | tooDeep
  /-- A text is no whole number. -/
  | numeral (fault : Text.IntegerFault)
  /-- A torn text is no whole number. -/
  | tornNumeral (text : Text.Torn)
  /-- The document is no object, so it has no members to look up. -/
  | notAnObject
  /-- The document is no object, so it has no members to name. -/
  | notIndexable
  | noMember (name : String)
  /-- A member is of a kind that cannot be used. -/
  | wrongKind
  /-- A torn text is no path. -/
  | unencodable
  | notANumber
  | infinite
  | options (fault : Analysis.OptionsFault)
  deriving DecidableEq, Repr

def Fault.message : Fault → String
  | file fault => fault.text
  | notText => "the settings are not text"
  | tooDeep => "the settings are nested too deeply"
  | numeral fault => fault.message
  | tornNumeral text => Text.IntegerFault.notice text.quoted
  | notAnObject => "the settings have no members"
  | notIndexable => "the settings cannot be indexed"
  | noMember name => Text.quoted name
  | wrongKind => "a setting is of the wrong kind"
  | unencodable => "a path cannot be encoded"
  | notANumber => "cannot convert float NaN to integer"
  | infinite => "cannot convert float infinity to integer"
  | options fault => fault.message

/-- The whole number of a setting.  Fractions are cut off and text is read. -/
def wholeNumber : Json → Except Fault Int
  | .int value => .ok value
  | .bool value => .ok (if value then 1 else 0)
  | .float pattern =>
    let f := Ieee.Format.double
    let magnitude := f.magnitude pattern.toNat
    if f.isNaN pattern.toNat then .error .notANumber
    else if f.isInfinite pattern.toNat then .error .infinite
    else
      let exact := f.ratio magnitude
      let whole : Nat := exact.1 / exact.2
      .ok (if f.isNegative pattern.toNat then -(whole : Int) else whole)
  | .str text =>
    match Text.integer? text with
    | .ok value => .ok value
    | .error fault => .error (.numeral fault)
  | .torn text => .error (.tornNumeral text)
  | _ => .error .wrongKind

end CondSat.Settings
