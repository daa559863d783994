import CondSat.Json.Value

/-! # Places in a tree document

Faults of a document point at the value they are about: a path from the root
through the members of node objects.  `Step.follow?` and `follow?` say which
value a step or a path reaches. -/
set_option autoImplicit false
namespace CondSat.Source

inductive Step where
  | left
  | right
  | operand
  | child (index : Nat)
  | operator
  | returnType
  | type
  | underlying
  | constant
  deriving DecidableEq, Repr

namespace Step

def text : Step → String
  | left => ".left"
  | right => ".right"
  | operand => ".operand"
  | child index => s!".children[{index}]"
  | operator => ".operator"
  | returnType => ".return_type"
  | type => ".type"
  | underlying => ".underlying"
  | constant => ".constant"

/-- The part of a value that a step leads to. -/
def follow? : Step → Json → Option Json
  | left, value => value.get? "left"
  | right, value => value.get? "right"
  | operand, value => value.get? "operand"
  | child index, value =>
    match value.get? "children" with
    | some (.arr items) => items[index]?
    | _ => none
  | operator, value => value.get? "operator"
  | returnType, value => value.get? "return_type"
  | type, value => value.get? "type"
  | underlying, value => value.get? "underlying"
  | constant, value => value.get? "constant"

end Step

structure Place where
  root : String
  steps : List Step
  deriving DecidableEq, Repr, Inhabited

namespace Place

def document : Place := ⟨"$", []⟩

def push (place : Place) (step : Step) : Place := ⟨place.root, place.steps ++ [step]⟩

def text (place : Place) : String := place.root ++ String.join (place.steps.map Step.text)

def follow? : List Step → Json → Option Json
  | [], value => some value
  | step :: rest, value => (step.follow? value).bind (follow? rest)

end Place

end CondSat.Source
