/-! # Limits of the surroundings

How deep a document or a tree may be nested depends on what a program runs on.
Everything that stops at such a bound takes the bounds as a parameter. -/
set_option autoImplicit false
namespace CondSat

class Limits where
  /-- Arrays and objects of a document may be nested less than this deep. -/
  nesting : Nat
  /-- The levels a decoder may descend: two for an operator node, three for a node
  that is not modelled. -/
  decoding : Nat
  /-- Operator nodes of a formula may be nested this deep. -/
  formula : Nat

instance Limits.usual : Limits := ⟨1000, 1000, 330⟩

end CondSat
