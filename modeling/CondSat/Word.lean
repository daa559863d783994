/-! # Two's complement

A word of `width` bits read as a signed and as an unsigned number.  Both
readings accept any integer and keep it modulo `2 ^ width`. -/
set_option autoImplicit false
namespace CondSat.Word

def widths : List Nat := [8, 16, 32, 64]

def count (width : Nat) : Nat := Nat.pow 2 width

/-- The number from `-2 ^ (width - 1)` up to `2 ^ (width - 1)` with the same bits. -/
def signed (value : Int) (width : Nat) : Int := value.bmod (count width)

/-- The number from 0 up to `2 ^ width` with the same bits. -/
def unsigned (value : Int) (width : Nat) : Int := value % count width

def topBit (value : Int) (width : Nat) : Int := unsigned value width / count (width - 1)

end CondSat.Word
