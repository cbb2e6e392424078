/-
# Powers of the two bases

Binary numbers are scaled by powers of two, decimals by powers of ten.
-/

namespace Galley

/-- The power of two with an exponent. -/
def powerOfTwo (k : Nat) : Nat := Nat.pow 2 k

/-- The power of ten with an exponent. -/
def powerOfTen (k : Nat) : Nat := Nat.pow 10 k

end Galley
