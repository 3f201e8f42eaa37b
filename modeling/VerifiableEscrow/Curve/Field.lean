import VerifiableEscrow.Number.Ladder

/-!
# The base field

The coordinates of the curve are residues modulo a prime `p` of 381 bits.  Because `p` is
`3` modulo `4`, a square has the root `x ^ ((p + 1) / 4)`; inverses are the power `p - 2`,
which sends zero to zero.
-/

namespace VerifiableEscrow

/-- The prime of the base field. -/
def fieldPrime : Nat :=
  0x1a0111ea397fe69a4b1ba7b6434bacd764774b84f38512bf6730d2a0f6b0f6241eabfffeb153ffffb9feffffffffaaab

/-- An element of the base field. -/
abbrev Fp := Fin fieldPrime

theorem fieldPrime_ne_zero : fieldPrime ≠ 0 := by decide

instance neZero_fieldPrime : @NeZero Nat Zero.ofOfNat0 fieldPrime := ⟨fieldPrime_ne_zero⟩

namespace Fp

/-- The residue of a natural number. -/
def ofNat (n : Nat) : Fp := Fin.ofNat fieldPrime n

/-- A power of a field element. -/
def power (x : Fp) (n : Nat) : Fp :=
  Ladder.climb (fun y => y * y) (· * ·) 1 (Ladder.bits n) n x

/-- The inverse of a field element, zero for zero. -/
def inverse (x : Fp) : Fp := x.power (fieldPrime - 2)

/-- The square root that the power `(p + 1) / 4` finds, if there is one. -/
def root? (x : Fp) : Option Fp :=
  let y := x.power ((fieldPrime + 1) / 4)
  if y * y = x then some y else none

/-- Whether an element lies in the upper half of the field: `⌊2y / p⌋`. -/
def isUpper (y : Fp) : Bool := 2 * y.val / fieldPrime = 1

end Fp
end VerifiableEscrow
