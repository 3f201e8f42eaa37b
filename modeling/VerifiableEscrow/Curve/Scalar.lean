/-!
# Exponents

Exponents are residues modulo the prime `q`, the order of the group that the scheme works
in.  An integer acts through its residue, so that negative exponents work.
-/

namespace VerifiableEscrow

/-- The order of the group. -/
def groupOrder : Nat := 0x73eda753299d7d483339d80809a1d80553bda402fffe5bfeffffffff00000001

/-- An exponent: a residue modulo the group order. -/
abbrev Scalar := Fin groupOrder

theorem groupOrder_ne_zero : groupOrder ≠ 0 := by decide

instance neZero_groupOrder : @NeZero Nat Zero.ofOfNat0 groupOrder := ⟨groupOrder_ne_zero⟩

namespace Scalar

/-- The residue of an integer. -/
def ofInt (n : Int) : Scalar :=
  ⟨(n % groupOrder).toNat, by
    have h0 : (0 : Int) < groupOrder := by decide
    have h1 := Int.emod_nonneg n (Int.ne_of_gt h0)
    have h2 := Int.emod_lt_of_pos n h0
    omega⟩

/-- The exponent that an integer is, where it lies in range. -/
def ofInt? : Int → Option Scalar
  | .ofNat n => if h : n < groupOrder then some ⟨n, h⟩ else none
  | .negSucc _ => none

/-- The integer of an exponent. -/
def toInt (x : Scalar) : Int := .ofNat x.val

@[simp] theorem ofInt?_toInt (x : Scalar) : ofInt? x.toInt = some x := by
  simp [ofInt?, toInt, x.isLt]

@[simp] theorem ofInt_toInt (x : Scalar) : ofInt x.toInt = x := by
  apply Fin.ext
  have h := x.isLt
  have : (x.val : Int) % groupOrder = x.val := Int.emod_eq_of_lt (by omega) (by omega)
  simp [ofInt, toInt, this]

theorem toInt_ofInt (n : Int) : (ofInt n).toInt = n % groupOrder := by
  have h0 : (groupOrder : Int) ≠ 0 := by decide
  exact Int.toNat_of_nonneg (Int.emod_nonneg n h0)

end Scalar
end VerifiableEscrow
