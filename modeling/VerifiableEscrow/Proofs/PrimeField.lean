import Mathlib.Algebra.Field.IsField
import Mathlib.Algebra.Field.ZMod
import Mathlib.Data.ZMod.Basic
import Mathlib.FieldTheory.Finite.Basic
import VerifiableEscrow.Proofs.Primality

/-!
# The two fields

Residues modulo a prime are a field.  The operations of the field structures below are the ones
that residues have anyway, so that a statement about the scheme's own arithmetic can be proved
as one about a field.  Division is left alone, since residues have a quotient of another kind;
inverses are written instead.

The structures are scoped, and a module that wants them opens `PrimeField`.

* `Fp.power_eq`, `Fp.inverse_eq`: the powers and the inverses that the scheme computes are those
  of the field;
* `Fp.mul_self_of_root?`, `Fp.root?_mul_self`: a root is found exactly where there is one;
* `Fp.isUpper_neg`: of two opposite elements one lies in the upper half;
* `Scalar.ofInt_eq_cast`: the exponent of an integer is its residue.
-/

namespace VerifiableEscrow

namespace PrimeField

theorem isField_residues {p : ℕ} [NeZero p] (hp : p.Prime) :
    @IsField (Fin p) (Fin.instCommRing p).toSemiring := by
  have : Fact p.Prime := ⟨hp⟩
  let _ := Fin.instCommRing p
  exact (ZMod.finEquiv p).toMulEquiv.isField (Field.toIsField (ZMod p))

/-- The base field of the curve. -/
noncomputable scoped instance fieldFp : Field Fp :=
  let _ := Fin.instCommRing fieldPrime
  (isField_residues fieldPrime_prime).toField

/-- The field of exponents. -/
noncomputable scoped instance fieldScalar : Field Scalar :=
  let _ := Fin.instCommRing groupOrder
  (isField_residues groupOrder_prime).toField

end PrimeField

open scoped PrimeField

/-! ## The base field -/

namespace Fp

theorem card : Fintype.card Fp = fieldPrime := Fintype.card_fin fieldPrime

theorem power_eq (x : Fp) (n : ℕ) : x.power n = x ^ n := by
  refine Ladder.climb_eq (fun n x => x ^ n) (fun x => pow_zero x) (fun n x => ?_) (fun n x => ?_)
    (Ladder.lt_two_pow_bits n) x
  · show x ^ (2 * n) = (x * x) ^ n
    rw [pow_mul, sq]
  · show x ^ (2 * n + 1) = (x * x) ^ n * x
    rw [pow_succ, pow_mul, sq]

theorem inverse_eq (x : Fp) : x.inverse = x⁻¹ := by
  rw [inverse, power_eq]
  rcases eq_or_ne x 0 with rfl | hx
  · rw [inv_zero]
    exact zero_pow (by decide)
  · refine eq_inv_of_mul_eq_one_right ?_
    rw [← pow_succ', show fieldPrime - 2 + 1 = Fintype.card Fp - 1 by rw [card]; rfl]
    exact FiniteField.pow_card_sub_one_eq_one x hx

/-- The power `(p + 1) / 4` of a square is a root of it. -/
theorem power_mul_self (y : Fp) :
    (y * y) ^ ((fieldPrime + 1) / 4) * (y * y) ^ ((fieldPrime + 1) / 4) = y * y := by
  have hexp : 2 * ((fieldPrime + 1) / 4 + (fieldPrime + 1) / 4) = fieldPrime + 1 := by decide
  calc (y * y) ^ ((fieldPrime + 1) / 4) * (y * y) ^ ((fieldPrime + 1) / 4)
      = y ^ (fieldPrime + 1) := by rw [← pow_add, ← sq, ← pow_mul, hexp]
    _ = y ^ Fintype.card Fp * y := by rw [card, pow_succ]
    _ = y * y := by rw [FiniteField.pow_card]

/-- A root that is found is a root. -/
theorem mul_self_of_root? {x y : Fp} (h : x.root? = some y) : y * y = x := by
  simp only [root?] at h
  split_ifs at h with hroot
  rw [← Option.some.inj h]
  exact hroot

/-- Where there is a root, one of the two is found. -/
theorem root?_mul_self (y : Fp) : ∃ r, (y * y).root? = some r ∧ (r = y ∨ r = -y) := by
  have hroot := power_mul_self y
  rw [← power_eq] at hroot
  refine ⟨(y * y).power ((fieldPrime + 1) / 4), ?_, mul_self_eq_mul_self_iff.mp hroot⟩
  simp only [root?]
  rw [if_pos hroot]

theorem isUpper_iff (y : Fp) : y.isUpper = true ↔ fieldPrime ≤ 2 * y.val := by
  have hpos : 0 < fieldPrime := Nat.pos_of_ne_zero fieldPrime_ne_zero
  have hlt : 2 * y.val / fieldPrime < 2 := Nat.div_lt_of_lt_mul (by have := y.isLt; omega)
  rw [isUpper, decide_eq_true_eq]
  constructor
  · intro h
    have := (Nat.le_div_iff_mul_le hpos).mp (Nat.le_of_eq h.symm)
    omega
  · intro h
    have := (Nat.le_div_iff_mul_le hpos).mpr (show 1 * fieldPrime ≤ 2 * y.val by omega)
    omega

/-- Of two opposite elements that are not zero, one lies in the upper half. -/
theorem isUpper_neg {y : Fp} (hy : y ≠ 0) : (-y).isUpper = !y.isUpper := by
  have hval : (-y).val = fieldPrime - y.val := by rw [Fin.val_neg, if_neg hy]
  have hpos : 0 < y.val := Nat.pos_of_ne_zero fun h => hy (Fin.ext h)
  have hlt : y.val < fieldPrime := y.isLt
  have hodd : fieldPrime % 2 = 1 := by decide
  rw [Bool.eq_not, Ne, Bool.eq_iff_iff, isUpper_iff, isUpper_iff, hval]
  omega

end Fp

/-! ## Exponents -/

namespace Scalar

theorem ofInt_eq_cast (n : ℤ) : ofInt n = (n : Scalar) := by
  apply Fin.ext
  exact (Fin.val_intCast n).symm

theorem cast_toInt (x : Scalar) : (x.toInt : Scalar) = x := by
  rw [← ofInt_eq_cast, ofInt_toInt]

end Scalar
end VerifiableEscrow
