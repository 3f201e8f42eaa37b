import Mathlib.AlgebraicGeometry.EllipticCurve.Affine.Point
import Mathlib.Tactic.FieldSimp
import Mathlib.Tactic.LinearCombination
import VerifiableEscrow.Curve.Point
import VerifiableEscrow.Proofs.PrimeField

/-!
# The points of the curve are a group

Sums of points are computed on triples without division, by a chord and a tangent formula and
five cases.  The points of an elliptic curve over a field are an abelian group, and this file
says that the sums are the sums of that group, for all points of the curve, doublings, inverses
and the identity included.

## Reading a triple

Nothing is said about triples on their own.  A triple *stands for* an element `g` of the group
when the point that it is brought back to is `Point.ofCurve g`, and each operation on triples is
followed on that reading: `toPoint_add`, `toPoint_times`, `toPoint_foldl`.  A triple that is
no identity is `(x z, y z, z)` for the coordinates that it stands for (`eq_scaled`), and with
that the formulas become identities between rational functions.

## What the scheme computes

* `onCurve_iff`: the points that pass the curve's equation are those of the group;
* `ordinate_ne_zero`: none of them has ordinate zero, so that a root and its opposite differ;
* `add_ofCurve`, `times_ofCurve`, `combination_ofCurve`: sums, multiples and sums of multiples;
* `inSubgroup_ofCurve`: the test for the subgroup asks whether the group order annihilates a
  point.
-/

namespace VerifiableEscrow

open WeierstrassCurve.Affine
open scoped PrimeField

/-- The curve `y² = x³ + 4`. -/
def curve : WeierstrassCurve.Affine Fp := ⟨0, 0, 0, 0, curveConstant⟩

/-- An element of the group of the curve. -/
abbrev CurvePoint := curve.Point

theorem two_ne_zero_fp : (2 : Fp) ≠ 0 := by decide

theorem eight_ne_zero_fp : (8 : Fp) ≠ 0 := by decide

theorem eq_zero_of_eq_neg {y : Fp} (h : y = -y) : y = 0 := by
  have h2 : 2 * y = 0 := by linear_combination h
  exact (mul_eq_zero.mp h2).resolve_left two_ne_zero_fp

/-- No point of the curve is singular. -/
theorem nonsingular_iff (x y : Fp) :
    curve.Nonsingular x y ↔ y * y = x * x * x + curveConstant := by
  have hdisc : curve.Δ ≠ 0 := by
    have : curve.Δ = -(6912 : Fp) := by
      simp only [WeierstrassCurve.Δ, WeierstrassCurve.b₂, WeierstrassCurve.b₄,
        WeierstrassCurve.b₆, WeierstrassCurve.b₈, curve, curveConstant]
      norm_num
    rw [this]
    decide
  rw [← equation_iff_nonsingular_of_Δ_ne_zero hdisc, equation_iff]
  simp only [curve]
  constructor
  · intro h
    linear_combination h
  · intro h
    linear_combination h

theorem negY_curve (x y : Fp) : curve.negY x y = -y := by
  simp [negY, curve]

theorem power_neg_curveConstant : (-curveConstant).power ((fieldPrime - 1) / 3) ≠ 1 := by
  decide +kernel

/-- No point of the curve has ordinate zero.  Its abscissa would be a cube root of `-4`, and the
power `(p - 1) / 3` of a cube is one. -/
theorem ordinate_ne_zero {x y : Fp} (h : y * y = x * x * x + curveConstant) : y ≠ 0 := by
  rintro rfl
  have hcube : -curveConstant = x ^ 3 := by linear_combination h
  have hx : x ≠ 0 := by
    rintro rfl
    rw [zero_pow (by decide)] at hcube
    exact absurd hcube (by decide)
  have hexp : 3 * ((fieldPrime - 1) / 3) = Fintype.card Fp - 1 := by rw [Fp.card]; decide
  apply power_neg_curveConstant
  rw [Fp.power_eq, hcube, ← pow_mul, hexp]
  exact FiniteField.pow_card_sub_one_eq_one x hx

namespace Point

/-- The point of an element of the group. -/
def ofCurve : CurvePoint → Point
  | .zero => .identity
  | .some x y _ => .affine x y

@[simp] theorem ofCurve_zero : ofCurve 0 = .identity := rfl

@[simp] theorem ofCurve_some {x y : Fp} (h : curve.Nonsingular x y) :
    ofCurve (.some x y h) = .affine x y := rfl

theorem ofCurve_injective : Function.Injective ofCurve := by
  rintro (_ | ⟨x, y, h⟩) (_ | ⟨x', y', h'⟩) heq
  · rfl
  · simp [ofCurve] at heq
  · simp [ofCurve] at heq
  · simp only [ofCurve, affine.injEq] at heq
    obtain ⟨rfl, rfl⟩ := heq
    rfl

theorem ofCurve_eq_identity_iff {g : CurvePoint} : ofCurve g = .identity ↔ g = 0 := by
  rw [← ofCurve_zero, ofCurve_injective.eq_iff]

theorem onCurve_ofCurve (g : CurvePoint) : (ofCurve g).onCurve = true := by
  rcases g with _ | ⟨x, y, h⟩
  · rfl
  · exact decide_eq_true ((nonsingular_iff x y).mp h)

/-- The points that satisfy the equation are those of the group. -/
theorem onCurve_iff {P : Point} : P.onCurve = true ↔ ∃ g, ofCurve g = P := by
  constructor
  · intro h
    cases P with
    | identity => exact ⟨0, rfl⟩
    | affine x y => exact ⟨.some x y ((nonsingular_iff x y).mpr (of_decide_eq_true h)), rfl⟩
  · rintro ⟨g, rfl⟩
    exact onCurve_ofCurve g

end Point

/-! ## Triples -/

namespace Projective

open Point (ofCurve ofCurve_zero ofCurve_some ofCurve_eq_identity_iff)

theorem toPoint_of_eq_zero {P : Projective} (hz : P.z = 0) : P.toPoint = .identity := if_pos hz

theorem toPoint_scaled {z : Fp} (hz : z ≠ 0) (x y : Fp) :
    toPoint ⟨x * z, y * z, z⟩ = .affine x y := by
  simp only [toPoint]
  rw [if_neg hz, Fp.inverse_eq, mul_inv_cancel_right₀ hz, mul_inv_cancel_right₀ hz]

@[simp] theorem toPoint_ofPoint (P : Point) : (ofPoint P).toPoint = P := by
  cases P with
  | identity => rfl
  | affine x y =>
    have h := toPoint_scaled one_ne_zero x y
    rwa [mul_one, mul_one] at h

theorem toPoint_zero : zero.toPoint = ofCurve 0 := rfl

/-- The tangent at a point whose ordinate is not zero, by its slope. -/
theorem toPoint_double_scaled {x y z ℓ : Fp} (hy : y ≠ 0) (hz : z ≠ 0)
    (hℓ : ℓ * (2 * y) = 3 * (x * x)) :
    (double ⟨x * z, y * z, z⟩).toPoint = .affine (curve.addX x x ℓ) (curve.addY x x y ℓ) := by
  have hs : y * z * z ≠ 0 := mul_ne_zero (mul_ne_zero hy hz) hz
  have hw : 8 * (y * z * z) * (y * z * z * (y * z * z)) ≠ 0 :=
    mul_ne_zero (mul_ne_zero eight_ne_zero_fp hs) (mul_ne_zero hs hs)
  rw [← toPoint_scaled hw, addY, negAddY, negY_curve]
  simp only [addX, curve]
  congr 1
  simp only [double, mk.injEq]
  refine ⟨?_, ?_, trivial⟩
  · linear_combination (-(2 * y * z ^ 6) * (3 * (x * x) + ℓ * (2 * y))) * hℓ
  · linear_combination (-z ^ 6 * (12 * x * y ^ 2 - ((3 * (x * x)) ^ 2
      + 3 * (x * x) * (ℓ * (2 * y)) + (ℓ * (2 * y)) ^ 2))) * hℓ

/-- The chord through two points with different abscissas, by its slope. -/
theorem toPoint_chord_scaled {x y z x' y' z' ℓ : Fp} (hx : x ≠ x') (hz : z ≠ 0) (hz' : z' ≠ 0)
    (hℓ : ℓ * (x - x') = y - y') :
    (chord ⟨x * z, y * z, z⟩ ⟨x' * z', y' * z', z'⟩).toPoint
      = .affine (curve.addX x x' ℓ) (curve.addY x x' y ℓ) := by
  have hzz : z * z' ≠ 0 := mul_ne_zero hz hz'
  have hv : (x' - x) * (z * z') ≠ 0 := mul_ne_zero (sub_ne_zero.mpr hx.symm) hzz
  have hw : ((x' - x) * (z * z')) ^ 3 * (z * z') ≠ 0 := mul_ne_zero (pow_ne_zero 3 hv) hzz
  have hu : y' * z' * z - y * z * z' = ℓ * ((x' - x) * (z * z')) := by
    linear_combination (z * z') * hℓ
  rw [← toPoint_scaled hw, addY, negAddY, negY_curve]
  simp only [addX, curve]
  congr 1
  simp only [chord, mk.injEq, hu]
  refine ⟨?_, ?_, ?_⟩ <;> ring

theorem cross_mul_eq_iff {z z' : Fp} (hz : z ≠ 0) (hz' : z' ≠ 0) (x x' : Fp) :
    x' * z' * z = x * z * z' ↔ x = x' := by
  rw [mul_right_comm x z z', mul_assoc x z' z, mul_assoc x' z' z,
    mul_left_inj' (mul_ne_zero hz' hz), eq_comm]

/-- Doubling a triple that is no identity. -/
theorem toPoint_double_eq {x y z : Fp} (hz : z ≠ 0) (h : curve.Nonsingular x y) :
    (double ⟨x * z, y * z, z⟩).toPoint = ofCurve (.some x y h + .some x y h) := by
  by_cases hy : y = 0
  · have hneg : y = curve.negY x y := by rw [negY_curve, hy, neg_zero]
    rw [Point.add_self_of_Y_eq hneg, toPoint_of_eq_zero (by simp [double, hy]), ofCurve_zero]
  · have hneg : y ≠ curve.negY x y := by
      rw [negY_curve]
      exact fun heq => hy (eq_zero_of_eq_neg heq)
    have hslope : curve.slope x x y y * (2 * y) = 3 * (x * x) := by
      have hsub : y - curve.negY x y ≠ 0 := sub_ne_zero.mpr hneg
      have hfrac := div_mul_cancel₀ (3 * x ^ 2 + 2 * curve.a₂ * x + curve.a₄ - curve.a₁ * y) hsub
      rw [← slope_of_Y_ne rfl hneg, negY_curve] at hfrac
      simp only [curve] at hfrac ⊢
      linear_combination hfrac
    rw [Point.add_self_of_Y_ne hneg, toPoint_double_scaled hy hz hslope, ofCurve_some]

/-- The sum of triples that are no identity. -/
theorem toPoint_add_scaled {x y z x' y' z' : Fp} (hz : z ≠ 0) (hz' : z' ≠ 0)
    (h : curve.Nonsingular x y) (h' : curve.Nonsingular x' y') :
    (add ⟨x * z, y * z, z⟩ ⟨x' * z', y' * z', z'⟩).toPoint
      = ofCurve (.some x y h + .some x' y' h') := by
  have hcross := cross_mul_eq_iff hz hz'
  simp only [add]
  rw [if_neg hz, if_neg hz']
  by_cases hx : x = x'
  · subst hx
    rw [if_pos ((hcross x x).mpr rfl)]
    by_cases hy : y = y'
    · subst hy
      rw [if_pos ((hcross y y).mpr rfl)]
      exact toPoint_double_eq hz h
    · have hsq : y * y = y' * y' := by
        rw [(nonsingular_iff x y).mp h, (nonsingular_iff x y').mp h']
      have hneg : y = curve.negY x y' := by
        rw [negY_curve]
        exact (mul_self_eq_mul_self_iff.mp hsq).resolve_left hy
      rw [if_neg (mt (hcross y y').mp hy), Point.add_of_Y_eq rfl hneg, toPoint_zero]
  · have hslope : curve.slope x x' y y' * (x - x') = y - y' := by
      rw [slope_of_X_ne hx]
      exact div_mul_cancel₀ _ (sub_ne_zero.mpr hx)
    rw [if_neg (mt (hcross x x').mp hx), Point.add_of_X_ne hx,
      toPoint_chord_scaled hx hz hz' hslope, ofCurve_some]

/-- A triple that is no identity and stands for an element is a multiple of its coordinates. -/
theorem eq_scaled {P : Projective} {g : CurvePoint} (hz : P.z ≠ 0) (hP : P.toPoint = ofCurve g) :
    ∃ x y h, P = ⟨x * P.z, y * P.z, P.z⟩ ∧ g = .some x y h := by
  have hcoord : P = ⟨P.x * P.z⁻¹ * P.z, P.y * P.z⁻¹ * P.z, P.z⟩ := by
    rw [inv_mul_cancel_right₀ hz, inv_mul_cancel_right₀ hz]
  rw [hcoord, toPoint_scaled hz] at hP
  rcases g with _ | ⟨x, y, h⟩
  · simp [ofCurve] at hP
  · simp only [ofCurve_some, Point.affine.injEq] at hP
    obtain ⟨rfl, rfl⟩ := hP
    exact ⟨_, _, h, hcoord, rfl⟩

/-- The sum of two triples stands for the sum of what they stand for. -/
theorem toPoint_add {P Q : Projective} {g g' : CurvePoint} (hP : P.toPoint = ofCurve g)
    (hQ : Q.toPoint = ofCurve g') : (P.add Q).toPoint = ofCurve (g + g') := by
  by_cases hPz : P.z = 0
  · rw [toPoint_of_eq_zero hPz, eq_comm, ofCurve_eq_identity_iff] at hP
    rw [add, if_pos hPz, hQ, hP, zero_add]
  by_cases hQz : Q.z = 0
  · rw [toPoint_of_eq_zero hQz, eq_comm, ofCurve_eq_identity_iff] at hQ
    rw [add, if_neg hPz, if_pos hQz, hP, hQ, add_zero]
  obtain ⟨x, y, h, hPe, rfl⟩ := eq_scaled hPz hP
  obtain ⟨x', y', h', hQe, rfl⟩ := eq_scaled hQz hQ
  rw [hPe, hQe]
  exact toPoint_add_scaled hPz hQz h h'

/-- Twice a triple stands for twice what it stands for. -/
theorem toPoint_double {P : Projective} {g : CurvePoint} (hP : P.toPoint = ofCurve g) :
    P.double.toPoint = ofCurve (2 • g) := by
  rw [two_nsmul]
  by_cases hPz : P.z = 0
  · rw [toPoint_of_eq_zero hPz, eq_comm, ofCurve_eq_identity_iff] at hP
    rw [toPoint_of_eq_zero (by simp [double, hPz]), hP, add_zero, ofCurve_zero]
  · obtain ⟨x, y, h, hPe, rfl⟩ := eq_scaled hPz hP
    rw [hPe]
    exact toPoint_double_eq hPz h

/-- What the ladder climbs to stands for the multiple. -/
theorem toPoint_climb {steps n : ℕ} (hn : n < 2 ^ steps) {P : Projective} {g : CurvePoint}
    (hP : P.toPoint = ofCurve g) :
    (Ladder.climb double add zero steps n P).toPoint = ofCurve (n • g) := by
  induction steps generalizing n P g with
  | zero =>
    have h0 : n = 0 := by simpa using hn
    rw [h0, zero_nsmul, Ladder.climb, toPoint_zero]
  | succ steps ih =>
    have hhalf : n / 2 < 2 ^ steps := by rw [pow_succ] at hn; omega
    have hrest := ih hhalf (toPoint_double hP)
    rw [← mul_nsmul'] at hrest
    rw [Ladder.climb]
    split_ifs with hodd
    · rw [toPoint_add hrest hP, ← succ_nsmul]
      congr 2
      omega
    · rw [hrest]
      congr 2
      omega

theorem toPoint_times (n : ℕ) {P : Projective} {g : CurvePoint} (hP : P.toPoint = ofCurve g) :
    (P.times n).toPoint = ofCurve (n • g) :=
  toPoint_climb (Ladder.lt_two_pow_bits n) hP

/-- Multiples added up from the left, on top of what has been added before. -/
theorem toPoint_foldl (terms : List (CurvePoint × ℕ)) {total : Projective} {g : CurvePoint}
    (htotal : total.toPoint = ofCurve g) :
    ((terms.map fun t => (ofCurve t.1, t.2)).foldl
        (fun total term => total.add ((ofPoint term.1).times term.2)) total).toPoint
      = ofCurve (g + (terms.map fun t => t.2 • t.1).sum) := by
  induction terms generalizing total g with
  | nil => simpa using htotal
  | cons t terms ih =>
    rw [List.map_cons, List.foldl_cons, List.map_cons, List.sum_cons, ← add_assoc]
    exact ih (toPoint_add htotal (toPoint_times t.2 (toPoint_ofPoint _)))

end Projective

/-! ## Points -/

namespace Point

theorem add_ofCurve (g g' : CurvePoint) : (ofCurve g).add (ofCurve g') = ofCurve (g + g') :=
  Projective.toPoint_add (Projective.toPoint_ofPoint _) (Projective.toPoint_ofPoint _)

theorem times_ofCurve (n : ℕ) (g : CurvePoint) : (ofCurve g).times n = ofCurve (n • g) :=
  Projective.toPoint_times n (Projective.toPoint_ofPoint _)

theorem combination_ofCurve (terms : List (CurvePoint × Scalar)) :
    combination (terms.map fun t => (ofCurve t.1, t.2))
      = ofCurve (terms.map fun t => t.2.val • t.1).sum := by
  have h := Projective.toPoint_foldl (terms.map fun t => (t.1, t.2.val)) Projective.toPoint_zero
  rw [zero_add, List.map_map, List.map_map] at h
  rw [combination, Projective.sumOfTimes, List.map_map]
  exact h

theorem inSubgroup_ofCurve (g : CurvePoint) :
    (ofCurve g).inSubgroup = true ↔ groupOrder • g = 0 := by
  have h : ((Projective.ofPoint (ofCurve g)).times groupOrder).toPoint = _ :=
    times_ofCurve groupOrder g
  rw [inSubgroup, decide_eq_true_eq, ← ofCurve_eq_identity_iff, ← h]
  constructor
  · exact Projective.toPoint_of_eq_zero
  · intro hid
    by_contra hz
    rw [Projective.toPoint, if_neg hz] at hid
    simp at hid

end Point
end VerifiableEscrow
