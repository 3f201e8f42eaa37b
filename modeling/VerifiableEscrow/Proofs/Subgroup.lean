import Mathlib.Algebra.Module.Basic
import Mathlib.Algebra.Module.NatInt
import Mathlib.Tactic.Module
import VerifiableEscrow.Proofs.CurveGroup

/-!
# The subgroup of prime order

The scheme works in the subgroup that the group order annihilates.  Exponents act on it through
their residues, and because the order is prime they are a field: the subgroup is a vector space
over the exponents, and an equation between products of powers is a linear equation.

* `Member`: an element of the subgroup, with `Member.point` for its point;
* `smul_eq_zero`, from the library, is cancellation of exponents; `generator_ne_zero` makes it
  usable for the generator;
* `point_ne_affine_zero`: no member has abscissa zero.  The points that have it are of order
  three, and the encoding has no form for them.
-/

namespace VerifiableEscrow

open WeierstrassCurve.Affine
open scoped PrimeField

/-- The subgroup that the group order annihilates. -/
noncomputable def primeSubgroup : AddSubgroup CurvePoint := (nsmulAddMonoidHom groupOrder).ker

theorem mem_primeSubgroup {g : CurvePoint} : g ∈ primeSubgroup ↔ groupOrder • g = 0 :=
  AddMonoidHom.mem_ker

/-- An element of the subgroup of prime order. -/
abbrev Member : Type := primeSubgroup

namespace Member

theorem order_nsmul (g : Member) : groupOrder • g = 0 :=
  Subtype.ext (mem_primeSubgroup.mp g.2)

theorem mod_nsmul (n : ℕ) (g : Member) : (n % groupOrder) • g = n • g := by
  conv_rhs => rw [← Nat.mod_add_div n groupOrder, add_nsmul, mul_nsmul, order_nsmul, nsmul_zero,
    add_zero]

/-- Exponents act through their residues. -/
noncomputable scoped instance moduleScalar : Module Scalar Member where
  smul x g := x.val • g
  one_smul g := by
    show ((1 : Scalar).val) • g = g
    rw [show (1 : Scalar).val = 1 from rfl, one_nsmul]
  mul_smul x y g := by
    show (x * y).val • g = x.val • y.val • g
    rw [Fin.val_mul, mod_nsmul, mul_nsmul']
  smul_zero x := nsmul_zero x.val
  smul_add x g g' := nsmul_add g g' x.val
  add_smul x y g := by
    show (x + y).val • g = x.val • g + y.val • g
    rw [Fin.val_add, mod_nsmul, add_nsmul]
  zero_smul g := zero_nsmul g

/-! ## Points -/

/-- The point of a member. -/
def point (g : Member) : Point := Point.ofCurve g.1

theorem point_injective : Function.Injective point := fun _ _ h =>
  Subtype.ext (Point.ofCurve_injective h)

@[simp] theorem onCurve_point (g : Member) : g.point.onCurve = true := Point.onCurve_ofCurve g.1

@[simp] theorem inSubgroup_point (g : Member) : g.point.inSubgroup = true :=
  (Point.inSubgroup_ofCurve g.1).mpr (mem_primeSubgroup.mp g.2)

/-- The points that pass both checks are those of the members. -/
theorem exists_point_eq {P : Point} (hcurve : P.onCurve = true) (hsub : P.inSubgroup = true) :
    ∃ g : Member, g.point = P := by
  obtain ⟨g, rfl⟩ := Point.onCurve_iff.mp hcurve
  exact ⟨⟨g, mem_primeSubgroup.mpr ((Point.inSubgroup_ofCurve g).mp hsub)⟩, rfl⟩

@[simp] theorem point_zero : (0 : Member).point = .identity := rfl

theorem add_point (g g' : Member) : g.point.add g'.point = (g + g').point :=
  Point.add_ofCurve g.1 g'.1

theorem scale_point (x : Scalar) (g : Member) : g.point.scale x = (x • g).point :=
  Point.times_ofCurve x.val g.1

/-- The sum of members, each raised to its exponent. -/
noncomputable def combination (terms : List (Member × Scalar)) : Member :=
  (terms.map fun t => t.2 • t.1).sum

theorem combination_point (terms : List (Member × Scalar)) :
    Point.combination (terms.map fun t => (t.1.point, t.2)) = (combination terms).point := by
  have h := Point.combination_ofCurve (terms.map fun t => (t.1.1, t.2))
  rw [List.map_map] at h
  rw [point, combination, AddSubgroup.val_list_sum, List.map_map]
  exact h.trans (by rw [List.map_map]; rfl)

/-! ## The generator -/

theorem onCurve_generator : Point.generator.onCurve = true := by decide +kernel

theorem inSubgroup_generator : Point.generator.inSubgroup = true := by decide +kernel

theorem exists_point_eq_generator : ∃ g : Member, g.point = Point.generator :=
  exists_point_eq onCurve_generator inSubgroup_generator

/-- The generator as a member. -/
noncomputable def generator : Member := exists_point_eq_generator.choose

@[simp] theorem point_generator : generator.point = Point.generator :=
  exists_point_eq_generator.choose_spec

theorem generator_ne_zero : generator ≠ 0 := by
  intro h
  have hpoint := point_generator
  rw [h, point_zero, Point.generator] at hpoint
  exact Point.noConfusion hpoint

/-! ## Coordinates -/

/-- A small multiple annihilates no member but the identity. -/
theorem eq_zero_of_nsmul {n : ℕ} (hn : 0 < n) (hlt : n < groupOrder) {g : Member}
    (h : n • g = 0) : g = 0 := by
  have hsmul : (⟨n, hlt⟩ : Scalar) • g = 0 := h
  refine (smul_eq_zero.mp hsmul).resolve_left fun h0 => ?_
  have := congrArg Fin.val h0
  exact hn.ne' this

/-- A point with abscissa zero is an inflection point, so its triple is the identity. -/
theorem three_nsmul_of_abscissa_zero {y : Fp} (h : curve.Nonsingular 0 y) :
    3 • (Point.some 0 y h : CurvePoint) = 0 := by
  have hy := ordinate_ne_zero ((nonsingular_iff 0 y).mp h)
  have hneg : y ≠ curve.negY 0 y := by
    rw [negY_curve]
    exact fun heq => hy (eq_zero_of_eq_neg heq)
  have hslope : curve.slope 0 0 y y = 0 := by
    rw [slope_of_Y_ne rfl hneg]
    simp [curve]
  have htwice : (Point.some 0 y h : CurvePoint) + .some 0 y h = -.some 0 y h := by
    rw [Point.add_self_of_Y_ne' hneg]
    simp only [hslope]
    congr 2
    simp [addX, negAddY, curve]
  rw [succ_nsmul, two_nsmul, htwice, neg_add_cancel]

/-- The point of a member has no abscissa or one that is not zero. -/
theorem point_ne_affine_zero (g : Member) (y : Fp) : g.point ≠ .affine 0 y := by
  obtain ⟨_ | ⟨x, y', h⟩, hmem⟩ := g
  · exact fun hpoint => Point.noConfusion hpoint
  · intro hpoint
    obtain ⟨rfl, rfl⟩ := VerifiableEscrow.Point.affine.inj hpoint
    have hzero : (⟨.some 0 y' h, hmem⟩ : Member) = 0 :=
      eq_zero_of_nsmul (show 0 < 3 by decide) (by decide)
        (Subtype.ext (three_nsmul_of_abscissa_zero h))
    have hcoordinates : (.some 0 y' h : CurvePoint) = 0 := congrArg (fun m : Member => m.1) hzero
    cases hcoordinates

end Member
end VerifiableEscrow
