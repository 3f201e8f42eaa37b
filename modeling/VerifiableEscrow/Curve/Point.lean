import VerifiableEscrow.Curve.Field
import VerifiableEscrow.Curve.Scalar

/-!
# Points of the curve `y² = x³ + 4`

A `Point` is what a result is compared by: the identity or a pair of coordinates.  Sums are
computed on `Projective` triples, which need no division, and are brought back once at the
end.  A triple with `z = 0` is the identity whatever its other coordinates are.

The formulas are the chord and the tangent written out over the common denominators; they
are correct for every point of the curve, in the subgroup of prime order or not.
-/

namespace VerifiableEscrow

/-- A point of the curve in affine coordinates, or the identity. -/
inductive Point where
  | identity
  | affine (x y : Fp)
  deriving DecidableEq

/-- A point by homogeneous coordinates: `(x / z, y / z)`. -/
structure Projective where
  x : Fp
  y : Fp
  z : Fp
  deriving DecidableEq

/-- The constant of the curve's equation. -/
def curveConstant : Fp := 4

namespace Projective

/-- The identity. -/
def zero : Projective := ⟨1, 1, 0⟩

/-- The triple of a point. -/
def ofPoint : Point → Projective
  | .identity => zero
  | .affine x y => ⟨x, y, 1⟩

/-- The point of a triple. -/
def toPoint (P : Projective) : Point :=
  if P.z = 0 then .identity
  else
    let w := P.z.inverse
    .affine (P.x * w) (P.y * w)

/-- Twice a point, along the tangent. -/
def double (P : Projective) : Projective :=
  let w := 3 * (P.x * P.x)
  let s := P.y * P.z
  let b := P.x * P.y * s
  let h := w * w - 8 * b
  let s2 := s * s
  ⟨2 * h * s, w * (4 * b - h) - 8 * (P.y * P.y) * s2, 8 * s * s2⟩

/-- The third point of the chord through two points with different abscissas, reflected. -/
def chord (P Q : Projective) : Projective :=
  let u2 := P.y * Q.z
  let v2 := P.x * Q.z
  let u := Q.y * P.z - u2
  let v := Q.x * P.z - v2
  let vv := v * v
  let vv2 := vv * v2
  let vvv := v * vv
  let w := P.z * Q.z
  let a := u * u * w - vvv - 2 * vv2
  ⟨v * a, u * (vv2 - a) - vvv * u2, vvv * w⟩

/-- The sum of two points. -/
def add (P Q : Projective) : Projective :=
  if P.z = 0 then Q
  else if Q.z = 0 then P
  else if Q.x * P.z = P.x * Q.z then
    if Q.y * P.z = P.y * Q.z then double P else zero
  else chord P Q

/-- A natural multiple of a point. -/
def times (n : Nat) (P : Projective) : Projective :=
  Ladder.climb double add zero (Ladder.bits n) n P

/-- The sum of multiples of points, added up from the left. -/
def sumOfTimes (terms : List (Point × Nat)) : Projective :=
  terms.foldl (fun total term => total.add ((ofPoint term.1).times term.2)) zero

end Projective

namespace Point

/-- The fixed generator of the group. -/
def generator : Point :=
  .affine
    0x17f1d3a73197d7942695638c4fa9ac0fc3688c4f9774b905a14e3a3f171bac586c55e83ff97a1aeffb3af00adb22c6bb
    0x08b3f481e3aaa0f1a09e30ed741d8ae4fcf5e095d5d00af600db18cb2c04b3edd03cc744a2888ae40caa232946c5e7e1

/-- Whether the coordinates satisfy the equation of the curve. -/
def onCurve : Point → Bool
  | identity => true
  | affine x y => y * y = x * x * x + curveConstant

/-- The sum of two points. -/
def add (P Q : Point) : Point := ((Projective.ofPoint P).add (Projective.ofPoint Q)).toPoint

/-- A natural multiple of a point. -/
def times (n : Nat) (P : Point) : Point := ((Projective.ofPoint P).times n).toPoint

/-- A point raised to an exponent. -/
def scale (x : Scalar) (P : Point) : Point := P.times x.val

/-- The sum of points, each raised to its exponent. -/
def combination (terms : List (Point × Scalar)) : Point :=
  (Projective.sumOfTimes (terms.map fun term => (term.1, term.2.val))).toPoint

/-- Whether the group order annihilates a point.  Only the last coordinate is looked at, so no
division is needed. -/
def inSubgroup (P : Point) : Bool := ((Projective.ofPoint P).times groupOrder).z = 0

/-- The three coordinates under which a decoded point is shown: `z` is one, or zero at the
identity. -/
def coordinates (P : Point) : List Nat :=
  let t := Projective.ofPoint P
  [t.x.val, t.y.val, t.z.val]

end Point
end VerifiableEscrow
