import VerifiableEscrow.Curve.Codec
import VerifiableEscrow.Proofs.Subgroup

/-!
# Points read back

A point is written as an abscissa with three flags above it, and reading finds the ordinate
again: of the two roots the one that the flag tells.  This gives back the point that was written,
because the two roots are different, unless the abscissa is zero, which the reader takes for the
identity.  The points with abscissa zero are of order three, so all members of the subgroup have
their form.

* `IsEncodable`: the points that have a form of their own, and `isEncodable_point`, that the
  members are among them;
* `ofCode_toCode`: on the numbers;
* `uncompress_compress`: on the texts;
* `compress_injective`: so members with one text are one member.
-/

namespace VerifiableEscrow

open scoped PrimeField Member

namespace Point

theorem fieldPrime_lt_two_pow : fieldPrime < 2 ^ upperPlace := by decide +kernel

/-- The part of a code below the flag of the compressed form. -/
def lowCode (x y : Fp) : ℕ := (if y.isUpper then 2 ^ upperPlace else 0) + x.val

theorem toCode_affine (x y : Fp) : toCode (.affine x y) = 2 ^ compressedPlace + lowCode x y :=
  Nat.add_assoc _ _ _

theorem val_lt_two_pow (x : Fp) : x.val < 2 ^ upperPlace := x.isLt.trans fieldPrime_lt_two_pow

theorem lowCode_lt (x y : Fp) : lowCode x y < 2 ^ identityPlace := by
  have hx := val_lt_two_pow x
  have hdouble : 2 ^ identityPlace = 2 ^ upperPlace + 2 ^ upperPlace := by decide +kernel
  unfold lowCode
  split_ifs <;> omega

theorem testBit_compressed (x y : Fp) : (toCode (.affine x y)).testBit compressedPlace = true := by
  have hlt : lowCode x y < 2 ^ compressedPlace :=
    (lowCode_lt x y).trans_le (Nat.pow_le_pow_right (by decide) (by decide))
  rw [toCode_affine, Nat.testBit_two_pow_add_eq, Nat.testBit_lt_two_pow hlt]
  rfl

theorem testBit_identity (x y : Fp) : (toCode (.affine x y)).testBit identityPlace = false := by
  rw [toCode_affine, Nat.testBit_two_pow_add_gt (by decide),
    Nat.testBit_lt_two_pow (lowCode_lt x y)]

theorem testBit_upper (x y : Fp) : (toCode (.affine x y)).testBit upperPlace = y.isUpper := by
  rw [toCode_affine, Nat.testBit_two_pow_add_gt (by decide), lowCode]
  cases y.isUpper with
  | true => simp [Nat.testBit_two_pow_add_eq, Nat.testBit_lt_two_pow (val_lt_two_pow x)]
  | false => simp [Nat.testBit_lt_two_pow (val_lt_two_pow x)]

theorem toCode_mod (x y : Fp) : toCode (.affine x y) % 2 ^ upperPlace = x.val := by
  have hflag : 2 ^ compressedPlace % 2 ^ upperPlace = 0 := by decide +kernel
  have hlow : lowCode x y % 2 ^ upperPlace = x.val := by
    unfold lowCode
    split_ifs
    · rw [Nat.add_mod_left, Nat.mod_eq_of_lt (val_lt_two_pow x)]
    · rw [zero_add, Nat.mod_eq_of_lt (val_lt_two_pow x)]
  rw [toCode_affine, Nat.add_mod, hflag, zero_add, Nat.mod_mod, hlow]

/-- The root that agrees with the flag is the ordinate that was written. -/
theorem root_of_flag {r y : Fp} (hy : y ≠ 0) (hr : r = y ∨ r = -y) :
    (if r.isUpper = y.isUpper then r else -r) = y := by
  rcases hr with rfl | rfl
  · rw [if_pos rfl]
  · rw [Fp.isUpper_neg hy, if_neg (by simp), neg_neg]

/-- The points that have a form of their own: those of the curve but for the two whose abscissa
is zero. -/
structure IsEncodable (P : Point) : Prop where
  onCurve : P.onCurve = true
  ne_affine_zero : ∀ y, P ≠ .affine 0 y

theorem isEncodable_identity : IsEncodable .identity := ⟨rfl, fun _ h => Point.noConfusion h⟩

theorem isEncodable_affine {x y : Fp} (hcurve : y * y = x * x * x + curveConstant) (hx : x ≠ 0) :
    IsEncodable (.affine x y) :=
  ⟨decide_eq_true hcurve, fun _ h => hx (Point.affine.inj h).1⟩

theorem ofCode_toCode_affine {x y : Fp} (hcurve : y * y = x * x * x + curveConstant)
    (hx : x ≠ 0) : ofCode (toCode (.affine x y)) = .ok (.affine x y) := by
  have hval : x.val ≠ 0 := fun h => hx (Fin.ext h)
  have hof : Fp.ofNat x.val = x := Fin.ext (Nat.mod_eq_of_lt x.isLt)
  obtain ⟨r, hroot, hr⟩ := Fp.root?_mul_self y
  unfold ofCode
  simp only [testBit_compressed, testBit_identity, testBit_upper, toCode_mod, hof, ← hcurve, hroot]
  simp [hval, Nat.not_le.mpr x.isLt, root_of_flag (ordinate_ne_zero hcurve) hr]

/-- **What is written is read again**, for every point that has a form. -/
theorem ofCode_toCode {P : Point} (h : P.IsEncodable) : ofCode P.toCode = .ok P := by
  cases P with
  | identity => decide +kernel
  | affine x y =>
    refine ofCode_toCode_affine (of_decide_eq_true h.onCurve) ?_
    rintro rfl
    exact h.ne_affine_zero y rfl

/-- What is read has the flag of the compressed form. -/
theorem testBit_of_ofCode {code : ℕ} {P : Point} (h : ofCode code = .ok P) :
    code.testBit compressedPlace = true := by
  by_contra hflag
  rw [Bool.not_eq_true] at hflag
  simp only [ofCode, hflag] at h
  cases h

/-- So what is read takes all of the 48 bytes. -/
theorem length_of_ofCode {bs : Bytes} {P : Point} (h : ofCode (BigEndian.toNat bs) = .ok P) :
    48 ≤ bs.length := by
  by_contra hshort
  have hle : BigEndian.capacity bs.length ≤ BigEndian.capacity 47 :=
    Nat.pow_le_pow_right (by decide) (by omega)
  have hcapacity : BigEndian.capacity 47 ≤ 2 ^ compressedPlace := by decide +kernel
  have hcode := Nat.ge_two_pow_of_testBit (testBit_of_ofCode h)
  have hlt := BigEndian.toNat_lt bs
  omega

theorem toCode_lt (P : Point) : P.toCode < BigEndian.capacity 48 := by
  cases P with
  | identity => decide +kernel
  | affine x y =>
    have hlow := lowCode_lt x y
    have hsum : 2 ^ compressedPlace + 2 ^ identityPlace < BigEndian.capacity 48 := by
      decide +kernel
    rw [toCode_affine]
    omega

/-- The 48 bytes of a point. -/
def bytes (P : Point) : Bytes := BigEndian.fixed 48 P.toCode

@[simp] theorem length_bytes (P : Point) : P.bytes.length = 48 := BigEndian.length_fixed 48 _

@[simp] theorem decodeSpaced?_compress (P : Point) :
    Hex.decodeSpaced? P.compress = some P.bytes := Hex.decodeSpaced?_encode _

theorem toNat_bytes (P : Point) : BigEndian.toNat P.bytes = P.toCode := by
  rw [bytes, BigEndian.toNat_fixed, Nat.mod_eq_of_lt P.toCode_lt]

theorem uncompress_compress {P : Point} (h : P.IsEncodable) : uncompress P.compress = .ok P := by
  unfold uncompress
  rw [length_compress, if_neg (by simp), decodeSpaced?_compress]
  simp only [toNat_bytes, ofCode_toCode h, Except.mapError]

theorem eq_of_compress_eq {P Q : Point} (hP : P.IsEncodable) (hQ : Q.IsEncodable)
    (h : P.compress = Q.compress) : P = Q := by
  have hread := uncompress_compress hP
  rw [h, uncompress_compress hQ] at hread
  exact (Except.ok.inj hread).symm

end Point

namespace Member

/-- Every member has a form of its own. -/
theorem isEncodable_point (g : Member) : g.point.IsEncodable :=
  ⟨g.onCurve_point, g.point_ne_affine_zero⟩

theorem compress_injective : Function.Injective fun g : Member => g.point.compress := fun g g' h =>
  point_injective (Point.eq_of_compress_eq g.isEncodable_point g'.isEncodable_point h)

end Member
end VerifiableEscrow
