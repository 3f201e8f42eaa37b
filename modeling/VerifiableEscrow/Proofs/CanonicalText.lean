import VerifiableEscrow.Proofs.ElementAlgebra

/-!
# One point, one spelling but for the case

Compressing a point and reading it back gives the point (`PointCodec`).  This module is the other
direction.  The 48 bytes that a point is read from are the bytes that it is written as: the flags
and the abscissa leave nothing open, and no ordinate is zero, so the flag of the root is determined
as well.  What a reader is lenient about is the case of the digits, and nothing else.

* `ofCode_cases`: everything that can be read, said once;
* `toCode_of_ofCode`: what is read is written again, on the numbers;
* `spacedBytes_of_uncompress`, `compress_of_uncompress`: on the bytes and on the texts;
* `IsCanonical`: the spelling that compressing gives;
* `eq_of_encodes_zero`: the identity has two spellings.
-/

namespace VerifiableEscrow

open scoped PrimeField Member

namespace Point

/-- The part of a code up to a flag is the flag above the part below it. -/
theorem mod_flag (code place : ℕ) :
    code % 2 ^ (place + 1) = 2 ^ place * (code.testBit place).toNat + code % 2 ^ place := by
  rw [Nat.toNat_testBit, Nat.mod_pow_succ, Nat.add_comm]

/-- A code is its three flags above its abscissa. -/
theorem eq_flags_add {code : ℕ} (h : code < BigEndian.capacity 48) :
    code = 2 ^ compressedPlace * (code.testBit compressedPlace).toNat
      + (2 ^ identityPlace * (code.testBit identityPlace).toNat
      + (2 ^ upperPlace * (code.testBit upperPlace).toNat + code % 2 ^ upperPlace)) := by
  have hcapacity : BigEndian.capacity 48 = 2 ^ (compressedPlace + 1) := by decide +kernel
  calc code = code % 2 ^ (compressedPlace + 1) := (Nat.mod_eq_of_lt (hcapacity ▸ h)).symm
    _ = _ := by
      rw [mod_flag, show compressedPlace = identityPlace + 1 from rfl, mod_flag,
        show identityPlace = upperPlace + 1 from rfl, mod_flag]

/-- The root that a flag chooses has the flag. -/
theorem isUpper_of_flag {y : Fp} {flag : Bool} (hy : y ≠ 0) :
    (if y.isUpper = flag then y else -y).isUpper = flag := by
  split_ifs with h
  · exact h
  · rw [Fp.isUpper_neg hy]
    cases flag <;> simpa using h

/-- Everything that can have been read: the identity from its one code, or a point of the curve
from its abscissa and from the flag of its ordinate. -/
theorem ofCode_cases {code : ℕ} {P : Point} (h : ofCode code = .ok P) :
    (P = .identity ∧ code.testBit identityPlace = true ∧ code.testBit upperPlace = false
        ∧ code % 2 ^ upperPlace = 0)
      ∨ ∃ x y, P = .affine x y ∧ y * y = x * x * x + curveConstant ∧ x ≠ 0
        ∧ code.testBit identityPlace = false ∧ code.testBit upperPlace = y.isUpper
        ∧ code % 2 ^ upperPlace = x.val := by
  have hcompressed := testBit_of_ofCode h
  simp only [ofCode, hcompressed, Bool.not_true, Bool.false_eq_true, if_false] at h
  split_ifs at h with hidentity hzero hupper hprime
  · rw [not_ne_iff, eq_iff_iff] at hidentity
    exact .inl ⟨(Except.ok.inj h).symm, hidentity.mpr hzero, Bool.eq_false_of_not_eq_true hupper,
      hzero⟩
  · rw [not_ne_iff, eq_iff_iff, iff_false_right hzero, Bool.not_eq_true] at hidentity
    split at h
    next => cases h
    next r hroot =>
      have hcurve := Fp.mul_self_of_root? hroot
      have hval : (Fp.ofNat (code % 2 ^ upperPlace)).val = code % 2 ^ upperPlace :=
        Nat.mod_eq_of_lt (Nat.lt_of_not_le hprime)
      refine .inr ⟨_, _, (Except.ok.inj h).symm, ?_, ?_, hidentity,
        (isUpper_of_flag (ordinate_ne_zero hcurve)).symm, hval.symm⟩
      · rw [← hcurve]
        split_ifs
        · rfl
        · rw [neg_mul_neg]
      · intro hx
        exact hzero (hval.symm.trans (congrArg Fin.val hx))

/-- What is read has a form of its own. -/
theorem isEncodable_of_ofCode {code : ℕ} {P : Point} (h : ofCode code = .ok P) :
    P.IsEncodable := by
  rcases ofCode_cases h with ⟨rfl, -⟩ | ⟨x, y, rfl, hcurve, hx, -⟩
  · exact isEncodable_identity
  · exact isEncodable_affine hcurve hx

/-- **What is read is written again.**  No ordinate is zero, so the flag that chose the root is the
flag of the root. -/
theorem toCode_of_ofCode {code : ℕ} (hcode : code < BigEndian.capacity 48) {P : Point}
    (h : ofCode code = .ok P) : P.toCode = code := by
  have hflags := eq_flags_add hcode
  rw [testBit_of_ofCode h] at hflags
  rcases ofCode_cases h with ⟨rfl, hidentity, hupper, habscissa⟩
    | ⟨x, y, rfl, -, -, hidentity, hupper, habscissa⟩
  · rw [hidentity, hupper, habscissa, Bool.toNat_true, Bool.toNat_false] at hflags
    rw [toCode]
    omega
  · rw [hidentity, hupper, habscissa, Bool.toNat_true, Bool.toNat_false] at hflags
    rw [toCode_affine, lowCode]
    cases hflag : y.isUpper with
    | false =>
      rw [hflag, Bool.toNat_false] at hflags
      rw [if_neg Bool.false_ne_true]
      omega
    | true =>
      rw [hflag, Bool.toNat_true] at hflags
      rw [if_pos rfl]
      omega

end Point

namespace Element

/-- A value that decodes is a text with the digits of its point, in either case. -/
theorem exists_text {v : Value} {P : Point} (h : uncompress v = .ok P) :
    ∃ t, v = .text t ∧ Hex.decodeSpaced? t = some P.bytes ∧ P.compress = Hex.lower t := by
  obtain ⟨t, bs, rfl, hbytes, hlength, hdigits, hcode⟩ := exists_digits h
  have hlt : BigEndian.toNat bs < BigEndian.capacity 48 := hlength ▸ BigEndian.toNat_lt bs
  have heq : P.bytes = bs := by
    rw [Point.bytes, Point.toCode_of_ofCode hlt hcode, ← hlength, BigEndian.fixed_toNat]
  refine ⟨t, rfl, heq ▸ hbytes, ?_⟩
  rw [← hdigits, ← heq]
  rfl

/-- A value that decodes spells the bytes of its point. -/
theorem spacedBytes_of_uncompress {v : Value} {P : Point} (h : uncompress v = .ok P) :
    Transcript.spacedBytes v = .ok P.bytes := by
  obtain ⟨t, rfl, hbytes, -⟩ := exists_text h
  simp only [Transcript.spacedBytes, hbytes]

/-- A text that decodes is what its point is written as, but for the case. -/
theorem compress_of_uncompress {t : Text} {P : Point} (h : uncompress (.text t) = .ok P) :
    P.compress = Hex.lower t := by
  obtain ⟨t', ht, -, hcompress⟩ := exists_text h
  rw [hcompress, Value.text.inj ht]

/-- The one spelling of a valid element that compressing gives: 96 digits in lowercase, which
read to a point that is written as these digits again. -/
structure IsCanonical (t : Text) : Prop where
  length : t.length = Point.encodedLength
  lowercase : Hex.lower t = t
  isElement : isElement (.text t) = true
  compress_uncompress : ∃ P, uncompress (.text t) = .ok P ∧ P.compress = t

theorem isCanonical_of_lower {t : Text} (h : isElement (.text t) = true)
    (hlower : Hex.lower t = t) : IsCanonical t := by
  obtain ⟨g, hg⟩ := isElement_iff.mp h
  have hcompress := (compress_of_uncompress hg).trans hlower
  refine ⟨?_, hlower, h, g.point, hg, hcompress⟩
  rw [← hcompress, Point.length_compress]

theorem isCanonical_compress (g : Member) : IsCanonical g.point.compress :=
  isCanonical_of_lower (encodes_compress g).isElement (Hex.lower_encode _)

/-! ## The identity -/

/-- The text of the identity with its letter in the upper case. -/
def upperIdentity : Text := .char 'C' :: List.replicate 95 (.char '0')

theorem identity_eq : identity = .char 'c' :: List.replicate 95 (.char '0') := by decide +kernel

theorem encodes_upperIdentity : Encodes (.text upperIdentity) 0 := by
  have hread : uncompress (.text upperIdentity) = .ok .identity := by decide +kernel
  exact hread

theorem upperIdentity_ne_identity : upperIdentity ≠ identity := by decide +kernel

theorem toNat_ofNat_upper : ∀ m < 71, 65 ≤ m → (Char.ofNat (m + 32)).toNat = m + 32 := by decide

/-- What is brought to a character was that character or its upper case. -/
theorem eq_or_toNat_of_lowerChar {c d : Char} (h : Hex.lowerChar c = d) :
    c = d ∨ 65 ≤ c.toNat ∧ c.toNat + 32 = d.toNat := by
  unfold Hex.lowerChar at h
  split_ifs at h with hcase
  · have hlow : 65 ≤ c.toNat := Text.toNat_le_toNat hcase.1
    have hhigh : c.toNat ≤ 70 := Text.toNat_le_toNat hcase.2
    rw [← h, toNat_ofNat_upper c.toNat (by omega) hlow]
    exact .inr ⟨hlow, rfl⟩
  · exact .inl h

theorem eq_of_lowerPoint_zero {p : CodePoint} (h : Hex.lowerPoint p = .char '0') :
    p = .char '0' := by
  cases p with
  | half s => cases h
  | char c =>
    rcases eq_or_toNat_of_lowerChar (CodePoint.char.inj h) with rfl | ⟨hlow, hsum⟩
    · rfl
    · rw [show ('0' : Char).toNat = 48 from rfl] at hsum
      omega

theorem eq_of_lowerPoint_c {p : CodePoint} (h : Hex.lowerPoint p = .char 'c') :
    p = .char 'c' ∨ p = .char 'C' := by
  cases p with
  | half s => cases h
  | char c =>
    rcases eq_or_toNat_of_lowerChar (CodePoint.char.inj h) with rfl | ⟨-, hsum⟩
    · exact .inl rfl
    · have hc : c.toNat = 67 := Nat.add_right_cancel hsum
      rw [← Char.ofNat_toNat c, hc]
      exact .inr rfl

/-- **The identity has two spellings.** -/
theorem eq_of_encodes_zero {t : Text} (h : Encodes (.text t) 0) :
    t = identity ∨ t = upperIdentity := by
  have hlower : Hex.lower t = .char 'c' :: List.replicate 95 (.char '0') :=
    (compress_of_uncompress h).symm.trans identity_eq
  obtain ⟨p, rest, rfl, hp, hrest⟩ := List.map_eq_cons_iff.mp hlower
  have hzeros : rest = List.replicate 95 (.char '0') := by
    rw [List.eq_replicate_iff] at hrest ⊢
    refine ⟨(List.length_map _).symm.trans hrest.1, fun q hq => ?_⟩
    exact eq_of_lowerPoint_zero (hrest.2 _ (List.mem_map_of_mem hq))
  rw [identity_eq, upperIdentity, hzeros]
  rcases eq_of_lowerPoint_c hp with rfl | rfl
  · exact .inl rfl
  · exact .inr rfl

end Element
end VerifiableEscrow
