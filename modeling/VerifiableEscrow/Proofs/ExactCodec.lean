import VerifiableEscrow.Proofs.CanonicalText
import VerifiableEscrow.Proofs.HexNumeral

/-!
# The codec of points is exact

Which texts decode, and to what?  `PointCodec` writes and reads back, `CanonicalText` reads and
writes back, and the reader does not look at the case of a digit.  Together these answer the
question: a text decodes to a point when it is the point's own text but for the case, and when the
point has a form at all.

Two kinds of point have to be kept apart for this.  The points with abscissa zero lie on the curve
and are written like any other, but no text decodes to them.  They are of order three, so the
subgroup of prime order does without them, and there the codec has no exceptions.

Points are written from triples, and a point has many.  That the text does not depend on the triple
is `compress_of_represents`.

* `uncompress_eq_ok_iff`: the texts that decode;
* `validate_ne_offCurve`: what decodes lies on the curve;
* `isElement_iff_exists_lower`: the texts of members;
* `exactCodec`: **the codec is exact**.
-/

namespace VerifiableEscrow

open scoped PrimeField Member

/-! ## Triples -/

namespace Projective

/-- A triple represents the identity when its last coordinate is zero, and otherwise the point
whose coordinates are the quotients by the last one. -/
def Represents (T : Projective) : Point → Prop
  | .identity => T.z = 0
  | .affine x y => T.z ≠ 0 ∧ T.x = x * T.z ∧ T.y = y * T.z

theorem toPoint_of_represents {T : Projective} {P : Point} (h : T.Represents P) :
    T.toPoint = P := by
  cases P with
  | identity => exact toPoint_of_eq_zero h
  | affine x y =>
    obtain ⟨hz, hx, hy⟩ := h
    have hscaled : T = ⟨x * T.z, y * T.z, T.z⟩ := by rw [← hx, ← hy]
    rw [hscaled]
    exact toPoint_scaled hz x y

/-- All triples of a point are written as the same text. -/
theorem compress_of_represents {T : Projective} {P : Point} (h : T.Represents P) :
    T.toPoint.compress = P.compress := by
  rw [toPoint_of_represents h]

end Projective

/-! ## The texts that decode -/

namespace Point

/-- Reading a code has no word for points off the curve. -/
theorem ofCode_ne_offCurve (code : ℕ) : ofCode code ≠ .error .offCurve := by
  intro h
  simp only [ofCode] at h
  split_ifs at h
  · exact ElementFault.noConfusion (Except.error.inj h)
  · exact ElementFault.noConfusion (Except.error.inj h)
  · exact ElementFault.noConfusion (Except.error.inj h)
  · exact ElementFault.noConfusion (Except.error.inj h)
  · split at h
    next => exact ElementFault.noConfusion (Except.error.inj h)
    next => cases h

end Point

namespace Element

/-- A text of 96 hexadecimal digits in either case, and of nothing else. -/
def IsNumeral (t : Text) : Prop :=
  t.length = Point.encodedLength ∧ ∀ p ∈ t, (Hex.value? p).isSome = true

theorem isSome_value?_of_mem_encode {bs : Bytes} {p : CodePoint} (h : p ∈ Hex.encode bs) :
    (Hex.value? p).isSome = true := by
  obtain ⟨n, hn, rfl⟩ := Hex.exists_digit_of_mem_encode h
  rw [Hex.value?, Hex.charValue?_digit n hn]
  rfl

/-- A text that is a point's text but for the case has digits only. -/
theorem isNumeral_of_lower {t : Text} {P : Point} (h : Hex.lower t = P.compress) :
    IsNumeral t := by
  constructor
  · rw [← Point.length_compress P, ← h, Hex.lower, List.length_map]
  · intro p hp
    have hlower : Hex.lowerPoint p ∈ P.compress := h ▸ List.mem_map_of_mem hp
    rw [← (Hex.reads_lowerPoint p).1]
    exact isSome_value?_of_mem_encode hlower

theorem isEncodable_of_uncompress {v : Value} {P : Point} (h : uncompress v = .ok P) :
    P.IsEncodable := by
  obtain ⟨_, _, _, _, _, _, hcode⟩ := exists_digits h
  exact Point.isEncodable_of_ofCode hcode

/-- The case of the digits does not matter for the point. -/
theorem uncompress_lower_eq_ok {t : Text} {P : Point} :
    uncompress (.text (Hex.lower t)) = .ok P ↔ uncompress (.text t) = .ok P := by
  show Point.uncompress (Hex.lower t) = .ok P ↔ Point.uncompress t = .ok P
  rw [Point.uncompress, Point.uncompress, Hex.decodeSpaced?_lower, Hex.lower, List.length_map]
  split_ifs
  · rfl
  · -- what is not made of digits fails with its own text, which keeps its case
    cases Hex.decodeSpaced? t with
    | none =>
      constructor
      all_goals
        intro h
        cases h
    | some bs => rfl

/-- **A text decodes to a point** when it is the text of the point but for the case, and the point
has a form. -/
theorem uncompress_eq_ok_iff {t : Text} {P : Point} :
    uncompress (.text t) = .ok P ↔ Hex.lower t = P.compress ∧ P.IsEncodable := by
  constructor
  · intro h
    exact ⟨(compress_of_uncompress h).symm, isEncodable_of_uncompress h⟩
  · rintro ⟨hlower, hP⟩
    have hread := Point.uncompress_compress hP
    rw [← uncompress_lower_eq_ok, hlower]
    exact hread

/-- A text that compressing gives is one that decodes and is in the lower case. -/
theorem compress_eq_iff {g : Member} {t : Text} :
    g.point.compress = t ↔ Encodes (.text t) g ∧ Hex.lower t = t := by
  constructor
  · rintro rfl
    exact ⟨encodes_compress g, Hex.lower_encode _⟩
  · rintro ⟨hencodes, hlower⟩
    rw [compress_of_uncompress hencodes, hlower]

theorem uncompress_ne_offCurve (v : Value) : uncompress v ≠ .error (.element .offCurve) := by
  intro h
  cases v with
  | text t =>
    have hread : Point.uncompress t = .error (.element .offCurve) := h
    unfold Point.uncompress at hread
    split_ifs at hread
    · cases hread
    · split at hread
      next => cases hread
      next bs _ =>
        cases hcode : Point.ofCode (BigEndian.toNat bs) with
        | ok P => simp [hcode, Except.mapError] at hread
        | error why =>
          simp only [hcode, Except.mapError, Except.error.injEq, Fault.element.injEq] at hread
          exact Point.ofCode_ne_offCurve _ (hread ▸ hcode)
  | _ => cases h

/-- What decodes lies on the curve, so nothing is refused for lying off it. -/
theorem validate_ne_offCurve (v : Value) : validate v ≠ .error (.element .offCurve) := by
  intro h
  unfold validate at h
  cases hread : uncompress v with
  | error fault =>
    rw [Except.bind_of_error hread] at h
    exact uncompress_ne_offCurve v (hread.trans h)
  | ok P =>
    have hcurve := (isEncodable_of_uncompress hread).onCurve
    rw [Except.bind_of_ok hread, if_neg (by rw [hcurve]; decide)] at h
    dsimp only at h
    split_ifs at h
    · have hfault : (.error (.element .outsideSubgroup) : Except Fault Point)
          = .error (.element .offCurve) := h
      exact ElementFault.noConfusion (Fault.element.inj (Except.error.inj hfault))
    · cases h

/-- The texts of members are the valid elements. -/
theorem isElement_iff_exists_lower {t : Text} :
    isElement (.text t) = true ↔ ∃ g : Member, Hex.lower t = g.point.compress := by
  rw [isElement_iff]
  refine exists_congr fun g => ?_
  rw [Encodes, uncompress_eq_ok_iff]
  exact and_iff_left g.isEncodable_point

/-! ## Exactness -/

/-- The points with abscissa zero are written and cannot be read. -/
example : (Point.affine 0 2).onCurve = true ∧ uncompress (.text (Point.affine 0 2).compress)
    = .error (.element (.identityFlag true)) := by decide +kernel

/-- Two texts that decode have one point when they are equal but for the case. -/
theorem point_eq_iff_lower_eq {s t : Text} {P Q : Point} (hs : uncompress (.text s) = .ok P)
    (ht : uncompress (.text t) = .ok Q) : P = Q ↔ Hex.lower s = Hex.lower t := by
  rw [← compress_of_uncompress hs, ← compress_of_uncompress ht]
  constructor
  · intro h
    rw [h]
  · exact Point.eq_of_compress_eq (isEncodable_of_uncompress hs) (isEncodable_of_uncompress ht)

/-- A codec of points without surprises: it is said which texts decode and to what, which of them
are valid elements, and what texts and points have to do with one another. -/
structure ExactCodec : Prop where
  /-- A text decodes to a point when it consists of 96 digits, which but for the case are those
  of the point, and the point is one of the curve whose abscissa, if it has one, is not zero. -/
  uncompress_iff : ∀ (t : Text) (P : Point), uncompress (.text t) = .ok P
    ↔ IsNumeral t ∧ Hex.lower t = P.compress ∧ P.onCurve = true ∧ ∀ y, P ≠ .affine 0 y
  /-- Nothing is refused for lying off the curve. -/
  onCurve : ∀ v : Value, validate v ≠ .error (.element .offCurve)
  /-- The valid elements are the texts of the subgroup's points, in either case. -/
  isElement_iff : ∀ t : Text,
    isElement (.text t) = true ↔ ∃ g : Member, Hex.lower t = g.point.compress
  /-- Every point of the subgroup has a valid element. -/
  reached : ∀ g : Member, ∃ t : Text, isElement (.text t) = true
    ∧ uncompress (.text t) = .ok g.point
  /-- A text that decodes is written again, in the lower case. -/
  compress_eq : ∀ (t : Text) (P : Point), uncompress (.text t) = .ok P → P.compress = Hex.lower t
  /-- Only the case tells apart two texts of one point. -/
  point_eq_iff : ∀ (s t : Text) (P Q : Point), uncompress (.text s) = .ok P →
    uncompress (.text t) = .ok Q → (P = Q ↔ Hex.lower s = Hex.lower t)
  /-- The text of a point is the same for all triples that represent it. -/
  triples : ∀ (S T : Projective) (P : Point), S.Represents P → T.Represents P →
    S.toPoint.compress = T.toPoint.compress

/-- **The codec of points is exact.** -/
theorem exactCodec : ExactCodec where
  uncompress_iff t P := by
    rw [uncompress_eq_ok_iff]
    constructor
    · rintro ⟨hlower, hP⟩
      exact ⟨isNumeral_of_lower hlower, hlower, hP.onCurve, hP.ne_affine_zero⟩
    · rintro ⟨-, hlower, hcurve, hne⟩
      exact ⟨hlower, hcurve, hne⟩
  onCurve := validate_ne_offCurve
  isElement_iff _ := isElement_iff_exists_lower
  reached g := ⟨g.point.compress, (encodes_compress g).isElement, encodes_compress g⟩
  compress_eq _ _ := compress_of_uncompress
  point_eq_iff _ _ _ _ := point_eq_iff_lower_eq
  triples _ _ _ hS hT :=
    (Projective.compress_of_represents hS).trans (Projective.compress_of_represents hT).symm

end Element
end VerifiableEscrow
