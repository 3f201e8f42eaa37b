import VerifiableEscrow.Element
import VerifiableEscrow.Proofs.HexCase
import VerifiableEscrow.Proofs.PointCodec
import VerifiableEscrow.Proofs.Success
import VerifiableEscrow.Transcript

/-!
# Operations on the texts of members

The scheme computes on texts: it decodes, combines and encodes again.  A value *encodes* a
member when reading it gives the member's point, and each operation on values that encode
members gives the text of what the operation on the members is.  What an escrow operation
answers can so be read as a linear combination of members, and two answers are the same text
when the combinations are the same.

* `isElement_iff`: the values that pass the check are those that encode a member;
* `scale_eq`, `combine_eq`, `multiScale_eq`, `power_eq`, `product_eq`: one equation for each
  operation;
* `isScalar_iff`: the values that pass as exponents are the integers of exponents.
-/

namespace VerifiableEscrow

open scoped PrimeField Member

namespace Element

/-! ## Values that encode members -/

/-- A value encodes a member when it decodes to the member's point. -/
def Encodes (v : Value) (g : Member) : Prop := uncompress v = .ok g.point

theorem Encodes.unique {v : Value} {g g' : Member} (h : Encodes v g) (h' : Encodes v g') :
    g = g' :=
  Member.point_injective (Except.ok.inj (h.symm.trans h'))

theorem encodes_compress (g : Member) : Encodes (.text g.point.compress) g := by
  have hread := Point.uncompress_compress g.isEncodable_point
  exact hread

theorem encodes_generator : Encodes (.text generator) Member.generator := by
  rw [generator, ← Member.point_generator]
  exact encodes_compress Member.generator

theorem encodes_identity : Encodes (.text identity) 0 := encodes_compress 0

theorem validate_eq_ok {v : Value} {P : Point} :
    validate v = .ok P ↔ uncompress v = .ok P ∧ P.onCurve = true ∧ P.inSubgroup = true := by
  rw [validate, Except.bind_eq_ok]
  constructor
  · rintro ⟨Q, hread, h⟩
    obtain ⟨hcurve, h⟩ := Except.guard_eq_ok.mp h
    obtain ⟨hsub, h⟩ := Except.guard_eq_ok.mp h
    cases h
    exact ⟨hread, by simpa using hcurve, by simpa using hsub⟩
  · rintro ⟨hread, hcurve, hsub⟩
    refine ⟨P, hread, Except.guard_eq_ok.mpr ⟨by simp [hcurve], ?_⟩⟩
    exact Except.guard_eq_ok.mpr ⟨by simp [hsub], rfl⟩

/-- The check finds out whether a value encodes a member. -/
theorem isElement_iff {v : Value} : isElement v = true ↔ ∃ g, Encodes v g := by
  constructor
  · intro h
    unfold isElement at h
    split at h
    next P hvalid =>
      obtain ⟨hread, hcurve, hsub⟩ := validate_eq_ok.mp hvalid
      obtain ⟨g, rfl⟩ := Member.exists_point_eq hcurve hsub
      exact ⟨g, hread⟩
    next => cases h
  · rintro ⟨g, hg⟩
    have hvalid : validate v = .ok g.point :=
      validate_eq_ok.mpr ⟨hg, Member.onCurve_point g, Member.inSubgroup_point g⟩
    rw [isElement, hvalid]

theorem Encodes.isElement {v : Value} {g : Member} (h : Encodes v g) : isElement v = true :=
  isElement_iff.mpr ⟨g, h⟩

/-- Two values spell the same point. -/
def SamePoint (v w : Value) : Prop := ∃ P, uncompress v = .ok P ∧ uncompress w = .ok P

theorem Encodes.samePoint {v w : Value} {g : Member} (hv : Encodes v g) (hw : Encodes w g) :
    SamePoint v w :=
  ⟨g.point, hv, hw⟩

theorem SamePoint.encodes {v w : Value} {g : Member} (h : SamePoint v w) (hw : Encodes w g) :
    Encodes v g := by
  obtain ⟨P, hv, hw'⟩ := h
  rw [Encodes, hv, ← hw', hw]

/-- A value that decodes is a text that spells 48 bytes without blanks, and these are bytes of a
number of the point. -/
theorem exists_digits {v : Value} {P : Point} (h : uncompress v = .ok P) :
    ∃ t bs, v = .text t ∧ Hex.decodeSpaced? t = some bs ∧ bs.length = 48
      ∧ Hex.encode bs = Hex.lower t ∧ Point.ofCode (BigEndian.toNat bs) = .ok P := by
  cases v with
  | text t =>
    have hread : Point.uncompress t = .ok P := h
    unfold Point.uncompress at hread
    split_ifs at hread with hlength
    cases hbytes : Hex.decodeSpaced? t with
    | none =>
      rw [hbytes] at hread
      cases hread
    | some bs =>
      rw [hbytes] at hread
      cases hcode : Point.ofCode (BigEndian.toNat bs) with
      | error why => simp [hcode, Except.mapError] at hread
      | ok Q =>
        simp only [hcode, Except.mapError, Except.ok.injEq] at hread
        have hle := Hex.length_decodeSpaced? hbytes
        have hge := Point.length_of_ofCode hcode
        rw [not_not, Point.encodedLength] at hlength
        have h48 : bs.length = 48 := by omega
        refine ⟨t, bs, rfl, hbytes, h48, Hex.encode_of_decodeSpaced? hbytes (by omega), ?_⟩
        rw [hcode, hread]
  | _ => cases h

/-! ## Values that are exponents -/

theorem exponent_toInt (x : Scalar) : exponent (.int x.toInt) = .ok x := by
  rw [exponent_int, Scalar.ofInt_toInt]

theorem toInt_of_ofInt? {n : ℤ} {x : Scalar} (h : Scalar.ofInt? n = some x) : n = x.toInt := by
  cases n with
  | ofNat n =>
    simp only [Scalar.ofInt?, Option.dite_none_right_eq_some] at h
    obtain ⟨_, h⟩ := h
    rw [← Option.some.inj h]
    rfl
  | negSucc n => cases h

theorem scalar?_eq_some {v : Value} {x : Scalar} : scalar? v = some x ↔ v = .int x.toInt := by
  constructor
  · intro h
    cases v with
    | int n => rw [toInt_of_ofInt? h]
    | _ => cases h
  · rintro rfl
    exact Scalar.ofInt?_toInt x

/-- The values that pass as exponents are the integers of exponents. -/
theorem isScalar_iff {v : Value} : isScalar v = true ↔ ∃ x : Scalar, v = .int x.toInt := by
  rw [isScalar, Option.isSome_iff_exists]
  exact exists_congr fun x => scalar?_eq_some

/-! ## Operations -/

theorem scale_eq {v e : Value} {g : Member} {x : Scalar} (hv : Encodes v g)
    (he : exponent e = .ok x) : scale v e = .ok (x • g).point.compress := by
  rw [scale, show uncompress v = .ok g.point from hv, he, ← Member.scale_point]
  rfl

theorem ofScalar_of_exponent {e : Value} {x : Scalar} (he : exponent e = .ok x) :
    ofScalar e = .ok (x • Member.generator).point.compress := by
  rw [ofScalar, he, ← Member.scale_point, Member.point_generator]
  rfl

theorem ofScalar_eq (x : Scalar) :
    ofScalar (.int x.toInt) = .ok (x • Member.generator).point.compress :=
  ofScalar_of_exponent (exponent_toInt x)

theorem combine_eq {v w : Value} {g g' : Member} (hv : Encodes v g) (hw : Encodes w g') :
    combine v w = .ok (g + g').point.compress := by
  rw [combine, show uncompress v = .ok g.point from hv, show uncompress w = .ok g'.point from hw,
    ← Member.add_point]
  rfl

/-- A pair of values stands for a member and an exponent. -/
def TermEncodes (pair : Value × Value) (t : Member × Scalar) : Prop :=
  Encodes pair.1 t.1 ∧ exponent pair.2 = .ok t.2

theorem mapM_term_eq {pairs : List (Value × Value)} {terms : List (Member × Scalar)}
    (h : List.Forall₂ TermEncodes pairs terms) :
    pairs.mapM term = .ok (terms.map fun t => (t.1.point, t.2)) := by
  rw [Except.mapM_eq_ok, List.forall₂_map_right_iff]
  refine h.imp fun pair t ht => ?_
  rw [term, show uncompress pair.1 = .ok t.1.point from ht.1, ht.2]
  rfl

theorem multiScale_eq {pairs : List (Value × Value)} {terms : List (Member × Scalar)}
    (h : List.Forall₂ TermEncodes pairs terms) :
    multiScale (pairs.map Prod.fst) (pairs.map Prod.snd)
      = .ok (Member.combination terms).point.compress := by
  have hlength : (pairs.map Prod.fst).length = (pairs.map Prod.snd).length := by
    rw [List.length_map, List.length_map]
  have hpairs : (pairs.map Prod.fst).zip (pairs.map Prod.snd) = pairs := by
    rw [List.zip_map', List.map_id'']
    exact fun pair => rfl
  rw [multiScale, if_neg (not_not.mpr hlength), hpairs, mapM_term_eq h,
    ← Member.combination_point]
  rfl

theorem power_eq {t : Text} {g : Member} (x : Scalar) (h : Encodes (.text t) g) :
    power t x = .ok (x • g).point.compress :=
  scale_eq h (exponent_toInt x)

/-- The combination of pairs is made of the points and exponents that they stand for. -/
theorem product_eq_mapM (pairs : List (Value × Scalar)) :
    product pairs
      = pairs.mapM (fun pair => term (pair.1, .int pair.2.toInt)) >>= fun terms =>
          .ok (Point.combination terms).compress := by
  have hlength : (pairs.map Prod.fst).length
      = (pairs.map fun pair => Value.int pair.2.toInt).length := by
    rw [List.length_map, List.length_map]
  rw [product, multiScale, if_neg (not_not.mpr hlength), List.zip_map', List.mapM_map]
  rfl

theorem product_eq {pairs : List (Value × Scalar)} {terms : List (Member × Scalar)}
    (h : List.Forall₂ (fun pair t => Encodes pair.1 t.1 ∧ pair.2 = t.2) pairs terms) :
    product pairs = .ok (Member.combination terms).point.compress := by
  have hpairs : List.Forall₂ TermEncodes
      (pairs.map fun pair => (pair.1, .int pair.2.toInt)) terms := by
    rw [List.forall₂_map_left_iff]
    refine h.imp fun pair t ht => ⟨ht.1, ?_⟩
    rw [exponent_toInt, ht.2]
  have hproduct := multiScale_eq hpairs
  rw [List.map_map, List.map_map] at hproduct
  exact hproduct

/-- The sum of two elements, each raised to its exponent. -/
theorem product_pair_eq {v w : Value} {g g' : Member} (x y : Scalar) (hv : Encodes v g)
    (hw : Encodes w g') : product [(v, x), (w, y)] = .ok (x • g + y • g').point.compress := by
  have hpairs : List.Forall₂ (fun pair t => Encodes pair.1 t.1 ∧ pair.2 = t.2)
      [(v, x), (w, y)] [(g, x), (g', y)] := .cons ⟨hv, rfl⟩ (.cons ⟨hw, rfl⟩ .nil)
  have hproduct := product_eq hpairs
  rwa [Member.combination, List.map_cons, List.map_cons, List.map_nil, List.sum_cons,
    List.sum_cons, List.sum_nil, add_zero] at hproduct

end Element
end VerifiableEscrow
