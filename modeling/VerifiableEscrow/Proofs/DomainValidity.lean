import VerifiableEscrow.Proofs.CanonicalText
import VerifiableEscrow.Proofs.TamperEvidence

/-!
# What a domain is known to satisfy

An issuer publishes five values, and a domain is made of them if they pass a check.  What the check
should make sure of is that commitments bind to their openings, and for that the second base must
not be the identity (`binds_of_base_ne_zero`).

The check is nearly that.  It decodes the base to see that it is a valid element, but it compares
the spelling to see that it is not the identity, and a valid element may be spelled in either case.
As the identity has two spellings (`eq_of_encodes_zero`), there is one text that gets through, and
only one.

* `Issuer.check_eq_ok`: a domain keeps the five values that it was made of;
* `base_eq_zero_iff`: when the base of a domain is the identity;
* `exists_binding_or_refused`: apart from one text, **a domain is made of sound parameters and of
  no others**;
* `exists_ofIssuer_identity`: that text, and what commitments under it are worth.
-/

namespace VerifiableEscrow

open Element
open scoped PrimeField Member

theorem HashFunction.eq_of_ofName? {t : Text} {f : HashFunction} (h : ofName? t = some f) :
    t = Text.of f.name := by
  have hfound := List.find?_some h
  rw [decide_eq_true_eq] at hfound
  exact hfound.symm

namespace Issuer

theorem eq_of_isText {v : Value} {t : Text} (h : isText v t = true) : v = .text t := by
  cases v with
  | text s =>
    rw [isText, decide_eq_true_eq] at h
    rw [h]
  | _ => cases h

theorem eq_of_uid? {i : Issuer} {uid : { bs : Bytes // bs ≠ [] }} (h : i.uid? = some uid) :
    i.uid = .bytes uid.1 := by
  unfold uid? at h
  split at h
  next bs hbs =>
    split_ifs at h
    rw [hbs, ← Option.some.inj h]
  next => cases h

theorem eq_of_base? {i : Issuer}
    {base : { t : Text // isElement (.text t) = true ∧ t ≠ identity }} (h : i.base? = some base) :
    i.g1 = .text base.1 := by
  unfold base? at h
  split at h
  next t ht =>
    split_ifs at h
    rw [ht, ← Option.some.inj h]
  next => cases h

theorem eq_of_hash? {i : Issuer} {f : HashFunction} (h : i.hash? = some f) :
    i.hashName = .text (Text.of f.name) := by
  unfold hash? at h
  split at h
  next t ht => rw [ht, HashFunction.eq_of_ofName? h]
  next => cases h

/-- A domain keeps all of the parameters that it was made of. -/
theorem check_eq_ok {i : Issuer} {d : Domain} : i.check = .ok d ↔ d.issuer = i := by
  constructor
  · intro h
    unfold check at h
    split at h
    next => cases h
    next uid huid =>
      split_ifs at h with hgroup hgenerator
      split at h
      next => cases h
      next base hbase =>
        split at h
        next => cases h
        next f hf =>
          rw [Bool.not_eq_true', Bool.not_eq_false] at hgroup hgenerator
          obtain rfl := Except.ok.inj h
          obtain ⟨iuid, ig1, ihash, ig, igroup⟩ := i
          rw [Domain.issuer, ← eq_of_uid? huid, ← eq_of_base? hbase, ← eq_of_hash? hf,
            ← eq_of_isText hgroup, ← eq_of_isText hgenerator]
  · rintro rfl
    exact Domain.check_issuer d

/-- Parameters that commitments can be made under: the identifier is a byte string that is not
empty, group and first base are the fixed ones, the hash function is known, and the second base
decodes to a point of the subgroup of prime order that is not the identity. -/
structure IsSound (i : Issuer) : Prop where
  uid : ∃ bs, i.uid = .bytes bs ∧ bs ≠ []
  group : i.groupName = .text group
  generator : i.g = .text Element.generator
  hash : ∃ f : HashFunction, i.hashName = .text (Text.of f.name)
  base : ∃ P, validate i.g1 = .ok P ∧ P ≠ .identity

end Issuer

namespace Domain

/-- The check of the second base looks at its spelling, so the identity gets through in the
upper case, and in no other way. -/
theorem base_eq_zero_iff (d : Domain) : d.base = 0 ↔ d.g1 = upperIdentity := by
  constructor
  · intro h
    have hzero : Encodes (.text d.g1) 0 := h ▸ d.encodes_g1
    exact (eq_of_encodes_zero hzero).resolve_left d.g1_ne_identity
  · intro h
    have hbase := d.encodes_g1
    rw [h] at hbase
    exact hbase.unique encodes_upperIdentity

theorem validate_g1 (d : Domain) : validate (.text d.g1) = .ok d.base.point :=
  validate_eq_ok.mpr
    ⟨d.encodes_g1, Member.onCurve_point d.base, Member.inSubgroup_point d.base⟩

theorem isSound_issuer {d : Domain} (h : d.g1 ≠ upperIdentity) : d.issuer.IsSound where
  uid := ⟨d.uid, rfl, d.uid_ne_nil⟩
  group := rfl
  generator := rfl
  hash := ⟨d.hash, rfl⟩
  base := by
    refine ⟨d.base.point, d.validate_g1, fun hpoint => h (d.base_eq_zero_iff.mp ?_)⟩
    exact Subtype.ext (Point.ofCurve_eq_identity_iff.mp hpoint)

/-- Sound parameters are those of a domain. -/
theorem exists_issuer_eq {i : Issuer} (h : i.IsSound) : ∃ d : Domain, d.issuer = i := by
  obtain ⟨uid, g1, hashName, g, groupName⟩ := i
  obtain ⟨⟨bs, rfl, hbs⟩, rfl, rfl, ⟨f, rfl⟩, P, hP, hne⟩ := h
  obtain ⟨hread, hcurve, hsub⟩ := validate_eq_ok.mp hP
  obtain ⟨b, rfl⟩ := Member.exists_point_eq hcurve hsub
  obtain ⟨t, rfl, -, -⟩ := exists_text hread
  refine ⟨⟨bs, t, f, hbs, isElement_iff.mpr ⟨b, hread⟩, fun hspelled => hne ?_⟩, rfl⟩
  rw [hspelled] at hread
  rw [Encodes.unique hread encodes_identity, Member.point_zero]

/-- Two openings of one attribute always give different commitments. -/
def Binds (d : Domain) : Prop :=
  ∀ x o o' : Scalar, o ≠ o' → ∃ t t',
    Attribute.commit (.given d.issuer) (.int x.toInt) (.int o.toInt) = .ok t
      ∧ Attribute.commit (.given d.issuer) (.int x.toInt) (.int o'.toInt) = .ok t' ∧ t ≠ t'

theorem binds_of_base_ne_zero {d : Domain} (h : d.base ≠ 0) : d.Binds := by
  intro x o o' hne
  refine ⟨_, _, Attribute.commit_eq d x o, Attribute.commit_eq d x o', fun heq => hne ?_⟩
  have hmembers := Member.compress_injective heq
  exact Escrow.smul_left_cancel h (add_left_cancel hmembers)

theorem ofIssuer_toValue (i : Issuer) :
    ofIssuer i.toValue = i.check.mapError fun why => .argument (.issuer why) := rfl

/-- **A domain is made of sound parameters and of no others**, where the second base is not the
identity in the upper case, and commitments under a domain bind to their openings. -/
theorem exists_binding_or_refused {i : Issuer} (h : i.g1 ≠ .text upperIdentity) :
    (i.IsSound ∧ ∃ d, ofIssuer i.toValue = .ok d ∧ d.issuer = i ∧ d.ge = generator
        ∧ d.g = generator ∧ d.Binds)
      ∨ (¬i.IsSound ∧ ∃ why, ofIssuer i.toValue = .error (.argument why)) := by
  rw [ofIssuer_toValue]
  cases hcheck : i.check with
  | ok d =>
    obtain rfl := Issuer.check_eq_ok.mp hcheck
    have hg1 : d.g1 ≠ upperIdentity := fun hspelled => h (congrArg Value.text hspelled)
    have hbinds := binds_of_base_ne_zero fun hzero => hg1 (d.base_eq_zero_iff.mp hzero)
    exact .inl ⟨isSound_issuer hg1, d, rfl, rfl, rfl, rfl, hbinds⟩
  | error why =>
    refine .inr ⟨fun hsound => ?_, .issuer why, rfl⟩
    obtain ⟨d, hd⟩ := exists_issuer_eq hsound
    rw [Issuer.check_eq_ok.mpr hd] at hcheck
    cases hcheck

/-- The parameters of a domain whose second base is the generator. -/
theorem exists_binding_or_refused_generator :
    (ofGenerator .sha256).issuer.g1 ≠ .text upperIdentity
      ∧ (((ofGenerator .sha256).issuer.IsSound
          ∧ ∃ d, ofIssuer (ofGenerator .sha256).issuer.toValue = .ok d
            ∧ d.issuer = (ofGenerator .sha256).issuer ∧ d.ge = generator ∧ d.g = generator
            ∧ d.Binds)
        ∨ (¬(ofGenerator .sha256).issuer.IsSound
          ∧ ∃ why, ofIssuer (ofGenerator .sha256).issuer.toValue = .error (.argument why))) := by
  have hne : (ofGenerator .sha256).issuer.g1 ≠ .text upperIdentity := by
    intro h
    exact absurd (Value.text.inj h) (by decide +kernel)
  exact ⟨hne, exists_binding_or_refused hne⟩

/-- **The identity in the upper case is accepted** as a second base, and commitments under it do
not depend on their opening. -/
theorem exists_ofIssuer_identity :
    ∃ d, ofIssuer (Issuer.toValue
        ⟨.bytes [0x41], .text upperIdentity, .text (Text.of "sha256"), .text generator,
          .text Issuer.group⟩) = .ok d
      ∧ validate (.text d.g1) = .ok .identity
      ∧ ∀ x o o' : Scalar,
          Attribute.commit (.given d.issuer) (.int x.toInt) (.int o.toInt)
            = Attribute.commit (.given d.issuer) (.int x.toInt) (.int o'.toInt) := by
  obtain ⟨d, hd⟩ : ∃ d : Domain, d.issuer = ⟨.bytes [0x41], .text upperIdentity,
      .text (Text.of "sha256"), .text generator, .text Issuer.group⟩ :=
    ⟨⟨[0x41], upperIdentity, .sha256, List.cons_ne_nil _ _,
      isElement_iff.mpr ⟨0, encodes_upperIdentity⟩, upperIdentity_ne_identity⟩, rfl⟩
  have hg1 : d.g1 = upperIdentity := Value.text.inj (congrArg Issuer.g1 hd)
  have hbase := d.base_eq_zero_iff.mpr hg1
  refine ⟨d, ?_, ?_, fun x o o' => ?_⟩
  · rw [ofIssuer_toValue, Issuer.check_eq_ok.mpr hd]
    rfl
  · rw [validate_g1, hbase, Member.point_zero]
  · rw [Attribute.commit_eq, Attribute.commit_eq, hbase, smul_zero, smul_zero]

end Domain
end VerifiableEscrow
