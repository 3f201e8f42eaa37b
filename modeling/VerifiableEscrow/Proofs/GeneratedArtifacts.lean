import VerifiableEscrow.Proofs.DomainValidity
import VerifiableEscrow.Proofs.Drawing
import VerifiableEscrow.Proofs.KeyChecks

/-!
# What is generated is valid

Everything that is generated is a power of the generator, or the exponent of one.  The exponents
that are drawn lie between one and the group order less one, so none of them is a multiple of the
order of the generator, and a power with such an exponent is not the identity.  This is the edge
on which the checks turn: one number further in the stream, and the second base of an issuer would
be refused.

Keys are derived from any exponent, and zero is one.  As the generator has the group order for its
order, a power determines its exponent, and the checks of a derived key can be told apart by the
exponents alone.

* `Issuer.isSound_iff_exponent_ne_zero`: when a power of the generator serves as a second base;
* `PublicKey.exists_derivedFrom`: what the checks of a derived key say about exponents;
* `generatesValid`: **what is generated passes its checks**.
-/

namespace VerifiableEscrow

open Element
open scoped PrimeField Member

namespace Member

/-- The powers of the generator with exponents in range are not the identity, but for one. -/
theorem smul_generator_eq_zero_iff {x : Scalar} : x • generator = 0 ↔ x = 0 := by
  rw [← zero_smul Scalar generator]
  exact Escrow.smul_generator_injective.eq_iff

end Member

namespace Issuer

/-- Parameters with a power of the generator for a second base are sound, unless the exponent is
zero. -/
theorem isSound_iff_exponent_ne_zero {uid : Bytes} {f : HashFunction} {x : Scalar} {g1 : Text}
    (huid : uid ≠ []) (hg1 : ofScalar (.int x.toInt) = .ok g1) :
    IsSound ⟨.bytes uid, .text g1, .text (Text.of f.name), .text generator, .text group⟩
      ↔ x ≠ 0 := by
  obtain rfl := Except.ok.inj ((ofScalar_eq x).symm.trans hg1)
  have hread : Encodes (.text (x • Member.generator).point.compress) (x • Member.generator) :=
    encodes_compress _
  have hpoint : (x • Member.generator).point = .identity ↔ x = 0 := by
    rw [← Member.point_zero, Member.point_injective.eq_iff, Member.smul_generator_eq_zero_iff]
  rw [Ne, ← hpoint]
  constructor
  · rintro ⟨-, -, -, -, P, hP, hne⟩
    rwa [← Except.ok.inj (hread.symm.trans (validate_eq_ok.mp hP).1)] at hne
  · intro hne
    exact ⟨⟨uid, rfl, huid⟩, rfl, rfl, ⟨f, rfl⟩, _,
      validate_eq_ok.mpr ⟨hread, Member.onCurve_point _, Member.inSubgroup_point _⟩, hne⟩

/-- Sound parameters pass the check, and a domain is made of them. -/
theorem IsSound.exists_check {i : Issuer} (h : i.IsSound) :
    ∃ d, i.check = .ok d ∧ Domain.ofIssuer i.toValue = .ok d := by
  obtain ⟨d, rfl⟩ := Domain.exists_issuer_eq h
  refine ⟨d, d.check_issuer, ?_⟩
  rw [Domain.ofIssuer_toValue, d.check_issuer]
  rfl

end Issuer

namespace PublicKey

/-- What the checks say about a key that has been derived from an exponent. -/
structure DerivedFrom (pk : PublicKey) (d : Domain) (k : PrivateKey) : Prop where
  derive : PublicKey.derive (.given d) (.given k.toRaw) = .ok pk
  consistent : ∀ k' : PrivateKey, ∃ answer,
    pk.verifyConsistency (.given d) (.given k'.toRaw) = .ok answer
      ∧ (answer = true ↔ k'.x = k.x)
  wellFormed : pk.verifyWellFormed = true ↔ k.x ≠ 0

/-- A derived key belongs to its exponent and to no other one, and it is well formed unless the
exponent is zero. -/
theorem exists_derivedFrom (d : Domain) (k : PrivateKey) :
    ∃ pk : PublicKey, pk.DerivedFrom d k := by
  obtain ⟨pk, hderive, -⟩ := exists_derive d k
  have hspelled := eq_of_derive hderive
  refine ⟨pk, hderive, fun k' => ⟨_, verifyConsistency_eq pk d k', ?_⟩, ?_⟩
  · rw [decide_eq_true_eq, hspelled, Member.compress_injective.eq_iff,
      Escrow.smul_generator_injective.eq_iff]
  · have hidentity : pk.h = identity ↔ k.x = 0 := by
      rw [hspelled, ← Member.smul_generator_eq_zero_iff]
      exact Member.compress_injective.eq_iff (b := 0)
    have helement : isElement (.text pk.h) = true := (encodes_of_derive hderive).isElement
    rw [verifyWellFormed, helement, Bool.true_and, decide_eq_true_eq, Ne, hidentity]

end PublicKey

/-- What is generated from a stream of numbers passes its checks. -/
structure GeneratesValid (draws : Draws) : Prop where
  /-- The parameters of an issuer pass their check, a domain is made of them, and their second base
  is not the identity. -/
  issuer : ∀ (uid : Bytes) (f : HashFunction) (trace : Trace), uid ≠ [] → ∃ i d,
    Run.outcome (Issuer.generate (.bytes uid) (.text (Text.of f.name))) draws trace
        = (.ok i, { trace with drawn := trace.drawn + 1 })
      ∧ i.IsSound ∧ i.check = .ok d ∧ Domain.ofIssuer i.toValue = .ok d
  /-- A private key is in range, and it is not zero. -/
  privateKey : ∀ (d : Domain) (trace : Trace), ∃ k : PrivateKey,
    Run.outcome (PrivateKey.generate (.given d)) draws trace
        = (.ok k, { trace with drawn := trace.drawn + 1 })
      ∧ 1 ≤ k.x.toInt ∧ k.x.toInt ≤ groupOrder - 1
  /-- The key derived from an exponent, generated or not, belongs to that exponent alone. -/
  publicKey : ∀ (d : Domain) (k : PrivateKey), ∃ pk : PublicKey, pk.DerivedFrom d k

/-- **What is generated passes its checks**, whatever the numbers of the stream are. -/
theorem generatesValid {draws : Draws} (h : draws.InRange) : GeneratesValid draws where
  issuer uid f trace huid := by
    obtain ⟨g1, hg1, hrun⟩ :=
      Issuer.exists_outcome_generate h (.bytes uid) (.text (Text.of f.name)) trace
    have hsound : Issuer.IsSound _ :=
      (Issuer.isSound_iff_exponent_ne_zero (f := f) huid hg1).mpr (h.exponent_ne_zero trace.drawn)
    obtain ⟨d, hcheck, hdomain⟩ := hsound.exists_check
    exact ⟨_, d, hrun, hsound, hcheck, hdomain⟩
  privateKey d trace :=
    ⟨_, PrivateKey.outcome_generate h rfl trace, h.exponent_bounds trace.drawn⟩
  publicKey := PublicKey.exists_derivedFrom

/-- The stream that stays at the last number it may have. -/
theorem generatesValid_last :
    (Draws.InRange fun _ => groupOrder - 2) ∧ GeneratesValid fun _ => groupOrder - 2 := by
  have h : Draws.InRange fun _ => groupOrder - 2 :=
    fun _ => show groupOrder - 2 < groupOrder - 1 by decide
  exact ⟨h, generatesValid h⟩

end VerifiableEscrow
