import VerifiableEscrow.Proofs.EscrowAlgebra
import VerifiableEscrow.Proofs.ExactCodec

/-!
# What the checks of a public key decide

A public key is text.  Both checks of it should be about the point that the text decodes to, and
both end with a comparison of texts: whether a key is well formed is asked of its point, but that
it is not the identity is asked of its text, and whether a key belongs to an exponent is asked of
the text alone.  On texts in the lower case this comes to the same.  The decoder accepts either
case, though, and there the checks say something else.

What they say can be told exactly.  The identity has only two spellings, so there is one text too
many among the well-formed keys; and of the spellings of a key the one in the lower case is taken.

* `verifyWellFormed_eq_true_iff`: the keys that pass as well formed;
* `verifyConsistency_eq`: the answer of the other check, which never fails;
* `checksBySpelling`: **what the checks decide**;
* `checks_of_upper`: a key that should not pass, and one that should.
-/

namespace VerifiableEscrow

open scoped PrimeField Member

open Element

namespace PublicKey

/-- A key decodes to a point of the subgroup of prime order other than the identity. -/
def IsMember (pk : PublicKey) : Prop := ∃ g : Member, g ≠ 0 ∧ Encodes (.text pk.h) g

/-- A key decodes to the point that the generator comes to when it is raised to an exponent. -/
def BelongsTo (pk : PublicKey) (d : Domain) (k : PrivateKey) : Prop :=
  ∃ g, Encodes (.text d.ge) g ∧ Encodes (.text pk.h) (k.x • g)

theorem belongsTo_iff {pk : PublicKey} {d : Domain} {k : PrivateKey} :
    pk.BelongsTo d k ↔ Encodes (.text pk.h) (k.x • Member.generator) := by
  constructor
  · rintro ⟨g, hge, hkey⟩
    rwa [hge.unique d.encodes_ge] at hkey
  · intro hkey
    exact ⟨_, d.encodes_ge, hkey⟩

/-- A key passes as well formed when it should, and when it is the identity in the upper case. -/
theorem verifyWellFormed_eq_true_iff {pk : PublicKey} :
    pk.verifyWellFormed = true ↔ pk.IsMember ∨ pk.h = upperIdentity := by
  rw [verifyWellFormed, Bool.and_eq_true, decide_eq_true_eq, isElement_iff]
  constructor
  · rintro ⟨⟨g, hg⟩, hne⟩
    by_cases hzero : g = 0
    · subst hzero
      exact .inr ((eq_of_encodes_zero hg).resolve_left hne)
    · exact .inl ⟨g, hzero, hg⟩
  · rintro (⟨g, hne, hg⟩ | hupper)
    · refine ⟨⟨g, hg⟩, fun h => hne (hg.unique ?_)⟩
      rw [h]
      exact encodes_identity
    · rw [hupper]
      exact ⟨⟨0, encodes_upperIdentity⟩, upperIdentity_ne_identity⟩

/-- A key is compared with the text of the generator raised to the exponent. -/
theorem verifyConsistency_eq (pk : PublicKey) (d : Domain) (k : PrivateKey) :
    pk.verifyConsistency (.given d) (.given k.toRaw)
      = .ok (decide ((k.x • Member.generator).point.compress = pk.h)) := by
  have hscale := scale_eq d.encodes_ge (exponent_toInt k.x)
  have hscalar : isScalar k.toRaw.x = true := isScalar_iff.mpr ⟨k.x, rfl⟩
  unfold verifyConsistency
  refine Except.guard_eq_ok.mpr ⟨by simp, Except.bind_eq_ok.mpr ⟨k.toRaw, rfl, ?_⟩⟩
  rw [hscalar]
  exact Except.bind_eq_ok.mpr ⟨d, rfl, Except.bind_eq_ok.mpr ⟨_, hscale, rfl⟩⟩

theorem verifyConsistency_eq_true_iff {pk : PublicKey} {d : Domain} {k : PrivateKey} :
    pk.verifyConsistency (.given d) (.given k.toRaw) = .ok true
      ↔ pk.BelongsTo d k ∧ Hex.lower pk.h = pk.h := by
  rw [verifyConsistency_eq, Except.ok.injEq, decide_eq_true_eq, compress_eq_iff, belongsTo_iff]

theorem lower_upperIdentity_ne : Hex.lower upperIdentity ≠ upperIdentity := by decide +kernel

/-- What the checks of a key decide, for a domain and a private key. -/
structure ChecksBySpelling (pk : PublicKey) (d : Domain) (k : PrivateKey) : Prop where
  wellFormed : pk.verifyWellFormed = true ↔ pk.IsMember ∨ pk.h = upperIdentity
  /-- Of the texts of the right point one is taken. -/
  consistent : ∃ answer, pk.verifyConsistency (.given d) (.given k.toRaw) = .ok answer
    ∧ (answer = true ↔ pk.BelongsTo d k ∧ Hex.lower pk.h = pk.h)
  /-- In the lower case the checks are about the point. -/
  lowercase : Hex.lower pk.h = pk.h → (pk.verifyWellFormed = true ↔ pk.IsMember)
    ∧ (pk.verifyConsistency (.given d) (.given k.toRaw) = .ok true ↔ pk.BelongsTo d k)

/-- **The checks of a public key decide on its point, but for the case of its digits**: the
identity in the upper case passes as well formed, and a key that is not in the lower case belongs
to no exponent. -/
theorem checksBySpelling (pk : PublicKey) (d : Domain) (k : PrivateKey) :
    ChecksBySpelling pk d k where
  wellFormed := verifyWellFormed_eq_true_iff
  consistent := by
    refine ⟨_, verifyConsistency_eq pk d k, ?_⟩
    rw [decide_eq_true_eq, compress_eq_iff, belongsTo_iff]
  lowercase hlower := by
    have hne : pk.h ≠ upperIdentity := fun h => lower_upperIdentity_ne (h ▸ hlower)
    constructor
    · rw [verifyWellFormed_eq_true_iff, or_iff_left hne]
    · rw [verifyConsistency_eq_true_iff, and_iff_left hlower]

/-- The text of the generator with its letters in the upper case. -/
def upperGenerator : Text :=
  Text.of "97F1D3A73197D7942695638C4FA9AC0FC3688C4F9774B905"
    ++ Text.of "A14E3A3F171BAC586C55E83FF97A1AEFFB3AF00ADB22C6BB"

theorem encodes_upperGenerator : Encodes (.text upperGenerator) Member.generator := by
  have hlower : Hex.lower upperGenerator = generator := by decide +kernel
  have hread : uncompress (.text (Hex.lower upperGenerator)) = .ok Member.generator.point := by
    rw [hlower]
    exact encodes_generator
  exact uncompress_lower_eq_ok.mp hread

/-- **Both checks fail on the upper case.**  The identity passes as well formed, and the generator
does not belong to the exponent one. -/
theorem checks_of_upper :
    ((⟨upperIdentity⟩ : PublicKey).verifyWellFormed = true
        ∧ ¬(⟨upperIdentity⟩ : PublicKey).IsMember)
      ∧ (⟨upperGenerator⟩ : PublicKey).verifyConsistency (.given (Domain.ofGenerator .sha256))
          (.given (⟨1⟩ : PrivateKey).toRaw) = .ok false
      ∧ (⟨upperGenerator⟩ : PublicKey).BelongsTo (Domain.ofGenerator .sha256) ⟨1⟩ := by
  refine ⟨⟨verifyWellFormed_eq_true_iff.mpr (.inr rfl), ?_⟩, ?_, ?_⟩
  · rintro ⟨g, hne, hg⟩
    exact hne (hg.unique encodes_upperIdentity)
  · rw [verifyConsistency_eq, one_smul, Except.ok.injEq, decide_eq_false_iff_not, compress_eq_iff]
    rintro ⟨-, hlower⟩
    exact absurd hlower (by decide +kernel)
  · rw [belongsTo_iff, one_smul]
    exact encodes_upperGenerator

end PublicKey
end VerifiableEscrow
