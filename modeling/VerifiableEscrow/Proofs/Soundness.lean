import VerifiableEscrow.Proofs.EscrowAlgebra

/-!
# Two proofs give the secrets away

Two proofs of one ciphertext that lead to the same primed elements under different challenges
are more than a prover can have who does not know the attribute.  Subtracting the verification
equations of one from those of the other leaves the elements of the statement as multiples of
known members, and since the group order is prime the difference of the challenges can be
divided by.  What comes out are the attribute, the randomness and the opening.

* `eq_smul_sub`: the subtraction and the division;
* `exists_extracted`: the three exponents, with the decryption that they imply.
-/

namespace VerifiableEscrow
namespace Escrow

open Element
open scoped PrimeField Member

/-- One equation less another, divided by the difference of the challenges. -/
theorem eq_smul_sub {c c' t : Scalar} (ht : t * (c' - c) = 1) {g u v : Member}
    (h : u + c • g = v + c' • g) : g = t • (u - v) := by
  have hdifference : (c' - c) • g = u - v := by
    rw [eq_sub_of_add_eq h]
    module
  rw [← hdifference, smul_smul, ht, one_smul]

/-- The exponents `x`, `r` and `o` explain a ciphertext with its commitment: the ciphertext
encrypts `x` with the randomness `r`, the commitment holds `x` with the opening `o`, and whoever
has the key decrypts the pseudonym of `x`. -/
structure Extracted (d : Domain) (h cxb e1 e2 : Value) (x r o : Scalar) : Prop where
  e1_eq : ∃ t, power d.ge r = .ok t ∧ SamePoint (.text t) e1
  e2_eq : ∃ t, product [(h, r), (.text d.ge, x)] = .ok t ∧ SamePoint (.text t) e2
  cxb_eq : ∃ t, Attribute.commit (.given d.issuer) (.int x.toInt) (.int o.toInt) = .ok t
    ∧ SamePoint (.text t) cxb
  decrypted : ∀ k pk, PublicKey.derive (.given d) (.given (PrivateKey.toRaw k)) = .ok pk →
    SamePoint (.text pk.h) h → ∀ proof label,
      ∃ t, decrypt (.given d) (.given ⟨e1, e2, proof, label⟩) (.given k.toRaw) = .ok t
        ∧ ofScalar (.int x.toInt) = .ok t

/-- Members that are such combinations are explained by the exponents. -/
theorem extracted_of_members {d : Domain} {h cxb e1 e2 : Value} {H : Member} {x r o : Scalar}
    (hh : Encodes h H) (hcxb : Encodes cxb (x • Member.generator + o • d.base))
    (he1 : Encodes e1 (r • Member.generator))
    (he2 : Encodes e2 (r • H + x • Member.generator)) : Extracted d h cxb e1 e2 x r o where
  e1_eq := ⟨_, power_eq r d.encodes_ge, (encodes_compress _).samePoint he1⟩
  e2_eq := ⟨_, product_pair_eq r x hh d.encodes_ge, (encodes_compress _).samePoint he2⟩
  cxb_eq := ⟨_, Attribute.commit_eq d x o, (encodes_compress _).samePoint hcxb⟩
  decrypted := by
    intro k pk hderive hpk proof label
    have hkey : H = k.x • Member.generator :=
      (hpk.encodes hh).unique (PublicKey.encodes_of_derive hderive)
    have hpseudonym : r • H + x • Member.generator + -k.x • (r • Member.generator)
        = x • Member.generator := by
      rw [hkey]
      module
    have hdecrypt := decrypt_eq d k he1 he2 proof label
    rw [hpseudonym] at hdecrypt
    exact ⟨_, hdecrypt, ofScalar_eq x⟩

/-- **Special soundness.**  Two proofs with different challenges that lead to the same primed
elements give the attribute, the randomness and the opening of their statement. -/
theorem exists_extracted {d : Domain} {h cxb e1 e2 : Value} (hh : isElement h = true)
    (hcxb : isElement cxb = true) (he1 : isElement e1 = true) (he2 : isElement e2 = true)
    {c rXb rR rOb c' rXb' rR' rOb' : Scalar} (hc : c ≠ c')
    (hsame : recompute d h cxb e1 e2
        (.int c.toInt) (.int rXb.toInt) (.int rR.toInt) (.int rOb.toInt)
      = recompute d h cxb e1 e2
        (.int c'.toInt) (.int rXb'.toInt) (.int rR'.toInt) (.int rOb'.toInt)) :
    ∃ t : Scalar, t * (c' - c) = 1
      ∧ Extracted d h cxb e1 e2 ((rXb - rXb') * t) ((rR - rR') * t) ((rOb - rOb') * t) := by
  obtain ⟨H, hH⟩ := isElement_iff.mp hh
  obtain ⟨C, hC⟩ := isElement_iff.mp hcxb
  obtain ⟨E1, hE1⟩ := isElement_iff.mp he1
  obtain ⟨E2, hE2⟩ := isElement_iff.mp he2
  rw [recompute_eq d hH hC hE1 hE2, recompute_eq d hH hC hE1 hE2] at hsame
  obtain ⟨hprime, hprime1, hprime2⟩ : _ ∧ _ ∧ _ := by
    simpa only [Except.ok.injEq, Prod.mk.injEq] using hsame
  have hprime := Member.compress_injective hprime
  have hprime1 := Member.compress_injective hprime1
  have hprime2 := Member.compress_injective hprime2
  obtain ⟨t, ht⟩ : ∃ t : Scalar, t * (c' - c) = 1 :=
    ⟨(c' - c)⁻¹, inv_mul_cancel₀ (sub_ne_zero.mpr hc.symm)⟩
  refine ⟨t, ht, extracted_of_members hH ?_ ?_ ?_⟩
  · rw [show ((rXb - rXb') * t) • Member.generator + ((rOb - rOb') * t) • d.base
        = t • (rXb • Member.generator + rOb • d.base
          - (rXb' • Member.generator + rOb' • d.base)) by module, ← eq_smul_sub ht hprime]
    exact hC
  · rw [show ((rR - rR') * t) • Member.generator
        = t • (rR • Member.generator - rR' • Member.generator) by module,
      ← eq_smul_sub ht hprime1]
    exact hE1
  · rw [show ((rR - rR') * t) • H + ((rXb - rXb') * t) • Member.generator
        = t • (rXb • Member.generator + rR • H - (rXb' • Member.generator + rR' • H)) by module,
      ← eq_smul_sub ht hprime2]
    exact hE2

/-- With all bases the generator, the attribute is `-1`, the randomness `1` and the opening `2`. -/
theorem exists_extracted_generator :
    ∃ t : Scalar, t * (1 - 0) = 1
      ∧ Extracted (Domain.ofGenerator .sha256) (.text generator) (.text generator)
          (.text generator) (.text identity) ((0 - 1) * t) ((1 - 0) * t) ((2 - 0) * t) := by
  have hgenerator : isElement (.text generator) = true := isElement_iff.mpr ⟨_, encodes_generator⟩
  have hidentity : isElement (.text identity) = true := isElement_iff.mpr ⟨_, encodes_identity⟩
  refine exists_extracted hgenerator hgenerator hgenerator hidentity
    (show (0 : Scalar) ≠ 1 by decide) ?_
  rw [recompute_eq _ encodes_generator encodes_generator encodes_generator encodes_identity,
    recompute_eq _ encodes_generator encodes_generator encodes_generator encodes_identity,
    Domain.base_ofGenerator, show (2 : Scalar) = 1 + 1 from rfl]
  simp only [add_smul, zero_smul, one_smul, smul_zero, add_zero, zero_add]

end Escrow
end VerifiableEscrow
