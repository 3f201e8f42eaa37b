import Mathlib.Data.Int.ModEq
import VerifiableEscrow.Proofs.ElementModule
import VerifiableEscrow.Proofs.KeyChecks
import VerifiableEscrow.Proofs.Soundness
import VerifiableEscrow.Proofs.TamperEvidence

/-!
# Commitments hide and bind

A commitment is a combination `g ^ x · g1 ^ o` of two bases.  It hides its attribute because every
other attribute has an opening for it too, and exactly one: the second base is a power of the
generator, so what the attributes differ by can be made up for in the opening.  It binds to its
attribute as far as nobody knows that power, since two openings of one commitment give it away.

The first half needs that *every* member is a power of the generator.  The subgroup is defined as
what the group order annihilates, and so it might be larger than what the generator generates.
Then it would have as many members as there are pairs of exponents, at least.  But a member is
written in 48 bytes, and there are more pairs than that (`Member.exists_smul_generator`).

* `Member.exists_smul_generator`: the subgroup is cyclic;
* `Attribute.commit_int`: a commitment of any integers is a combination of two members;
* `Domain.isPedersen`: **sums, hiding and binding**, for every domain whose second base is not the
  identity.
-/

namespace VerifiableEscrow

open scoped PrimeField Member

namespace Member

/-! ## The subgroup is cyclic -/

/-- The number that a member is written as. -/
def code (g : Member) : Fin (BigEndian.capacity 48) := ⟨g.point.toCode, g.point.toCode_lt⟩

theorem code_injective : Function.Injective code := by
  intro g g' h
  have hcode : g.point.toCode = g'.point.toCode := congrArg Fin.val h
  exact compress_injective (by simp only [Point.compress, hcode])

/-- There are more pairs of exponents than 48 bytes can be. -/
theorem capacity_lt_order_mul_order : BigEndian.capacity 48 < groupOrder * groupOrder := by
  decide +kernel

/-- **Every member is a power of the generator.** -/
theorem exists_smul_generator (g : Member) : ∃ x : Scalar, x • generator = g := by
  by_contra hnone
  -- otherwise the combinations of the two are different members
  have hinjective :
      Function.Injective fun e : Scalar × Scalar => code (e.1 • g + e.2 • generator) := by
    rintro ⟨x, y⟩ ⟨x', y'⟩ h
    have hsum : x • g + y • generator = x' • g + y' • generator := code_injective h
    by_cases hx : x = x'
    · subst hx
      rw [Escrow.smul_generator_injective (add_left_cancel hsum)]
    · refine absurd ⟨(x' - x)⁻¹ * (y - y'), ?_⟩ hnone
      have hone : (x' - x)⁻¹ * (x' - x) = 1 := inv_mul_cancel₀ (sub_ne_zero.mpr (Ne.symm hx))
      rw [add_comm, add_comm (x' • g)] at hsum
      rw [mul_smul, sub_smul]
      exact (Escrow.eq_smul_sub hone hsum).symm
  have hcard : groupOrder * groupOrder ≤ BigEndian.capacity 48 := by
    simpa only [Fintype.card_prod, Fintype.card_fin] using Fintype.card_le_of_injective _ hinjective
  exact hcard.not_gt capacity_lt_order_mul_order

end Member

/-! ## Commitments of integers -/

namespace Attribute

/-- A commitment looks at the residues of its arguments. -/
theorem commit_residue (i : Slot Issuer) (x o : ℤ) :
    commit i (.int (Scalar.ofInt x).toInt) (.int (Scalar.ofInt o).toInt)
      = commit i (.int x) (.int o) := by
  simp only [commit, Element.multiScale, List.length_cons, List.length_nil, List.zip_cons_cons,
    List.mapM_cons, Element.term, Element.exponent_int, Scalar.ofInt_toInt]

theorem commit_int (d : Domain) (x o : ℤ) :
    commit (.given d.issuer) (.int x) (.int o)
      = .ok (x • Member.generator + o • d.base).point.compress := by
  rw [← commit_residue, commit_eq, Element.smul_ofInt, Element.smul_ofInt]

end Attribute

/-! ## Hiding and binding -/

namespace Domain

open Element

/-- The commitment to an attribute with an opening, under the bases of a domain. -/
def commitment (d : Domain) (x o : ℤ) : Except Fault Text :=
  Attribute.commit (.given d.issuer) (.int x) (.int o)

variable {d : Domain}

/-- Commitments with exponents in range are the same when the combinations are. -/
theorem commitment_eq_iff {x o x' o' : Scalar} :
    d.commitment x.toInt o.toInt = d.commitment x'.toInt o'.toInt
      ↔ x • Member.generator + o • d.base = x' • Member.generator + o' • d.base := by
  rw [commitment, commitment, Attribute.commit_eq, Attribute.commit_eq, Except.ok.injEq,
    Member.compress_injective.eq_iff]

/-- What commitments of a domain are, as a scheme. -/
structure IsPedersen (d : Domain) : Prop where
  /-- The sum of two commitments is the commitment to the sums. -/
  sum : ∀ x o x' o' : ℤ, Agree
    (do combine (.text (← d.commitment x o)) (.text (← d.commitment x' o')))
    (d.commitment (x + x') (o + o'))
  /-- Only the residues of the arguments matter. -/
  residue : ∀ x o x' o' : ℤ, x ≡ x' [ZMOD groupOrder] → o ≡ o' [ZMOD groupOrder] →
    Agree (d.commitment x o) (d.commitment x' o')
  /-- Every attribute has one opening for a commitment. -/
  hides : ∀ x x' o : Scalar, ∃! o' : Scalar,
    d.commitment x'.toInt o'.toInt = d.commitment x.toInt o.toInt
  /-- Two openings of one commitment give the discrete logarithm of the second base away. -/
  binds : ∀ x x' o o' : Scalar, (x, o) ≠ (x', o') →
    d.commitment x.toInt o.toInt = d.commitment x'.toInt o'.toInt →
      o ≠ o' ∧ ∃ t : Scalar, t * (o' - o) = 1
        ∧ ofScalar (.int ((x - x') * t).toInt) = .ok (Hex.lower d.g1)

theorem agree_combine_commitment (d : Domain) (x o x' o' : ℤ) :
    Agree (do combine (.text (← d.commitment x o)) (.text (← d.commitment x' o')))
      (d.commitment (x + x') (o + o')) := by
  have hsum : x • Member.generator + o • d.base + (x' • Member.generator + o' • d.base)
      = (x + x') • Member.generator + (o + o') • d.base := by module
  refine agree_of_eq ?_ (Attribute.commit_int d (x + x') (o + o')) hsum
  refine (Except.bind_of_ok (Attribute.commit_int d x o)).trans ?_
  refine (Except.bind_of_ok (Attribute.commit_int d x' o')).trans ?_
  exact combine_eq (encodes_compress _) (encodes_compress _)

theorem agree_commitment_of_modEq (d : Domain) {x o x' o' : ℤ} (hx : x ≡ x' [ZMOD groupOrder])
    (ho : o ≡ o' [ZMOD groupOrder]) : Agree (d.commitment x o) (d.commitment x' o') := by
  have hofInt : ∀ {n n' : ℤ}, n ≡ n' [ZMOD groupOrder] → Scalar.ofInt n = Scalar.ofInt n' :=
    fun {n n'} h => Scalar.toInt_injective (by rw [Scalar.toInt_ofInt, Scalar.toInt_ofInt, h])
  have hsame : d.commitment x o = d.commitment x' o' := by
    rw [commitment, commitment, ← Attribute.commit_residue, hofInt hx, hofInt ho,
      Attribute.commit_residue]
  exact ⟨hsame, givesElement_of_eq (Attribute.commit_int d x o)⟩

/-- What two attributes differ by can be made up for in the opening, in one way. -/
theorem existsUnique_opening (h : d.base ≠ 0) (x x' o : Scalar) : ∃! o' : Scalar,
    d.commitment x'.toInt o'.toInt = d.commitment x.toInt o.toInt := by
  obtain ⟨e, he⟩ := d.base.exists_smul_generator
  have hne : e ≠ 0 := by
    rintro rfl
    rw [zero_smul] at he
    exact h he.symm
  have hmask : ((x - x') * e⁻¹) • d.base = (x - x') • Member.generator := by
    rw [← he, smul_smul, mul_assoc, inv_mul_cancel₀ hne, mul_one]
  have hopening : x' • Member.generator + (o + (x - x') * e⁻¹) • d.base
      = x • Member.generator + o • d.base := by
    rw [add_smul, hmask]
    module
  refine ⟨o + (x - x') * e⁻¹, commitment_eq_iff.mpr hopening, fun o' ho' => ?_⟩
  have hsame := (commitment_eq_iff.mp ho').trans hopening.symm
  exact Escrow.smul_left_cancel h (add_left_cancel hsame)

/-- Two openings of one commitment differ in the opening value, and what they differ by is divided
to give the exponent of the second base. -/
theorem exists_discreteLog {x x' o o' : Scalar} (hne : (x, o) ≠ (x', o'))
    (h : d.commitment x.toInt o.toInt = d.commitment x'.toInt o'.toInt) :
    o ≠ o' ∧ ∃ t : Scalar, t * (o' - o) = 1
      ∧ ofScalar (.int ((x - x') * t).toInt) = .ok (Hex.lower d.g1) := by
  have hsame := commitment_eq_iff.mp h
  have ho : o ≠ o' := by
    rintro rfl
    have hx := Escrow.smul_generator_injective (add_right_cancel hsame)
    exact hne (Prod.ext hx rfl)
  have hone : (o' - o)⁻¹ * (o' - o) = 1 := inv_mul_cancel₀ (sub_ne_zero.mpr ho.symm)
  refine ⟨ho, (o' - o)⁻¹, hone, ?_⟩
  have hbase : ((x - x') * (o' - o)⁻¹) • Member.generator = d.base := by
    rw [mul_comm, mul_smul, sub_smul]
    exact (Escrow.eq_smul_sub hone hsame).symm
  rw [ofScalar_eq, hbase, compress_of_uncompress d.encodes_g1]

/-- **Commitments of a domain are Pedersen commitments**, where the second base does not decode to
the identity: they add up, they hide their attribute perfectly, and they bind to it up to the
discrete logarithm of the second base. -/
theorem isPedersen (h : uncompress (.text d.g1) ≠ .ok .identity) : d.IsPedersen where
  sum := d.agree_combine_commitment
  residue _ _ _ _ hx ho := d.agree_commitment_of_modEq hx ho
  hides := by
    refine existsUnique_opening fun hzero => h ?_
    have hread : uncompress (.text d.g1) = .ok d.base.point := d.encodes_g1
    rw [hread, hzero, Member.point_zero]
  binds _ _ _ _ := exists_discreteLog

theorem upperGenerator_ne_identity : PublicKey.upperGenerator ≠ identity := by decide +kernel

/-- The domain whose second base is the generator, spelled in the upper case. -/
def ofUpperGenerator : Domain :=
  { ofGenerator .sha256 with
    g1 := PublicKey.upperGenerator
    isElement_g1 := PublicKey.encodes_upperGenerator.isElement
    g1_ne_identity := upperGenerator_ne_identity }

/-- Where the second base is the generator, an attribute and its opening may be swapped, and this
shows that the exponent of the second base is one. -/
theorem isPedersen_upperGenerator :
    uncompress (.text ofUpperGenerator.g1) ≠ .ok .identity
      ∧ ofUpperGenerator.IsPedersen
      ∧ ofUpperGenerator.commitment 0 1 = ofUpperGenerator.commitment 1 0
      ∧ ∃ t : Scalar, t * (0 - 1) = 1
        ∧ ofScalar (.int ((0 - 1) * t).toInt) = .ok (Hex.lower PublicKey.upperGenerator) := by
  have hread : uncompress (.text ofUpperGenerator.g1) = .ok Member.generator.point :=
    PublicKey.encodes_upperGenerator
  have hne : uncompress (.text ofUpperGenerator.g1) ≠ .ok .identity := by
    rw [hread, Member.point_generator, Point.generator]
    exact fun h => Point.noConfusion (Except.ok.inj h)
  have hpedersen := isPedersen hne
  have hbase : ofUpperGenerator.base = Member.generator :=
    (encodes_g1 ofUpperGenerator).unique PublicKey.encodes_upperGenerator
  have hswap : ofUpperGenerator.commitment (0 : Scalar).toInt (1 : Scalar).toInt
      = ofUpperGenerator.commitment (1 : Scalar).toInt (0 : Scalar).toInt := by
    rw [commitment_eq_iff, hbase, add_comm]
  have hpairs : ((0 : Scalar), (1 : Scalar)) ≠ (1, 0) := by decide
  exact ⟨hne, hpedersen, hswap, (hpedersen.binds 0 1 1 0 hpairs hswap).2⟩

end Domain
end VerifiableEscrow
