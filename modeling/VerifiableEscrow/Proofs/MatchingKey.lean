import VerifiableEscrow.Proofs.CiphertextContents

/-!
# Only the matching key decrypts

To decrypt is to take a mask off the second element, and the mask is the first element raised to an
exponent.  With another exponent than the key's there is left over a multiple of the generator: the
difference of the exponents times the randomness (`decrypt_ciphertextOf`).  The generator is not
the identity and the group order is prime, so nothing is left over only if the exponents are the
same or the randomness is zero.  A bundle that is drawn has no zero.

* `decrypt_ciphertextOf`: what any exponent decrypts;
* `Request.Makes.r_ne_zero`: the randomness that is drawn;
* `matchingKey`: **only the matching key recovers the pseudonym**, and it tells apart different
  attributes.
-/

namespace VerifiableEscrow
namespace Escrow

open Element
open scoped PrimeField Member

/-- What an exponent decrypts of a ciphertext for another one: the attribute, and the difference of
the exponents times the randomness. -/
theorem decrypt_ciphertextOf (d : Domain) (k k' : PrivateKey) (opening : Opening)
    (label : Option Bytes) (b : Bundle) (c : Scalar) :
    decrypt (.given d) (.given (ciphertextOf (k.x • Member.generator) opening label b c))
        (.given k'.toRaw)
      = .ok ((opening.x + b.r * (k.x - k'.x)) • Member.generator).point.compress := by
  have hleft : b.r • k.x • Member.generator + opening.x • Member.generator
      + -k'.x • (b.r • Member.generator)
      = (opening.x + b.r * (k.x - k'.x)) • Member.generator := by module
  rw [ciphertextOf, decrypt_eq d k' (encodes_compress _) (encodes_compress _), hleft]

/-- Nothing is left over when the exponents are the same or the randomness is zero. -/
theorem add_mul_sub_eq_iff {x r y y' : Scalar} : x + r * (y - y') = x ↔ y' = y ∨ r = 0 := by
  rw [add_eq_left, mul_eq_zero, sub_eq_zero, or_comm, eq_comm (a := y)]

/-- The randomness that is drawn is not zero. -/
theorem Request.Makes.r_ne_zero {R : Request} {x : Scalar} {b : Bundle} {ct : Ciphertext}
    (h : R.Makes x .system b ct) : b.r ≠ 0 := by
  obtain ⟨-, draws, trace, between, -, hrange, -, hb, -⟩ := h
  have hbundle : Run.outcome Source.system.bundle draws trace
      = (.ok (draws.bundle trace.drawn), { trace with drawn := trace.drawn + 4 }) :=
    Bundle.outcome_generate hrange trace
  rw [hbundle] at hb
  obtain rfl := Except.ok.inj (congrArg Prod.fst hb)
  exact hrange.exponent_ne_zero trace.drawn

/-- What private keys make of a ciphertext of the attribute `x`, which has been made for the key
`k` with a bundle `b` of the source `s`. -/
structure MatchedBy (d : Domain) (k : PrivateKey) (x : Scalar) (s : Source) (b : Bundle)
    (ct : Ciphertext) : Prop where
  /-- Every key decrypts something, and it is the pseudonym for the matching key, or where there is
  no randomness. -/
  pseudonym_iff : ∀ k' : PrivateKey, ∃ t,
    decrypt (.given d) (.given ct) (.given k'.toRaw) = .ok t
      ∧ (ofScalar (.int x.toInt) = .ok t ↔ k'.x = k.x ∨ b.r = 0)
  /-- Where the bundle has been drawn, the matching key alone decrypts the pseudonym. -/
  drawn : s = .system → ∀ k' : PrivateKey,
    (decrypt (.given d) (.given ct) (.given k'.toRaw) = ofScalar (.int x.toInt) ↔ k'.x = k.x)

section Matching

variable {R : Request} {k : PrivateKey} {x : Scalar} {s : Source} {b : Bundle} {ct : Ciphertext}

theorem Request.Makes.matchedBy (h : R.Makes x s b ct)
    (hkey : PublicKey.derive (.given R.domain) (.given k.toRaw) = .ok R.key) :
    MatchedBy R.domain k x s b ct := by
  have hiff : ∀ k' : PrivateKey, ∃ t,
      decrypt (.given R.domain) (.given ct) (.given k'.toRaw) = .ok t
        ∧ (ofScalar (.int x.toInt) = .ok t ↔ k'.x = k.x ∨ b.r = 0) := by
    intro k'
    obtain ⟨opening, label, c, rfl, -, rfl⟩ :=
      h.exists_eq_ciphertextOf (PublicKey.encodes_of_derive hkey)
    refine ⟨_, decrypt_ciphertextOf R.domain k k' opening label b c, ?_⟩
    rw [ofScalar_eq, Except.ok.injEq, Member.compress_injective.eq_iff,
      smul_generator_injective.eq_iff, eq_comm, add_mul_sub_eq_iff]
  refine ⟨hiff, fun hs k' => ?_⟩
  subst hs
  obtain ⟨t, hdecrypt, hpseudonym⟩ := hiff k'
  rw [hdecrypt, eq_comm, hpseudonym, or_iff_left h.r_ne_zero]

/-- The matching key decrypts the text of the attribute. -/
theorem Request.Makes.decrypt_eq (h : R.Makes x s b ct)
    (hkey : PublicKey.derive (.given R.domain) (.given k.toRaw) = .ok R.key) :
    decrypt (.given R.domain) (.given ct) (.given k.toRaw)
      = .ok (x • Member.generator).point.compress := by
  obtain ⟨t, hdecrypt, hpseudonym⟩ := (h.matchedBy hkey).pseudonym_iff k
  rw [hdecrypt, ← ofScalar_eq, hpseudonym.mpr (.inl rfl)]

end Matching

/-- **Only the matching key decrypts.**  Of a ciphertext for the key `k` any exponent decrypts
something, and it is the pseudonym exactly for the exponent of `k`, unless there is no randomness.
Different attributes always have different pseudonyms. -/
theorem matchingKey {R R' : Request} {k : PrivateKey} {x x' : Scalar} {s s' : Source}
    {b b' : Bundle} {ct ct' : Ciphertext}
    (hkey : PublicKey.derive (.given R.domain) (.given k.toRaw) = .ok R.key)
    (hkey' : PublicKey.derive (.given R'.domain) (.given k.toRaw) = .ok R'.key)
    (h : R.Makes x s b ct) (h' : R'.Makes x' s' b' ct') :
    MatchedBy R.domain k x s b ct ∧ (x ≠ x' → ∃ t t',
      decrypt (.given R.domain) (.given ct) (.given k.toRaw) = .ok t
        ∧ decrypt (.given R'.domain) (.given ct') (.given k.toRaw) = .ok t' ∧ t ≠ t') := by
  refine ⟨h.matchedBy hkey, fun hne => ?_⟩
  refine ⟨_, _, h.decrypt_eq hkey, h'.decrypt_eq hkey', fun ht => hne ?_⟩
  exact smul_generator_injective (Member.compress_injective ht)

theorem derive_one (d : Domain) :
    PublicKey.derive (.given d) (.given (⟨1⟩ : PrivateKey).toRaw) = .ok ⟨generator⟩ := by
  obtain ⟨pk, hderive, -⟩ := PublicKey.exists_derive d ⟨1⟩
  have hgenerator : pk.h = generator := by
    rw [PublicKey.eq_of_derive hderive, one_smul, Member.point_generator, generator]
  rw [hderive, ← hgenerator]

/-- The key of the exponent one, with a bundle that is drawn and with a bundle of zeros. -/
theorem matchingKey_generator :
    PublicKey.derive (.given Request.ofGenerator.domain) (.given (⟨1⟩ : PrivateKey).toRaw)
        = .ok Request.ofGenerator.key
      ∧ ∃ b ct ct', Request.ofGenerator.Makes 0 .system b ct
        ∧ Request.ofGenerator.Makes 1 (.fixed ⟨0, 0, 0, 0⟩) ⟨0, 0, 0, 0⟩ ct'
        ∧ MatchedBy Request.ofGenerator.domain ⟨1⟩ 0 .system b ct
        ∧ ((0 : Scalar) ≠ 1 → ∃ t t', decrypt (.given Request.ofGenerator.domain) (.given ct)
              (.given (⟨1⟩ : PrivateKey).toRaw) = .ok t
            ∧ decrypt (.given Request.ofGenerator.domain) (.given ct')
              (.given (⟨1⟩ : PrivateKey).toRaw) = .ok t' ∧ t ≠ t') := by
  have hkey : PublicKey.derive (.given Request.ofGenerator.domain)
      (.given (⟨1⟩ : PrivateKey).toRaw) = .ok Request.ofGenerator.key := derive_one _
  have hvalid : isElement (.text Request.ofGenerator.key.h) = true := encodes_generator.isElement
  have hdrawn : Run.outcome Source.system.bundle (fun _ => 0) Trace.start = _ :=
    Bundle.outcome_generate Draws.inRange_zero Trace.start
  have hfixed : Run.outcome (Source.fixed ⟨0, 0, 0, 0⟩).bundle (fun _ => 0) Trace.start
      = (.ok ⟨0, 0, 0, 0⟩, Trace.start) := rfl
  obtain ⟨ct, hct⟩ :=
    Request.exists_makes hvalid Request.fits_ofGenerator 0 Draws.inRange_zero hdrawn
  obtain ⟨ct', hct'⟩ :=
    Request.exists_makes hvalid Request.fits_ofGenerator 1 Draws.inRange_zero hfixed
  exact ⟨hkey, _, ct, ct', hct, hct', matchingKey hkey hkey hct hct'⟩

end Escrow
end VerifiableEscrow
