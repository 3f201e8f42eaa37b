import Mathlib.Tactic.Module
import VerifiableEscrow.Presentation
import VerifiableEscrow.Proofs.CanonicalText
import VerifiableEscrow.Proofs.Framing
import VerifiableEscrow.Proofs.HexNumeral

/-!
# The engine on members

What the engine computes is a linear combination of a few members: the generator, the second
base of commitments, the auditor's key and the elements of the ciphertext.  This module reads
each step of the engine as such a combination, so that the theorems about completeness and
soundness are about linear equations over the exponents and not about texts.

* `exists_derive`, `commit_eq`, `decrypt_eq`, `recompute_eq`: what the steps answer;
* `prove_eq_bind`, `prove_eq`: the ciphertext and the proof that a bundle gives, up to the
  challenge and once the transcript is known;
* `challengeTranscript_of_encodes`: the transcript of members, however they are spelled;
* `verifierTranscript`, `recomputeChallenge_eq_ok`: the bytes that a verifier hands to the hash
  function are the only thing that the hash function comes to see;
* `outcome_verify_eq_true`: exactly when a verifier accepts.
-/

namespace VerifiableEscrow

open scoped PrimeField Member

namespace Scalar

theorem toInt_injective : Function.Injective toInt := fun x y h => by
  rw [← ofInt_toInt x, h, ofInt_toInt]

theorem ofInt_neg_toInt (x : Scalar) : ofInt (-x.toInt) = -x := by
  rw [ofInt_eq_cast, Int.cast_neg, cast_toInt]

end Scalar

namespace Domain

open Element

theorem exists_base (d : Domain) : ∃ g, Encodes (.text d.g1) g := isElement_iff.mp d.isElement_g1

/-- The second base of commitments as a member. -/
noncomputable def base (d : Domain) : Member := d.exists_base.choose

theorem encodes_g1 (d : Domain) : Encodes (.text d.g1) d.base := d.exists_base.choose_spec

theorem encodes_g (d : Domain) : Encodes (.text d.g) Member.generator := encodes_generator

theorem encodes_ge (d : Domain) : Encodes (.text d.ge) Member.generator := encodes_generator

/-- The domain whose second base is the generator too.  It stands for some domain where one is
needed; commitments in it bind nobody. -/
def ofGenerator (hash : HashFunction) : Domain where
  uid := [0]
  g1 := Element.generator
  hash := hash
  uid_ne_nil := List.cons_ne_nil 0 []
  isElement_g1 := encodes_generator.isElement
  g1_ne_identity := by decide +kernel

theorem base_ofGenerator (hash : HashFunction) : (ofGenerator hash).base = Member.generator :=
  (encodes_g1 (ofGenerator hash)).unique encodes_generator

end Domain

/-! ## Keys and commitments -/

/-- The key of an exponent is the text of the generator raised to it. -/
theorem PublicKey.exists_derive (d : Domain) (k : PrivateKey) :
    ∃ pk, derive (.given d) (.given k.toRaw) = .ok pk
      ∧ pk.toRaw.h = .text (k.x • Member.generator).point.compress := by
  obtain ⟨t, ht⟩ : ∃ t, t = (k.x • Member.generator).point.compress := ⟨_, rfl⟩
  have hscale := Element.scale_eq d.encodes_ge (Element.exponent_toInt k.x)
  rw [← ht] at hscale ⊢
  refine ⟨⟨t⟩, ?_, rfl⟩
  unfold derive
  refine Except.guard_eq_ok.mpr ⟨by simp, Except.bind_eq_ok.mpr ⟨d, rfl, ?_⟩⟩
  exact Except.bind_eq_ok.mpr ⟨k.toRaw, rfl, Except.bind_eq_ok.mpr ⟨t, hscale, rfl⟩⟩

theorem PublicKey.eq_of_derive {d : Domain} {k : PrivateKey} {pk : PublicKey}
    (h : derive (.given d) (.given k.toRaw) = .ok pk) :
    pk.h = (k.x • Member.generator).point.compress := by
  obtain ⟨pk', hderive, hpk⟩ := exists_derive d k
  obtain rfl : pk = pk' := Except.ok.inj (h.symm.trans hderive)
  exact Value.text.inj hpk

/-- A derived key encodes the generator raised to the exponent. -/
theorem PublicKey.encodes_of_derive {d : Domain} {k : PrivateKey} {pk : PublicKey}
    (h : derive (.given d) (.given k.toRaw) = .ok pk) :
    Element.Encodes (.text pk.h) (k.x • Member.generator) := by
  rw [eq_of_derive h]
  exact Element.encodes_compress _

theorem Attribute.commit_eq (d : Domain) (x o : Scalar) :
    commit (.given d.issuer) (.int x.toInt) (.int o.toInt)
      = .ok (x • Member.generator + o • d.base).point.compress := by
  have hterms : List.Forall₂ Element.TermEncodes
      [(.text d.g, .int x.toInt), (.text d.g1, .int o.toInt)]
      [(Member.generator, x), (d.base, o)] :=
    .cons ⟨d.encodes_g, Element.exponent_toInt x⟩
      (.cons ⟨d.encodes_g1, Element.exponent_toInt o⟩ .nil)
  have hcommit := Element.multiScale_eq hterms
  simp only [Member.combination, List.map_cons, List.map_nil, List.sum_cons, List.sum_nil,
    add_zero] at hcommit
  exact Except.bind_eq_ok.mpr ⟨d.issuer, rfl, hcommit⟩

namespace Escrow

open Element

/-! ## Decryption -/

theorem decrypt_eq (d : Domain) (k : PrivateKey) {e1 e2 : Value} {g1 g2 : Member}
    (h1 : Encodes e1 g1) (h2 : Encodes e2 g2) (proof : Value) (label : Option Bytes) :
    decrypt (.given d) (.given ⟨e1, e2, proof, label⟩) (.given k.toRaw)
      = .ok (g2 + -k.x • g1).point.compress := by
  have he : exponent (.int (-k.x.toInt)) = .ok (-k.x) := by
    rw [exponent_int, Scalar.ofInt_neg_toInt]
  have hcombine := combine_eq h2 (encodes_compress (-k.x • g1))
  unfold decrypt
  refine Except.guard_eq_ok.mpr ⟨by simp, ?_⟩
  refine Except.bind_eq_ok.mpr ⟨_, rfl, Except.guard_eq_ok.mpr ⟨?_, ?_⟩⟩
  · rw [h1.isElement, h2.isElement]
    decide
  · refine Except.bind_eq_ok.mpr ⟨k.toRaw, rfl, Except.bind_eq_ok.mpr ⟨_, rfl, ?_⟩⟩
    exact Except.bind_eq_ok.mpr ⟨_, scale_eq h1 he, hcombine⟩

/-! ## Recomputing -/

/-- The members that the responses to a challenge give. -/
theorem recompute_eq (d : Domain) {h cxb e1 e2 : Value} {H C E1 E2 : Member}
    (hh : Encodes h H) (hcxb : Encodes cxb C) (he1 : Encodes e1 E1) (he2 : Encodes e2 E2)
    (c rXb rR rOb : Scalar) :
    recompute d h cxb e1 e2 (.int c.toInt) (.int rXb.toInt) (.int rR.toInt) (.int rOb.toInt)
      = .ok ((rXb • Member.generator + rOb • d.base + c • C).point.compress,
          (rR • Member.generator + c • E1).point.compress,
          (rXb • Member.generator + rR • H + c • E2).point.compress) := by
  have hc := exponent_toInt c
  have hxb := exponent_toInt rXb
  have hr := exponent_toInt rR
  have hob := exponent_toInt rOb
  have hterms : List.Forall₂ TermEncodes
      [(.text d.g, .int rXb.toInt), (.text d.g1, .int rOb.toInt), (cxb, .int c.toInt)]
      [(Member.generator, rXb), (d.base, rOb), (C, c)] :=
    .cons ⟨d.encodes_g, hxb⟩ (.cons ⟨d.encodes_g1, hob⟩ (.cons ⟨hcxb, hc⟩ .nil))
  have hterms1 : List.Forall₂ TermEncodes
      [(.text d.ge, .int rR.toInt), (e1, .int c.toInt)] [(Member.generator, rR), (E1, c)] :=
    .cons ⟨d.encodes_ge, hr⟩ (.cons ⟨he1, hc⟩ .nil)
  have hterms2 : List.Forall₂ TermEncodes
      [(.text d.ge, .int rXb.toInt), (h, .int rR.toInt), (e2, .int c.toInt)]
      [(Member.generator, rXb), (H, rR), (E2, c)] :=
    .cons ⟨d.encodes_ge, hxb⟩ (.cons ⟨hh, hr⟩ (.cons ⟨he2, hc⟩ .nil))
  have hprime := multiScale_eq hterms
  have hprime1 := multiScale_eq hterms1
  have hprime2 := multiScale_eq hterms2
  simp only [Member.combination, List.map_cons, List.map_nil, List.sum_cons, List.sum_nil,
    add_zero, ← add_assoc] at hprime hprime1 hprime2
  exact Except.bind_eq_ok.mpr ⟨_, hprime, Except.bind_eq_ok.mpr ⟨_, hprime1,
    Except.bind_eq_ok.mpr ⟨_, hprime2, rfl⟩⟩⟩

/-! ## Challenges -/

theorem width_pos (f : HashFunction) : 0 < f.width := by cases f <;> decide

theorem scalarOfDigest_digest (f : HashFunction) (m : Bytes) :
    scalarOfDigest (f.digest m) = .ok (Scalar.ofInt (BigEndian.toNat (f.digest m))) := by
  refine scalarOfNumeral_encode fun h => ?_
  have hlength := HashFunction.length_digest f m
  rw [h, List.length_nil] at hlength
  exact (width_pos f).ne hlength

/-- The challenge that a transcript is hashed to. -/
def challengeOf (d : Domain) (m : Bytes) : Scalar :=
  Scalar.ofInt (BigEndian.toNat (d.hash.digest m))

theorem hashFunction_hashName (d : Domain) :
    Transcript.hashFunction d.issuer.hashName = .ok d.hash := by
  simp only [Domain.issuer, Transcript.hashFunction, Domain.hashFunction_ofName?_name]

/-- A digest is one of a transcript, and the challenge is made of nothing else. -/
theorem challengeDigest_bind_eq_ok {d : Domain} {tokenId label : Value} {elements : List Value}
    {c : Scalar} :
    challengeDigest (Context.ofIssuer d.issuer) tokenId elements label >>= scalarOfDigest = .ok c
      ↔ ∃ m, challengeTranscript (.bytes d.uid) tokenId elements label = .ok m
          ∧ challengeOf d m = c := by
  have hhash : (Context.ofIssuer d.issuer).hashFunction = .ok d.hash := hashFunction_hashName d
  constructor
  · intro h
    obtain ⟨digest, hdigest, hscalar⟩ := Except.bind_eq_ok.mp h
    obtain ⟨m, hm, hf⟩ := Except.bind_eq_ok.mp hdigest
    rw [hhash] at hf
    cases hf
    rw [scalarOfDigest_digest] at hscalar
    exact ⟨m, hm, Except.ok.inj hscalar⟩
  · rintro ⟨m, hm, rfl⟩
    refine Except.bind_eq_ok.mpr ⟨d.hash.digest m, ?_, scalarOfDigest_digest d.hash m⟩
    refine Except.bind_eq_ok.mpr ⟨m, hm, ?_⟩
    rw [hhash]
    rfl

/-- A missing label is an empty item. -/
theorem item_labelValue (label : Option Bytes) :
    Transcript.item (Ciphertext.labelValue label) = .ok (label.getD []) := by
  cases label <;> rfl

theorem short_bytes (P : Point) : Transcript.Short P.bytes := by
  rw [Transcript.Short, Point.length_bytes]
  decide

/-- The items that members are hashed as, between identifiers and a label. -/
noncomputable def memberItems (uid token : Bytes) (gs : List Member) (label : Option Bytes) :
    ChallengeItems :=
  ⟨uid, token, gs.map fun g => g.point.bytes, label.getD []⟩

/-- Values that encode members have the transcript of the members, however they are spelled. -/
theorem challengeTranscript_of_encodes {uid token : Bytes} {label : Option Bytes}
    (huid : Transcript.Short uid) (htoken : Transcript.Short token)
    (hlabel : Transcript.Short (label.getD [])) {vs : List Value} {gs : List Member}
    (h : List.Forall₂ Encodes vs gs) :
    challengeTranscript (.bytes uid) (.bytes token) vs (Ciphertext.labelValue label)
      = .ok (memberItems uid token gs label).transcript := by
  refine challengeTranscript_eq_ok.mpr ⟨memberItems uid token gs label, ?_, ?_, rfl⟩
  · refine ⟨rfl, rfl, ?_, item_labelValue label⟩
    rw [memberItems, List.forall₂_map_right_iff]
    exact h.imp fun v g hg => spacedBytes_of_uncompress hg
  · intro bs hbs
    simp only [ChallengeItems.toList, memberItems, List.mem_append, List.mem_cons, List.mem_map,
      List.not_mem_nil, or_false] at hbs
    rcases hbs with (rfl | rfl | ⟨g, -, rfl⟩) | rfl
    · exact huid
    · exact htoken
    · exact short_bytes g.point
    · exact hlabel

/-- The bytes that a verifier hands to the hash function. -/
def verifierTranscript (d : Domain) (ct : Ciphertext) (proof : Proof) (token h cxb : Value) :
    Except Fault Bytes := do
  let (cxbPrime, e1Prime, e2Prime) ←
    recompute d h cxb ct.e1 ct.e2 proof.c proof.rXb proof.rR proof.rOb
  challengeTranscript (.bytes d.uid) token
    [h, cxb, ct.e1, ct.e2, .text cxbPrime, .text e1Prime, .text e2Prime]
    (Ciphertext.labelValue ct.label)

/-- A verifier computes the challenge of its transcript. -/
theorem recomputeChallenge_eq_ok {d : Domain} {ct : Ciphertext} {proof : Proof} {token : Bytes}
    {h cxb : Value} {c : Scalar} :
    recomputeChallenge d ct proof token h cxb = .ok c
      ↔ ∃ m, verifierTranscript d ct proof (.bytes token) h cxb = .ok m ∧ challengeOf d m = c := by
  constructor
  · intro hc
    obtain ⟨primes, hprimes, hc⟩ := Except.bind_eq_ok.mp hc
    obtain ⟨m, hm, hc⟩ := challengeDigest_bind_eq_ok.mp hc
    exact ⟨m, Except.bind_eq_ok.mpr ⟨primes, hprimes, hm⟩, hc⟩
  · rintro ⟨m, hm, hc⟩
    obtain ⟨primes, hprimes, hm⟩ := Except.bind_eq_ok.mp hm
    exact Except.bind_eq_ok.mpr ⟨primes, hprimes, challengeDigest_bind_eq_ok.mpr ⟨m, hm, hc⟩⟩

/-! ## Proving -/

theorem response_toInt (nonce c secret : Scalar) :
    response nonce.toInt c.toInt secret.toInt = nonce - c * secret := by
  rw [response, Scalar.ofInt_eq_cast, Int.cast_sub, Int.cast_mul, Scalar.cast_toInt,
    Scalar.cast_toInt, Scalar.cast_toInt]

/-- The proof of a challenge and three responses. -/
def proofOfScalars (c rXb rR rOb : Scalar) : Proof :=
  ⟨.int c.toInt, .int rXb.toInt, .int rR.toInt, .int rOb.toInt⟩

/-- The proofs that pass the check of their numbers are those of exponents. -/
theorem numbers_all_isScalar_iff {p : Proof} :
    p.numbers.all isScalar = true ↔ ∃ c rXb rR rOb, p = proofOfScalars c rXb rR rOb := by
  constructor
  · intro h
    have hall := List.all_eq_true.mp h
    obtain ⟨c, hc⟩ := isScalar_iff.mp (hall p.c (by simp [Proof.numbers]))
    obtain ⟨rXb, hxb⟩ := isScalar_iff.mp (hall p.rXb (by simp [Proof.numbers]))
    obtain ⟨rR, hr⟩ := isScalar_iff.mp (hall p.rR (by simp [Proof.numbers]))
    obtain ⟨rOb, hob⟩ := isScalar_iff.mp (hall p.rOb (by simp [Proof.numbers]))
    exact ⟨c, rXb, rR, rOb, by rw [proofOfScalars, ← hc, ← hxb, ← hr, ← hob]⟩
  · rintro ⟨c, rXb, rR, rOb, rfl⟩
    simp [proofOfScalars, Proof.numbers, isScalar]

/-- The proof that a bundle gives to a challenge. -/
def honestProof (opening : Opening) (b : Bundle) (c : Scalar) : Proof :=
  proofOfScalars c (b.xbPrime - c * opening.x) (b.rPrime - c * b.r) (b.obPrime - c * opening.o)

/-- The members that a bundle gives: the two of the ciphertext and the three primed ones. -/
noncomputable def honestMembers (d : Domain) (H : Member) (x : Scalar) (b : Bundle) :
    List Member :=
  [b.r • Member.generator, b.r • H + x • Member.generator,
    b.xbPrime • Member.generator + b.obPrime • d.base, b.rPrime • Member.generator,
    b.xbPrime • Member.generator + b.rPrime • H]

/-- Once the elements are computed, a proof is made of the challenge alone. -/
theorem prove_eq_bind {d : Domain} {key : RawPublicKey} {token : Bytes} {opening : Opening}
    {label : Option Bytes} {b : Bundle} {e1 e2 cxbPrime e1Prime e2Prime : Text}
    (he1 : power d.ge b.r = .ok e1)
    (he2 : product [(key.h, b.r), (.text d.ge, opening.x)] = .ok e2)
    (hcxbPrime : product [(.text d.g, b.xbPrime), (.text d.g1, b.obPrime)] = .ok cxbPrime)
    (he1Prime : power d.ge b.rPrime = .ok e1Prime)
    (he2Prime : product [(.text d.ge, b.xbPrime), (key.h, b.rPrime)] = .ok e2Prime) :
    prove d (.given key) token opening label b
      = (challengeDigest (Context.ofIssuer d.issuer) (.bytes token)
          (key.h :: [opening.commitment, e1, e2, cxbPrime, e1Prime, e2Prime].map Value.text)
          (Ciphertext.labelValue label) >>= scalarOfDigest) >>= fun c =>
        .ok ⟨.text e1, .text e2, (honestProof opening b c).toValue, label⟩ := by
  unfold prove
  refine (Except.bind_of_ok he1).trans ((Except.bind_of_ok (Slot.get_given key)).trans ?_)
  refine (Except.bind_of_ok he2).trans ((Except.bind_of_ok hcxbPrime).trans ?_)
  refine (Except.bind_of_ok he1Prime).trans ((Except.bind_of_ok he2Prime).trans ?_)
  rw [bind_assoc]
  simp only [response_toInt]
  rfl

/-- The transcript of a proof decides it. -/
theorem prove_eq (d : Domain) {key : RawPublicKey} {H : Member} (hkey : Encodes key.h H)
    (token : Bytes) (opening : Opening) (label : Option Bytes) (b : Bundle) {m : Bytes}
    (hm : challengeTranscript (.bytes d.uid) (.bytes token)
      (key.h :: .text opening.commitment
        :: (honestMembers d H opening.x b).map fun g => .text g.point.compress)
      (Ciphertext.labelValue label) = .ok m) :
    prove d (.given key) token opening label b
      = .ok ⟨.text (b.r • Member.generator).point.compress,
          .text (b.r • H + opening.x • Member.generator).point.compress,
          (honestProof opening b (challengeOf d m)).toValue, label⟩ := by
  have he2 := product_pair_eq b.r opening.x hkey d.encodes_ge
  have hprime := product_pair_eq b.xbPrime b.obPrime d.encodes_g d.encodes_g1
  have he2Prime := product_pair_eq b.xbPrime b.rPrime d.encodes_ge hkey
  rw [prove_eq_bind (power_eq b.r d.encodes_ge) he2 hprime (power_eq b.rPrime d.encodes_ge)
    he2Prime]
  exact Except.bind_of_ok (challengeDigest_bind_eq_ok.mpr ⟨m, hm, rfl⟩)

/-! ## Verifying -/

/-- What a verifier accepts: a token that is not empty, four valid elements, a proof made of
exponents, and the challenge of the verifier's transcript. -/
structure Accepts (d : Domain) (ct : Ciphertext) (token key cxb : Value) (bs : Bytes)
    (p : Proof) (m : Bytes) : Prop where
  token_eq : token = .bytes bs
  token_ne_nil : bs ≠ []
  elements : [ct.e1, ct.e2, cxb, key].all isElement = true
  proof_eq : ct.proof = p.toValue
  numbers : p.numbers.all isScalar = true
  transcript : verifierTranscript d ct p token key cxb = .ok m
  challenge : p.c = .int (challengeOf d m).toInt

/-- A missing label may be replaced by an empty one. -/
theorem Accepts.label_some_nil {d : Domain} {e1 e2 proof token key cxb : Value} {bs m : Bytes}
    {p : Proof} (h : Accepts d ⟨e1, e2, proof, none⟩ token key cxb bs p m) :
    Accepts d ⟨e1, e2, proof, some []⟩ token key cxb bs p m where
  token_eq := h.token_eq
  token_ne_nil := h.token_ne_nil
  elements := h.elements
  proof_eq := h.proof_eq
  numbers := h.numbers
  transcript := by
    obtain ⟨primes, hprimes, hm⟩ := Except.bind_eq_ok.mp h.transcript
    refine Except.bind_eq_ok.mpr ⟨primes, hprimes, ?_⟩
    exact (challengeTranscript_label_none _ _ _).symm.trans hm
  challenge := h.challenge

theorem tokenId_eq_ok {v : Value} {bs : Bytes} :
    tokenId v = .ok bs ↔ v = .bytes bs ∧ bs ≠ [] := by
  constructor
  · intro h
    cases v with
    | bytes bs' =>
      simp only [tokenId] at h
      split_ifs at h with hempty
      cases h
      exact ⟨rfl, fun hnil => hempty (List.isEmpty_iff.mpr hnil)⟩
    | _ => cases h
  · rintro ⟨rfl, hne⟩
    rw [tokenId, if_neg (fun hempty => hne (List.isEmpty_iff.mp hempty))]

theorem proofOf_eq_ok {ct : Ciphertext} {p : Proof} :
    proofOf ct = .ok p ↔ ct.proof = p.toValue := by
  constructor
  · intro h
    unfold proofOf at h
    split at h
    next p' hp =>
      cases h
      unfold Proof.ofValue? at hp
      split at hp
      next heq =>
        cases hp
        exact heq
      next => cases hp
    next => cases h
  · intro h
    rw [proofOf, h, Proof.ofValue?_toValue]

theorem outcome_reject_ne_true {why : Rejection} {draws : Draws} {trace after : Trace} :
    Run.outcome (reject why) draws trace ≠ (.ok true, after) := by
  intro h
  cases h

theorem outcome_verify_eq_true {d : Domain} {ct : Ciphertext} {token cxb : Value}
    {key : RawPublicKey} {draws : Draws} {trace after : Trace} :
    Run.outcome (verify (.given d) (.given ct) token (.given key) cxb) draws trace
        = (.ok true, after)
      ↔ after = trace ∧ ∃ bs p m, Accepts d ct token key.h cxb bs p m := by
  unfold verify
  constructor
  · intro h
    obtain ⟨-, h⟩ := Run.outcome_guard_eq_ok.mp h
    obtain ⟨bs, htoken, h⟩ := Run.outcome_liftM_bind_eq_ok.mp h
    obtain ⟨htoken, hne⟩ := tokenId_eq_ok.mp htoken
    obtain ⟨_, hct, h⟩ := Run.outcome_liftM_bind_eq_ok.mp h
    cases hct
    obtain ⟨_, hkey, h⟩ := Run.outcome_liftM_bind_eq_ok.mp h
    cases hkey
    by_cases helements : [ct.e1, ct.e2, cxb, key.h].all isElement = true
    · simp only [helements, Bool.not_true, Bool.false_eq_true, if_false] at h
      obtain ⟨p, hp, h⟩ := Run.outcome_liftM_bind_eq_ok.mp h
      by_cases hnumbers : p.numbers.all isScalar = true
      · simp only [hnumbers, Bool.not_true, Bool.false_eq_true, if_false] at h
        obtain ⟨_, hd, h⟩ := Run.outcome_liftM_bind_eq_ok.mp h
        cases hd
        obtain ⟨c, hc, h⟩ := Run.outcome_liftM_bind_eq_ok.mp h
        obtain ⟨m, hm, rfl⟩ := recomputeChallenge_eq_ok.mp hc
        rw [← htoken] at hm
        by_cases hequal : p.c.integer? = some (challengeOf d m).toInt
        · rw [if_neg (not_not.mpr hequal)] at h
          cases h
          obtain ⟨x, hx⟩ := isScalar_iff.mp (List.all_eq_true.mp hnumbers p.c List.mem_cons_self)
          rw [hx] at hequal
          refine ⟨rfl, bs, p, m, htoken, hne, helements, proofOf_eq_ok.mp hp, hnumbers, hm, ?_⟩
          rw [hx, Option.some.inj hequal]
        · rw [if_pos hequal] at h
          exact absurd h outcome_reject_ne_true
      · simp only [hnumbers, Bool.not_false, if_true] at h
        exact absurd h outcome_reject_ne_true
    · simp only [helements, Bool.not_false, if_true] at h
      exact absurd h outcome_reject_ne_true
  · rintro ⟨rfl, bs, p, m, h⟩
    have hcxb : cxb.isNull = false := by
      obtain ⟨g, hg⟩ := isElement_iff.mp (List.all_eq_true.mp h.elements cxb (by simp))
      cases cxb with
      | null => cases hg
      | _ => rfl
    refine Run.outcome_guard_eq_ok.mpr ⟨by simp [hcxb], ?_⟩
    refine Run.outcome_liftM_bind_eq_ok.mpr
      ⟨bs, tokenId_eq_ok.mpr ⟨h.token_eq, h.token_ne_nil⟩, ?_⟩
    refine Run.outcome_liftM_bind_eq_ok.mpr ⟨ct, rfl, ?_⟩
    refine Run.outcome_liftM_bind_eq_ok.mpr ⟨key, rfl, ?_⟩
    simp only [h.elements, Bool.not_true, Bool.false_eq_true, if_false]
    refine Run.outcome_liftM_bind_eq_ok.mpr ⟨p, proofOf_eq_ok.mpr h.proof_eq, ?_⟩
    simp only [h.numbers, Bool.not_true, Bool.false_eq_true, if_false]
    refine Run.outcome_liftM_bind_eq_ok.mpr ⟨d, rfl, ?_⟩
    have hm := h.transcript
    rw [h.token_eq] at hm
    refine Run.outcome_liftM_bind_eq_ok.mpr
      ⟨challengeOf d m, recomputeChallenge_eq_ok.mpr ⟨m, hm, rfl⟩, ?_⟩
    rw [if_neg (not_not.mpr (by rw [h.challenge]; rfl))]
    rfl

theorem Accepts.outcome_verify {d : Domain} {ct : Ciphertext} {token cxb : Value}
    {key : RawPublicKey} {bs m : Bytes} {p : Proof} (h : Accepts d ct token key.h cxb bs p m)
    (draws : Draws) (trace : Trace) :
    Run.outcome (verify (.given d) (.given ct) token (.given key) cxb) draws trace
      = (.ok true, trace) :=
  outcome_verify_eq_true.mpr ⟨rfl, bs, p, m, h⟩

end Escrow
end VerifiableEscrow
