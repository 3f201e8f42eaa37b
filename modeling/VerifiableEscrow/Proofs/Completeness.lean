import VerifiableEscrow.Proofs.EscrowAlgebra

/-!
# Honest ciphertexts are accepted and decrypted

A verifier recomputes the three primed elements from the responses.  With the responses of an
honest prover the secrets cancel, so the recomputed members are the prover's; a member has one
text only, so the verifier hashes the very bytes that the prover has hashed and finds the same
challenge, whatever the hash function is.  The auditor's exponent takes the mask off the
ciphertext for the same reason.

* `exists_challengeTranscript`: texts of members and short items have a transcript;
* `recompute_honest`: the cancellation, as three linear equations;
* `accepts_honest`: so the verifier's transcript is the prover's;
* `exists_prove_accepts`, `decrypt_honest`: what that gives for a proof and for a ciphertext;
* `exists_honestCourse`: the whole course, from the keys to the decrypted pseudonym.
-/

namespace VerifiableEscrow
namespace Escrow

open Element Transcript
open scoped PrimeField Member

/-- The values of members. -/
noncomputable def memberValues (gs : List Member) : List Value :=
  gs.map fun g => .text g.point.compress

/-- Members and short items have a transcript. -/
theorem exists_challengeTranscript {uid token : Bytes} {label : Option Bytes}
    (huid : Short uid) (htoken : Short token) (hlabel : Short (label.getD []))
    (gs : List Member) :
    ∃ m, challengeTranscript (.bytes uid) (.bytes token) (memberValues gs)
      (Ciphertext.labelValue label) = .ok m := by
  have hvalues : List.Forall₂ Encodes (memberValues gs) gs := by
    rw [memberValues, List.forall₂_map_left_iff]
    exact List.forall₂_same.mpr fun g _ => encodes_compress g
  exact ⟨_, challengeTranscript_of_encodes huid htoken hlabel hvalues⟩

/-! ## The prover -/

/-- An encryption whose arguments pass the checks is the proof that the bundle gives. -/
theorem outcome_encrypt {d : Domain} {key : RawPublicKey} {token : Bytes} {opening : Opening}
    {label : Option Bytes} {source : Slot Source} {s : Source} {b : Bundle} {ct : Ciphertext}
    {draws : Draws} {trace between : Trace} (htoken : token ≠ [])
    (hs : sourceOf source = .ok s) (hb : Run.outcome s.bundle draws trace = (.ok b, between))
    (hct : prove d (.given key) token opening label b = .ok ct) :
    Run.outcome
        (encrypt (.given d) (.given key) (.bytes token) (.text opening.commitment)
          (.int opening.x.toInt) (.int opening.o.toInt) (Ciphertext.labelValue label) source)
        draws trace
      = (.ok ct, { between with events := between.events ++ [.encrypted token] }) := by
  have hopening : checkOpening (.text opening.commitment) (.int opening.x.toInt)
      (.int opening.o.toInt) = .ok opening := by
    simp only [checkOpening, scalar?_int, Scalar.ofInt?_toInt]
  have hlabel : checkLabel (Ciphertext.labelValue label) = .ok label := by
    cases label <;> rfl
  unfold encrypt
  refine Run.outcome_guard_eq_ok.mpr ⟨by simp [Value.isNull], ?_⟩
  refine Run.outcome_liftM_bind_eq_ok.mpr ⟨token, tokenId_eq_ok.mpr ⟨rfl, htoken⟩, ?_⟩
  refine Run.outcome_liftM_bind_eq_ok.mpr ⟨opening, hopening, ?_⟩
  refine Run.outcome_liftM_bind_eq_ok.mpr ⟨label, hlabel, ?_⟩
  refine Run.outcome_liftM_bind_eq_ok.mpr ⟨s, hs, ?_⟩
  refine Run.outcome_bind_eq_ok.mpr ⟨b, between, hb, ?_⟩
  refine Run.outcome_liftM_bind_eq_ok.mpr ⟨d, rfl, ?_⟩
  exact Run.outcome_liftM_bind_eq_ok.mpr ⟨ct, hct, rfl⟩

/-! ## The verifier -/

/-- The secrets cancel: the responses of an honest prover give the prover's primed elements. -/
theorem recompute_honest (d : Domain) {h cxb e1 e2 : Value} {H : Member} {x o : Scalar}
    {b : Bundle} (c : Scalar) (hh : Encodes h H)
    (hcxb : Encodes cxb (x • Member.generator + o • d.base))
    (he1 : Encodes e1 (b.r • Member.generator))
    (he2 : Encodes e2 (b.r • H + x • Member.generator)) :
    recompute d h cxb e1 e2 (.int c.toInt) (.int (b.xbPrime - c * x).toInt)
        (.int (b.rPrime - c * b.r).toInt) (.int (b.obPrime - c * o).toInt)
      = .ok ((b.xbPrime • Member.generator + b.obPrime • d.base).point.compress,
          (b.rPrime • Member.generator).point.compress,
          (b.xbPrime • Member.generator + b.rPrime • H).point.compress) := by
  have hprime : (b.xbPrime - c * x) • Member.generator + (b.obPrime - c * o) • d.base
        + c • (x • Member.generator + o • d.base)
      = b.xbPrime • Member.generator + b.obPrime • d.base := by module
  have hprime1 : (b.rPrime - c * b.r) • Member.generator + c • (b.r • Member.generator)
      = b.rPrime • Member.generator := by module
  have hprime2 : (b.xbPrime - c * x) • Member.generator + (b.rPrime - c * b.r) • H
        + c • (b.r • H + x • Member.generator)
      = b.xbPrime • Member.generator + b.rPrime • H := by module
  rw [recompute_eq d hh hcxb he1 he2, hprime, hprime1, hprime2]

/-- The opening of a commitment that is made of an attribute and an exponent. -/
theorem exists_opening (d : Domain) (x o : Scalar) :
    ∃ opening : Opening, opening.x = x ∧ opening.o = o ∧ opening.commitment
      = (opening.x • Member.generator + opening.o • d.base).point.compress := by
  refine ⟨⟨(x • Member.generator + o • d.base).point.compress, x, o⟩, rfl, rfl, ?_⟩
  dsimp only

/-- The verifier of an honest ciphertext hashes what the prover has hashed. -/
theorem accepts_honest {d : Domain} {key : Value} {H : Member} {token m : Bytes}
    {label : Option Bytes} {opening : Opening} {b : Bundle} (htoken : token ≠ [])
    (hkey : key = .text H.point.compress)
    (hopening : opening.commitment
      = (opening.x • Member.generator + opening.o • d.base).point.compress)
    (hm : challengeTranscript (.bytes d.uid) (.bytes token)
      (key :: .text opening.commitment :: memberValues (honestMembers d H opening.x b))
      (Ciphertext.labelValue label) = .ok m) :
    Accepts d
      ⟨.text (b.r • Member.generator).point.compress,
        .text (b.r • H + opening.x • Member.generator).point.compress,
        (honestProof opening b (challengeOf d m)).toValue, label⟩
      (.bytes token) key (.text opening.commitment) token
      (honestProof opening b (challengeOf d m)) m where
  token_eq := rfl
  token_ne_nil := htoken
  elements := by
    have hvalid : ∀ g : Member, isElement (.text g.point.compress) = true := fun g =>
      isElement_iff.mpr ⟨g, encodes_compress g⟩
    rw [hkey, hopening]
    simp only [List.all_cons, List.all_nil, hvalid, Bool.and_self]
  proof_eq := rfl
  numbers := numbers_all_isScalar_iff.mpr ⟨_, _, _, _, rfl⟩
  transcript := by
    have hkey : Encodes key H := by
      rw [hkey]
      exact encodes_compress H
    have hcxb : Encodes (.text opening.commitment)
        (opening.x • Member.generator + opening.o • d.base) := by
      rw [hopening]
      exact encodes_compress _
    have hprimes := recompute_honest d (challengeOf d m) hkey hcxb
      (encodes_compress (b.r • Member.generator))
      (encodes_compress (b.r • H + opening.x • Member.generator))
    exact Except.bind_eq_ok.mpr ⟨_, hprimes, hm⟩
  challenge := rfl

/-- Whatever the key, the opening and the bundle are, there is a proof, and it is accepted. -/
theorem exists_prove_accepts (d : Domain) {key : RawPublicKey} {H : Member} {token : Bytes}
    {label : Option Bytes} {opening : Opening} (b : Bundle)
    (hkey : key.h = .text H.point.compress)
    (hopening : opening.commitment
      = (opening.x • Member.generator + opening.o • d.base).point.compress)
    (htoken : token ≠ []) (huid : Short d.uid) (hshort : Short token)
    (hlabel : Short (label.getD [])) :
    ∃ (p : Proof) (ct : Ciphertext) (m : Bytes), ct
        = ⟨.text (b.r • Member.generator).point.compress,
          .text (b.r • H + opening.x • Member.generator).point.compress, p.toValue, label⟩
      ∧ prove d (.given key) token opening label b = .ok ct
      ∧ Accepts d ct (.bytes token) key.h (.text opening.commitment) token p m := by
  obtain ⟨m, hm⟩ := exists_challengeTranscript huid hshort hlabel
    (H :: (opening.x • Member.generator + opening.o • d.base) :: honestMembers d H opening.x b)
  rw [memberValues, List.map_cons, List.map_cons, ← hopening, ← hkey] at hm
  have hencodes : Encodes key.h H := by
    rw [hkey]
    exact encodes_compress H
  exact ⟨honestProof opening b (challengeOf d m), _, m, rfl,
    prove_eq d hencodes token opening label b hm, accepts_honest htoken hkey hopening hm⟩

/-- For every key and every attribute there is a ciphertext that is accepted. -/
theorem exists_accepts (d : Domain) {token : Bytes} (label : Option Bytes) (H : Member)
    (x o : Scalar) (b : Bundle) (htoken : token ≠ []) (huid : Short d.uid) (hshort : Short token)
    (hlabel : Short (label.getD [])) :
    ∃ e1 e2 cxb p m, Accepts d ⟨.text e1, .text e2, p.toValue, label⟩ (.bytes token)
      (.text H.point.compress) (.text cxb) token p m := by
  have hkey : (RawPublicKey.mk (.text H.point.compress)).h = .text H.point.compress := rfl
  obtain ⟨opening, -, -, hopening⟩ := exists_opening d x o
  obtain ⟨p, _, m, rfl, -, haccepts⟩ :=
    exists_prove_accepts d b hkey hopening htoken huid hshort hlabel
  exact ⟨_, _, _, p, m, haccepts⟩

/-- The auditor's exponent takes the mask off an honest ciphertext. -/
theorem decrypt_honest (d : Domain) (k : PrivateKey) (r x : Scalar) (proof : Value)
    (label : Option Bytes) :
    decrypt (.given d)
        (.given ⟨.text (r • Member.generator).point.compress,
          .text (r • k.x • Member.generator + x • Member.generator).point.compress, proof, label⟩)
        (.given k.toRaw)
      = .ok (x • Member.generator).point.compress := by
  have hmask : r • k.x • Member.generator + x • Member.generator
      + -k.x • (r • Member.generator) = x • Member.generator := by module
  rw [decrypt_eq d k (encodes_compress _) (encodes_compress _), hmask]

/-! ## From the keys to the pseudonym -/

/-- The course of an honest escrow: the key and the commitment are made, the attribute is
encrypted, every verifier accepts and the auditor decrypts the attribute's pseudonym. -/
structure HonestCourse (d : Domain) (k : PrivateKey) (token : Bytes) (x o : Scalar)
    (label : Option Bytes) (source : Slot Source) (draws : Draws) (trace : Trace)
    (pk : PublicKey) (cxb : Text) (ct : Ciphertext) (pseudonym : Text) : Prop where
  key : PublicKey.derive (.given d) (.given k.toRaw) = .ok pk
  commitment : Attribute.commit (.given d.issuer) (.int x.toInt) (.int o.toInt) = .ok cxb
  encrypted : (Run.outcome
    (encrypt (.given d) (.given pk.toRaw) (.bytes token) (.text cxb) (.int x.toInt) (.int o.toInt)
      (Ciphertext.labelValue label) source) draws trace).1 = .ok ct
  accepted : ∀ draws' trace', Run.outcome
    (verify (.given d) (.given ct) (.bytes token) (.given pk.toRaw) (.text cxb)) draws' trace'
      = (.ok true, trace')
  decrypted : decrypt (.given d) (.given ct) (.given k.toRaw) = .ok pseudonym
  pseudonym : ofScalar (.int x.toInt) = .ok pseudonym

/-- **Completeness and correct decryption.**  Whatever the keys, the attribute, its opening, the
label and the bundle are, an honest ciphertext is accepted and decrypts to the pseudonym. -/
theorem exists_honestCourse (d : Domain) (k : PrivateKey) {token : Bytes} (x o : Scalar)
    {label : Option Bytes} {source : Slot Source} {s : Source} {b : Bundle} {draws : Draws}
    {trace between : Trace} (htoken : token ≠ []) (huid : Short d.uid) (hshort : Short token)
    (hlabel : Short (label.getD [])) (hs : sourceOf source = .ok s)
    (hb : Run.outcome s.bundle draws trace = (.ok b, between)) :
    ∃ pk cxb ct pseudonym,
      HonestCourse d k token x o label source draws trace pk cxb ct pseudonym := by
  obtain ⟨opening, rfl, rfl, hopening⟩ := exists_opening d x o
  have hcommit := Attribute.commit_eq d opening.x opening.o
  obtain ⟨pk, hderive, hpk⟩ := PublicKey.exists_derive d k
  obtain ⟨H, hH⟩ : ∃ H : Member, H = k.x • Member.generator := ⟨_, rfl⟩
  rw [← hopening] at hcommit
  rw [← hH] at hpk
  have hkey : Encodes pk.toRaw.h H := by
    rw [hpk]
    exact encodes_compress H
  obtain ⟨m, hm⟩ := exists_challengeTranscript huid hshort hlabel
    (H :: (opening.x • Member.generator + opening.o • d.base) :: honestMembers d H opening.x b)
  rw [memberValues, List.map_cons, List.map_cons, ← hopening, ← hpk] at hm
  have hct := prove_eq d hkey token opening label b hm
  have haccepts := accepts_honest htoken hpk hopening hm
  have hpseudonym : b.r • H + opening.x • Member.generator + -k.x • (b.r • Member.generator)
      = opening.x • Member.generator := by
    rw [hH]
    module
  have hdecrypt := decrypt_eq d k (encodes_compress (b.r • Member.generator))
    (encodes_compress (b.r • H + opening.x • Member.generator))
    (honestProof opening b (challengeOf d m)).toValue label
  rw [hpseudonym] at hdecrypt
  exact ⟨pk, opening.commitment, _, (opening.x • Member.generator).point.compress, hderive,
    hcommit, congrArg Prod.fst (outcome_encrypt htoken hs hb hct),
    haccepts.outcome_verify, hdecrypt,
    ofScalar_eq opening.x⟩

/-- A course with a bundle of zeros. -/
theorem exists_honestCourse_zero :
    ∃ pk cxb ct pseudonym,
      HonestCourse (Domain.ofGenerator .sha256) ⟨2⟩ [1] 3 5 (some []) (.given (.fixed ⟨0, 0, 0, 0⟩))
        (fun _ => 0) Trace.start pk cxb ct pseudonym :=
  exists_honestCourse (Domain.ofGenerator .sha256) ⟨2⟩ 3 5 (List.cons_ne_nil 1 []) (by decide)
    (by decide) (by decide) rfl rfl

end Escrow
end VerifiableEscrow
