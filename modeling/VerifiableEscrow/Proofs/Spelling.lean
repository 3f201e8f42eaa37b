import VerifiableEscrow.Proofs.EncryptionContract
import VerifiableEscrow.Proofs.ExactVerification
import VerifiableEscrow.Proofs.KeyChecks
import VerifiableEscrow.Proofs.TwoRuns

/-!
# The engine does not depend on how elements are spelled

A point of the group has more than one text, since the digits of a text may be in either case.
The engine is handed texts, and these texts go into the transcript of a challenge as they came: they
are not read and written again.  Nothing is lost by that.  The transcript is made of the bytes that
the digits spell, and whatever decodes to a point spells the point's bytes.  Where the engine
computes with an element, it decodes it first, and nowhere does it compare texts of elements.

So all that an operation does with an element is determined by the point that it decodes to.

* `SamePoint.isElement_eq`, `SamePoint.spacedBytes_eq`, `multiScale_eq_of_samePoint`: the steps
  that look at elements;
* `recomputeChallenge_eq_of_samePoint`, `prove_eq_of_samePoint`: what a verifier and a prover
  compute;
* `spellingFree`: **two spellings of the same points lead to the same answers**, in verification,
  decryption and encryption.
-/

namespace VerifiableEscrow

open scoped PrimeField Member

namespace Element

/-! ## Operations on elements -/

namespace SamePoint

variable {v w : Value}

theorem uncompress_eq (h : SamePoint v w) : uncompress v = uncompress w := by
  obtain ⟨P, hv, hw⟩ := h
  rw [hv, hw]

theorem isElement_eq (h : SamePoint v w) : isElement v = isElement w := by
  rw [isElement, isElement, validate, validate, h.uncompress_eq]

/-- What goes into a transcript is not the text but the bytes of the point. -/
theorem spacedBytes_eq (h : SamePoint v w) :
    Transcript.spacedBytes v = Transcript.spacedBytes w := by
  obtain ⟨P, hv, hw⟩ := h
  rw [spacedBytes_of_uncompress hv, spacedBytes_of_uncompress hw]

theorem term_eq (h : SamePoint v w) (e : Value) : term (v, e) = term (w, e) := by
  rw [term, term, h.uncompress_eq]

end SamePoint

theorem multiScale_eq_of_samePoint {vs ws : List Value} (h : List.Forall₂ SamePoint vs ws)
    (es : List Value) : multiScale vs es = multiScale ws es := by
  have hterms :
      List.Forall₂ (fun pair pair' => term pair = term pair') (vs.zip es) (ws.zip es) := by
    induction h generalizing es with
    | nil => exact .nil
    | cons hv _ ih =>
      cases es with
      | nil => exact .nil
      | cons e es => exact .cons (hv.term_eq e) (ih es)
  rw [multiScale, multiScale, h.length_eq, Except.Related.mapM_eq hterms]

end Element

namespace Escrow

open Element Transcript

/-! ## Challenges -/

theorem challengeTranscript_eq_of_spacedBytes {vs ws : List Value} (uid token : Value)
    (h : List.Forall₂ (fun v w => spacedBytes v = spacedBytes w) vs ws) (label : Value) :
    challengeTranscript uid token vs label = challengeTranscript uid token ws label := by
  rw [challengeTranscript, challengeTranscript, Except.Related.mapM_eq h]

theorem challengeDigest_eq_of_spacedBytes {vs ws : List Value} (context : Context) (token : Value)
    (h : List.Forall₂ (fun v w => spacedBytes v = spacedBytes w) vs ws) (label : Value) :
    challengeDigest context token vs label = challengeDigest context token ws label := by
  rw [challengeDigest, challengeDigest, challengeTranscript_eq_of_spacedBytes _ _ h]

/-! ## Verifying -/

section Verifying

variable {d : Domain} {e1 e2 h cxb e1' e2' h' cxb' : Value}

/-- The elements that the responses give. -/
theorem recompute_eq_of_samePoint (hh : SamePoint h h') (hcxb : SamePoint cxb cxb')
    (he1 : SamePoint e1 e1') (he2 : SamePoint e2 e2') (c rXb rR rOb : Value) :
    recompute d h cxb e1 e2 c rXb rR rOb = recompute d h' cxb' e1' e2' c rXb rR rOb := by
  have hg := d.encodes_g.samePoint d.encodes_g
  have hg1 := d.encodes_g1.samePoint d.encodes_g1
  have hge := d.encodes_ge.samePoint d.encodes_ge
  unfold recompute
  dsimp only
  rw [multiScale_eq_of_samePoint (.cons hg (.cons hg1 (.cons hcxb .nil))),
    multiScale_eq_of_samePoint (.cons hge (.cons he1 .nil)),
    multiScale_eq_of_samePoint (.cons hge (.cons hh (.cons he2 .nil)))]

theorem recomputeChallenge_eq_of_samePoint (hh : SamePoint h h') (hcxb : SamePoint cxb cxb')
    (he1 : SamePoint e1 e1') (he2 : SamePoint e2 e2') (proof : Value) (label : Option Bytes)
    (p : Proof) (token : Bytes) :
    recomputeChallenge d ⟨e1, e2, proof, label⟩ p token h cxb
      = recomputeChallenge d ⟨e1', e2', proof, label⟩ p token h' cxb' := by
  unfold recomputeChallenge
  rw [recompute_eq_of_samePoint hh hcxb he1 he2]
  refine bind_congr fun primes => ?_
  dsimp only
  rw [challengeDigest_eq_of_spacedBytes]
  exact .cons hh.spacedBytes_eq (.cons hcxb.spacedBytes_eq (.cons he1.spacedBytes_eq
    (.cons he2.spacedBytes_eq (List.forall₂_same.mpr fun v _ => rfl))))

/-- The elements pass the check of a verifier together or not at all. -/
theorem judge_eq_of_samePoint (hh : SamePoint h h') (hcxb : SamePoint cxb cxb')
    (he1 : SamePoint e1 e1') (he2 : SamePoint e2 e2') (proof : Value) (label : Option Bytes)
    (token : Bytes) :
    judge (.given d) ⟨e1, e2, proof, label⟩ token h cxb
      = judge (.given d) ⟨e1', e2', proof, label⟩ token h' cxb' := by
  have helements : [e1, e2, cxb, h].all isElement = [e1', e2', cxb', h'].all isElement := by
    simp only [List.all_cons, he1.isElement_eq, he2.isElement_eq, hcxb.isElement_eq,
      hh.isElement_eq]
  have hproof : proofOf ⟨e1, e2, proof, label⟩ = proofOf ⟨e1', e2', proof, label⟩ := rfl
  unfold judge
  rw [helements, hproof]
  refine if_congr Iff.rfl rfl (bind_congr fun p => if_congr Iff.rfl rfl ?_)
  exact bind_congr fun d' => by
    rw [recomputeChallenge_eq_of_samePoint hh hcxb he1 he2]

end Verifying

/-! ## Proving -/

section Proving

variable {d : Domain} {key key' : RawPublicKey} {opening opening' : Opening}

/-- Two openings are of the same exponents, and their commitments are of the same point. -/
structure Opening.Respelled (opening opening' : Opening) : Prop where
  commitment : SamePoint (.text opening.commitment) (.text opening'.commitment)
  x : opening.x = opening'.x
  o : opening.o = opening'.o

theorem prove_eq_of_samePoint (hkey : SamePoint key.h key'.h)
    (hopening : opening.Respelled opening') (token : Bytes) (label : Option Bytes) (b : Bundle) :
    prove d (.given key) token opening label b = prove d (.given key') token opening' label b := by
  have hge := d.encodes_ge.samePoint d.encodes_ge
  have he2 : ∀ x, product [(key.h, b.r), (.text d.ge, x)]
      = product [(key'.h, b.r), (.text d.ge, x)] := fun x =>
    multiScale_eq_of_samePoint (.cons hkey (.cons hge .nil)) _
  have he2Prime : product [(.text d.ge, b.xbPrime), (key.h, b.rPrime)]
      = product [(.text d.ge, b.xbPrime), (key'.h, b.rPrime)] :=
    multiScale_eq_of_samePoint (.cons hge (.cons hkey .nil)) _
  have hdigest : ∀ rest, challengeDigest (Context.ofIssuer d.issuer) (.bytes token)
        (key.h :: (opening.commitment :: rest).map .text) (Ciphertext.labelValue label)
      = challengeDigest (Context.ofIssuer d.issuer) (.bytes token)
        (key'.h :: (opening'.commitment :: rest).map .text) (Ciphertext.labelValue label) :=
    fun rest => challengeDigest_eq_of_spacedBytes _ _ (.cons hkey.spacedBytes_eq
      (.cons hopening.commitment.spacedBytes_eq (List.forall₂_same.mpr fun v _ => rfl))) _
  obtain ⟨commitment, x, o⟩ := opening
  obtain ⟨commitment', x', o'⟩ := opening'
  obtain ⟨hcommitment, rfl, rfl⟩ := hopening
  unfold prove
  dsimp only
  refine bind_congr fun e1 => ?_
  refine (Except.bind_of_ok (Slot.get_given key)).trans ?_
  refine Eq.trans ?_ (Except.bind_of_ok (Slot.get_given key')).symm
  rw [he2]
  refine bind_congr fun e2 => bind_congr fun cxbPrime => bind_congr fun e1Prime => ?_
  rw [he2Prime]
  exact bind_congr fun e2Prime => by rw [hdigest]

end Proving

/-! ## Spellings -/

/-- The texts that an escrow is about: the two elements of a ciphertext, the commitment and the
auditor's key. -/
structure Spelling where
  e1 : Text
  e2 : Text
  commitment : Text
  key : Text

/-- Two texts are valid elements and decode to the same point. -/
structure SameElement (t t' : Text) : Prop where
  accepted : isElement (.text t) = true
  accepted' : isElement (.text t') = true
  uncompress_eq : uncompress (.text t) = uncompress (.text t')

theorem SameElement.samePoint {t t' : Text} (h : SameElement t t') :
    SamePoint (.text t) (.text t') := by
  obtain ⟨g, hg⟩ := isElement_iff.mp h.accepted
  exact ⟨g.point, hg, h.uncompress_eq ▸ hg⟩

namespace Spelling

/-- One by one, the texts of two spellings are the same elements. -/
structure Agrees (s s' : Spelling) : Prop where
  e1 : SameElement s.e1 s'.e1
  e2 : SameElement s.e2 s'.e2
  commitment : SameElement s.commitment s'.commitment
  key : SameElement s.key s'.key

/-- The ciphertext with these elements. -/
def ciphertext (s : Spelling) (proof : Value) (label : Option Bytes) : Ciphertext :=
  ⟨.text s.e1, .text s.e2, proof, label⟩

/-- Verifies a proof about these texts. -/
def verify (s : Spelling) (d : Domain) (token proof : Value) (label : Option Bytes) : Run Bool :=
  Escrow.verify (.given d) (.given (s.ciphertext proof label)) token
    (.given (PublicKey.toRaw ⟨s.key⟩)) (.text s.commitment)

/-- Decrypts these texts. -/
def decrypt (s : Spelling) (d : Domain) (k : PrivateKey) (proof : Value) (label : Option Bytes) :
    Except Fault Text :=
  Escrow.decrypt (.given d) (.given (s.ciphertext proof label)) (.given k.toRaw)

/-- Encrypts for this key under this commitment. -/
def encrypt (s : Spelling) (d : Domain) (token xb ob label : Value) (source : Slot Source) :
    Run Ciphertext :=
  Escrow.encrypt (.given d) (.given (PublicKey.toRaw ⟨s.key⟩)) token (.text s.commitment) xb ob
    label source

end Spelling

/-- Two spellings lead to the same answers.  The operations are the same even where they fail, and
where their arguments are in order they do not fail. -/
structure SpellingFree (d : Domain) (s s' : Spelling) : Prop where
  verified : ∀ token proof label draws trace,
    Run.outcome (s.verify d token proof label) draws trace
      = Run.outcome (s'.verify d token proof label) draws trace
  /-- There is an answer on any proof. -/
  answered : ∀ token (p : Proof) label draws trace, token ≠ [] → Short token → Short d.uid →
    Short (label.getD []) → ∃ answer after,
      Run.outcome (s.verify d (.bytes token) p.toValue label) draws trace = (.ok answer, after)
      ∧ Run.outcome (s'.verify d (.bytes token) p.toValue label) draws trace = (.ok answer, after)
  /-- Every key decrypts both to one text. -/
  decrypted : ∀ k proof label, ∃ t,
    s.decrypt d k proof label = .ok t ∧ s'.decrypt d k proof label = .ok t
  encrypted : ∀ token xb ob label source draws trace,
    Run.outcome (s.encrypt d token xb ob label source) draws trace
      = Run.outcome (s'.encrypt d token xb ob label source) draws trace
  /-- Every attribute, opening and bundle give one ciphertext. -/
  made : ∀ token (x o : Scalar) label source taken b draws trace between, token ≠ [] →
    Short token → Short d.uid → Short (label.getD []) → sourceOf source = .ok taken →
    Run.outcome taken.bundle draws trace = (.ok b, between) → ∃ ct after,
      Run.outcome (s.encrypt d (.bytes token) (.int x.toInt) (.int o.toInt)
          (Ciphertext.labelValue label) source) draws trace = (.ok ct, after)
      ∧ Run.outcome (s'.encrypt d (.bytes token) (.int x.toInt) (.int o.toInt)
          (Ciphertext.labelValue label) source) draws trace = (.ok ct, after)

section Agreeing

variable {s s' : Spelling} (d : Domain)

theorem verify_eq_of_agrees (h : s.Agrees s') (token proof : Value) (label : Option Bytes) :
    s.verify d token proof label = s'.verify d token proof label := by
  rw [Spelling.verify, Spelling.verify, verify_eq_bind Value.noConfusion,
    verify_eq_bind Value.noConfusion]
  exact bind_congr fun bs => judge_eq_of_samePoint h.key.samePoint h.commitment.samePoint
    h.e1.samePoint h.e2.samePoint proof label bs

theorem exists_decrypt_of_agrees (h : s.Agrees s') (k : PrivateKey) (proof : Value)
    (label : Option Bytes) :
    ∃ t, s.decrypt d k proof label = .ok t ∧ s'.decrypt d k proof label = .ok t := by
  obtain ⟨E1, hE1⟩ := isElement_iff.mp h.e1.accepted
  obtain ⟨E2, hE2⟩ := isElement_iff.mp h.e2.accepted
  have hE1' : Encodes (.text s'.e1) E1 := h.e1.uncompress_eq.symm.trans hE1
  have hE2' : Encodes (.text s'.e2) E2 := h.e2.uncompress_eq.symm.trans hE2
  exact ⟨_, decrypt_eq d k hE1 hE2 proof label, decrypt_eq d k hE1' hE2' proof label⟩

theorem outcome_encrypt_eq_of_agrees (h : s.Agrees s') (token xb ob label : Value)
    (source : Slot Source) (draws : Draws) (trace : Trace) :
    Run.outcome (s.encrypt d token xb ob label source) draws trace
      = Run.outcome (s'.encrypt d token xb ob label source) draws trace := by
  have hopening : Except.Related Opening.Respelled (checkOpening (.text s.commitment) xb ob)
      (checkOpening (.text s'.commitment) xb ob) := by
    unfold checkOpening
    dsimp only
    split
    next x o _ _ => exact .ok ⟨h.commitment.samePoint, rfl, rfl⟩
    next => exact .error _
  have hnull : ((Value.text s.commitment).isNull || xb.isNull || ob.isNull)
      = ((Value.text s'.commitment).isNull || xb.isNull || ob.isNull) := rfl
  have hcheck := checkArguments_related (.given d) (PublicKey.toRaw ⟨s.key⟩)
    (PublicKey.toRaw ⟨s'.key⟩) token label hnull hopening
  have hsource : Except.Related Eq (sourceOf source) (sourceOf source) :=
    Except.Related.of_refl (fun _ => rfl) _
  refine Run.Alike.eq (alike_encrypt trace hcheck hsource (B := Eq) ?_ ?_)
  · rintro taken _ between rfl
    exact ⟨Except.Related.of_refl (fun _ => rfl) _, rfl⟩
  · rintro a a' b _ ha rfl
    have hkey : SamePoint (PublicKey.toRaw ⟨s.key⟩).h (PublicKey.toRaw ⟨s'.key⟩).h :=
      h.key.samePoint
    rw [Checked.prove_given, Checked.prove_given, ← ha.token, ← ha.label,
      prove_eq_of_samePoint hkey ha.opening]
    exact Except.Related.of_refl (fun _ => rfl) _

/-- With valid elements there is a ciphertext. -/
theorem exists_outcome_encrypt (h : s.Agrees s') {token : Bytes} (x o : Scalar)
    {label : Option Bytes} {source : Slot Source} {taken : Source} {b : Bundle} {draws : Draws}
    {trace between : Trace} (hne : token ≠ []) (htoken : Short token) (huid : Short d.uid)
    (hlabel : Short (label.getD [])) (hsource : sourceOf source = .ok taken)
    (hb : Run.outcome taken.bundle draws trace = (.ok b, between)) :
    ∃ ct after, Run.outcome (s.encrypt d (.bytes token) (.int x.toInt) (.int o.toInt)
      (Ciphertext.labelValue label) source) draws trace = (.ok ct, after) := by
  obtain ⟨H, hH⟩ := isElement_iff.mp h.key.accepted
  obtain ⟨C, hC⟩ := isElement_iff.mp h.commitment.accepted
  obtain ⟨t, ht, hdigits, -⟩ := exists_text hC
  obtain rfl : s.commitment = t := Value.text.inj ht
  have hchecked : Checked.Of ⟨token, ⟨s.commitment, x, o⟩, label⟩ (.bytes token)
      (.text s.commitment) (.int x.toInt) (.int o.toInt) (Ciphertext.labelValue label) :=
    ⟨rfl, hne, rfl, rfl, rfl, rfl⟩
  have hread : uncompress (PublicKey.toRaw ⟨s.key⟩).h = .ok H.point := hH
  have hcommitment : Hex.decodeSpaced? (Opening.mk s.commitment x o).commitment
      = some C.point.bytes := hdigits
  obtain ⟨ct, hprove⟩ : ∃ ct,
      prove d (.given (PublicKey.toRaw ⟨s.key⟩)) token ⟨s.commitment, x, o⟩ label b = .ok ct := by
    obtain ⟨e2, proof, -, hprove⟩ :=
      exists_prove hread hcommitment huid htoken (short_bytes C.point) hlabel
    exact ⟨_, hprove⟩
  refine ⟨ct, { between with events := between.events ++ [.encrypted token] }, ?_⟩
  rw [Spelling.encrypt, outcome_encrypt_of_checked hchecked hsource hb, hprove, conclude]

end Agreeing

/-- **The engine does not depend on how elements are spelled.** -/
theorem spellingFree (d : Domain) {s s' : Spelling} (h : s.Agrees s') : SpellingFree d s s' where
  verified token proof label draws trace := by rw [verify_eq_of_agrees d h]
  answered token p label draws trace hne htoken huid hlabel := by
    have hct : (s.ciphertext p.toValue label).proof = p.toValue := rfl
    obtain ⟨answer, after, hjudge⟩ := exists_outcome_judge hct huid htoken hlabel (.text s.key)
      (.text s.commitment) draws trace
    have hverify : Run.outcome (s.verify d (.bytes token) p.toValue label) draws trace
        = (.ok answer, after) := by
      rw [Spelling.verify, outcome_verify_eq_judge Value.noConfusion hne]
      exact hjudge
    exact ⟨answer, after, hverify, verify_eq_of_agrees d h _ _ _ ▸ hverify⟩
  decrypted := exists_decrypt_of_agrees d h
  encrypted := outcome_encrypt_eq_of_agrees d h
  made token x o label source taken b draws trace between hne htoken huid hlabel hsource hb := by
    obtain ⟨ct, after, hct⟩ := exists_outcome_encrypt d h x o hne htoken huid hlabel hsource hb
    exact ⟨ct, after, hct, (outcome_encrypt_eq_of_agrees d h _ _ _ _ _ _ _).symm.trans hct⟩

/-- The generator and the identity in the lower case and in the upper case. -/
def Spelling.lowercase : Spelling := ⟨generator, identity, generator, generator⟩

@[inherit_doc Spelling.lowercase]
def Spelling.uppercase : Spelling :=
  ⟨PublicKey.upperGenerator, upperIdentity, PublicKey.upperGenerator, PublicKey.upperGenerator⟩

theorem Spelling.agrees_lowercase_uppercase : lowercase.Agrees uppercase := by
  have hgenerator : SameElement generator PublicKey.upperGenerator :=
    ⟨encodes_generator.isElement, PublicKey.encodes_upperGenerator.isElement,
      encodes_generator.trans PublicKey.encodes_upperGenerator.symm⟩
  have hidentity : SameElement identity upperIdentity :=
    ⟨encodes_identity.isElement, encodes_upperIdentity.isElement,
      encodes_identity.trans encodes_upperIdentity.symm⟩
  exact ⟨hgenerator, hidentity, hgenerator, hgenerator⟩

/-- The case of the digits makes no difference. -/
theorem spellingFree_uppercase :
    Spelling.lowercase.Agrees .uppercase ∧ Spelling.lowercase.key ≠ Spelling.uppercase.key
      ∧ SpellingFree (Domain.ofGenerator .sha256) .lowercase .uppercase := by
  refine ⟨Spelling.agrees_lowercase_uppercase, ?_, ?_⟩
  · decide +kernel
  · exact spellingFree _ Spelling.agrees_lowercase_uppercase

end Escrow
end VerifiableEscrow
