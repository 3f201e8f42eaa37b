import VerifiableEscrow.Proofs.CanonicalText
import VerifiableEscrow.Proofs.TamperEvidence

/-!
# Verification as a predicate

A verifier is handed a ciphertext from a stranger, and whatever is wrong with it is an answer and
no fault.  Two things are the caller's to get right, the commitment and the identifier of the
token, and only these are refused.

That nothing else fails is a matter of order.  The elements are decoded before they are computed
with, the numbers are looked at before they are exponents, and the digits of a valid element are
those of 48 bytes, so that after both checks the transcript exists.  Since its bytes are the bytes
of the points, however these were spelled, the verdict can be said on the points.

* `verifierTranscript_eq`: what the verifier hashes, on members;
* `Convinces`: the predicate, and `exists_accepts_iff`, that it is what a verifier accepts;
* `outcome_verify_refused`, `exists_outcome_judge`: what is refused, and that the rest is judged;
* `exact_verify`: the verifier decides the predicate.
-/

namespace VerifiableEscrow
namespace Escrow

open Element Transcript
open scoped PrimeField Member

/-! ## The verifier's transcript -/

/-- The transcript of a verifier is the one of the statement and of the three members that the
responses give. -/
theorem verifierTranscript_eq {d : Domain} {ct : Ciphertext} {h cxb : Value}
    {H C E1 E2 : Member} (hh : Encodes h H) (hcxb : Encodes cxb C) (he1 : Encodes ct.e1 E1)
    (he2 : Encodes ct.e2 E2) (c rXb rR rOb : Scalar) {token : Bytes} (huid : Short d.uid)
    (htoken : Short token) (hlabel : Short (ct.label.getD [])) :
    verifierTranscript d ct (proofOfScalars c rXb rR rOb) (.bytes token) h cxb
      = .ok (memberItems d.uid token (verifierMembers d H C E1 E2 c rXb rR rOb)
          ct.label).transcript := by
  refine Except.bind_eq_ok.mpr ⟨_, recompute_eq d hh hcxb he1 he2 c rXb rR rOb, ?_⟩
  refine challengeTranscript_of_encodes huid htoken hlabel ?_
  exact .cons hh (.cons hcxb (.cons he1 (.cons he2 (.cons (encodes_compress _)
    (.cons (encodes_compress _) (.cons (encodes_compress _) .nil))))))

/-! ## The predicate -/

/-- The statement of a proof holds up: the elements are valid, the numbers are exponents, and the
challenge is the one of the transcript of the statement and of `g ^ rXb · g1 ^ rOb · Cxb ^ c`,
`ge ^ rR · E1 ^ c` and `ge ^ rXb · H ^ rR · E2 ^ c`. -/
structure Convinces (d : Domain) (ct : Ciphertext) (p : Proof) (token : Bytes) (h cxb : Value) :
    Prop where
  elements : ∀ v ∈ [ct.e1, ct.e2, cxb, h], isElement v = true
  numbers : ∀ v ∈ p.numbers, ∃ n : ℕ, n < groupOrder ∧ v = .int n
  challenge : ∃ H C E1 E2 c rXb rR rOb, Encodes h H ∧ Encodes cxb C ∧ Encodes ct.e1 E1
    ∧ Encodes ct.e2 E2 ∧ p = proofOfScalars c rXb rR rOb
    ∧ c = challengeOf d (memberItems d.uid token
        [H, C, E1, E2, rXb • Member.generator + rOb • d.base + c • C,
          rR • Member.generator + c • E1, rXb • Member.generator + rR • H + c • E2]
        ct.label).transcript

theorem isScalar_iff_lt {v : Value} :
    isScalar v = true ↔ ∃ n : ℕ, n < groupOrder ∧ v = .int n := by
  rw [isScalar_iff]
  constructor
  · rintro ⟨x, rfl⟩
    exact ⟨x.val, x.isLt, rfl⟩
  · rintro ⟨n, hn, rfl⟩
    exact ⟨⟨n, hn⟩, rfl⟩

/-- What can be the identifier of a token. -/
def IsTokenId (v : Value) : Prop := ∃ bs, v = .bytes bs ∧ bs ≠ []

variable {d : Domain} {ct : Ciphertext} {p : Proof} {bs : Bytes} {token cxb : Value}

/-- What a verifier accepts is what convinces. -/
theorem exists_accepts_iff (hct : ct.proof = p.toValue) (huid : Short d.uid) (hbs : Short bs)
    (hlabel : Short (ct.label.getD [])) {h : Value} :
    (∃ bs' q m, Accepts d ct (.bytes bs) h cxb bs' q m)
      ↔ bs ≠ [] ∧ Convinces d ct p bs h cxb := by
  constructor
  · rintro ⟨bs', q, m, haccepts⟩
    obtain rfl : bs = bs' := Value.bytes.inj haccepts.token_eq
    obtain rfl : p = q := toValue_injective (hct.symm.trans haccepts.proof_eq)
    obtain ⟨v⟩ := haccepts.exists_view
    refine ⟨haccepts.token_ne_nil, List.all_eq_true.mp haccepts.elements, fun w hw => ?_, ?_⟩
    · exact isScalar_iff_lt.mp (List.all_eq_true.mp haccepts.numbers w hw)
    · refine ⟨v.H, v.C, v.E1, v.E2, v.c, v.rXb, v.rR, v.rOb, v.encodes_key, v.encodes_cxb,
        v.encodes_e1, v.encodes_e2, v.proof_eq, ?_⟩
      have htranscript := verifierTranscript_eq v.encodes_key v.encodes_cxb v.encodes_e1
        v.encodes_e2 v.c v.rXb v.rR v.rOb huid hbs hlabel
      rw [← v.proof_eq, haccepts.transcript] at htranscript
      have hc : p.c = .int v.c.toInt := congrArg Proof.c v.proof_eq
      have hchallenge := Scalar.toInt_injective (Value.int.inj (hc.symm.trans haccepts.challenge))
      exact hchallenge.trans (congrArg (challengeOf d) (Except.ok.inj htranscript))
  · rintro ⟨hne, hconvinces⟩
    obtain ⟨H, C, E1, E2, c, rXb, rR, rOb, hH, hC, hE1, hE2, rfl, hc⟩ := hconvinces.challenge
    refine ⟨bs, _, _, rfl, hne, List.all_eq_true.mpr hconvinces.elements, hct,
      numbers_all_isScalar_iff.mpr ⟨c, rXb, rR, rOb, rfl⟩,
      verifierTranscript_eq hH hC hE1 hE2 c rXb rR rOb huid hbs hlabel, ?_⟩
    exact congrArg (fun x : Scalar => Value.int x.toInt) hc

/-- A verifier accepts exactly what convinces. -/
theorem outcome_verify_eq_true_iff (hct : ct.proof = p.toValue) (huid : Short d.uid)
    (hbs : Short bs) (hlabel : Short (ct.label.getD [])) (key : RawPublicKey) (cxb : Value)
    (draws : Draws) (trace : Trace) :
    (Run.outcome (verify (.given d) (.given ct) (.bytes bs) (.given key) cxb) draws trace).1
        = .ok true
      ↔ bs ≠ [] ∧ Convinces d ct p bs key.h cxb := by
  rw [← exists_accepts_iff hct huid hbs hlabel]
  constructor
  · intro h
    exact (outcome_verify_eq_true.mp (Prod.ext h rfl)).2
  · rintro ⟨bs', q, m, haccepts⟩
    rw [haccepts.outcome_verify]

/-! ## Refusals and verdicts -/

theorem tokenId_of_not {v : Value} (h : ¬IsTokenId v) :
    ∃ why, tokenId v = .error (.argument why) := by
  cases v with
  | null => exact ⟨_, rfl⟩
  | bytes bs =>
    have hempty : bs.isEmpty = true := by
      rw [List.isEmpty_iff]
      by_contra hne
      exact h ⟨bs, rfl, hne⟩
    rw [tokenId, if_pos hempty]
    exact ⟨_, rfl⟩
  | _ => exact ⟨_, rfl⟩

/-- A verifier refuses what is missing and what is no identifier of a token. -/
theorem outcome_verify_refused (h : cxb = .null ∨ ¬IsTokenId token) (d : Domain)
    (ct : Ciphertext) (key : RawPublicKey) (draws : Draws) (trace : Trace) :
    ∃ why, Run.outcome (verify (.given d) (.given ct) token (.given key) cxb) draws trace
      = (.error (.argument why), trace) := by
  unfold verify
  by_cases hcxb : cxb.isNull = true
  · refine ⟨.missing .verification, ?_⟩
    rw [if_pos (by simp [hcxb]), Run.outcome_bind, Run.outcome_throw]
  · have htoken : ¬IsTokenId token := by
      refine h.resolve_left ?_
      rintro rfl
      exact hcxb rfl
    obtain ⟨why, hwhy⟩ := tokenId_of_not htoken
    refine ⟨why, ?_⟩
    rw [if_neg (by simp [hcxb]), Run.outcome_bind, Run.outcome_liftM, hwhy]

/-- The verdict on arguments that are not refused. -/
def judge (domain : Slot Domain) (ct : Ciphertext) (token : Bytes) (h cxb : Value) :
    Run Bool := do
  if !([ct.e1, ct.e2, cxb, h].all isElement) then reject .groupElement
  else
    let proof ← proofOf ct
    if !proof.numbers.all isScalar then reject .fieldElement
    else
      let c ← recomputeChallenge (← domain.get) ct proof token h cxb
      if proof.c.integer? ≠ some c.toInt then reject .challenge else return true

/-- A verifier looks at the token before it looks at the elements. -/
theorem verify_eq_bind (hcxb : cxb ≠ .null) (d : Domain) (ct : Ciphertext) (token : Value)
    (key : RawPublicKey) : verify (.given d) (.given ct) token (.given key) cxb
      = liftM (tokenId token) >>= fun bs => judge (.given d) ct bs key.h cxb := by
  have hnull : cxb.isNull = false := by
    cases cxb with
    | null => exact absurd rfl hcxb
    | _ => rfl
  unfold verify judge
  rw [if_neg (by simp [hnull])]
  rfl

theorem outcome_verify_eq_judge (hcxb : cxb ≠ .null) (hne : bs ≠ []) (d : Domain)
    (ct : Ciphertext) (key : RawPublicKey) (draws : Draws) (trace : Trace) :
    Run.outcome (verify (.given d) (.given ct) (.bytes bs) (.given key) cxb) draws trace
      = Run.outcome (judge (.given d) ct bs key.h cxb) draws trace := by
  rw [verify_eq_bind hcxb, Run.outcome_bind, Run.outcome_liftM, tokenId_eq_ok.mpr ⟨rfl, hne⟩]

/-- Valid elements and exponents have a challenge. -/
theorem exists_recomputeChallenge (huid : Short d.uid) (hbs : Short bs)
    (hlabel : Short (ct.label.getD [])) {h : Value}
    (helements : [ct.e1, ct.e2, cxb, h].all isElement = true)
    (hnumbers : p.numbers.all isScalar = true) :
    ∃ c, recomputeChallenge d ct p bs h cxb = .ok c := by
  have hvalid := List.all_eq_true.mp helements
  obtain ⟨E1, hE1⟩ := isElement_iff.mp (hvalid ct.e1 (by simp))
  obtain ⟨E2, hE2⟩ := isElement_iff.mp (hvalid ct.e2 (by simp))
  obtain ⟨C, hC⟩ := isElement_iff.mp (hvalid cxb (by simp))
  obtain ⟨H, hH⟩ := isElement_iff.mp (hvalid h (by simp))
  obtain ⟨c, rXb, rR, rOb, rfl⟩ := numbers_all_isScalar_iff.mp hnumbers
  exact ⟨_, recomputeChallenge_eq_ok.mpr
    ⟨_, verifierTranscript_eq hH hC hE1 hE2 c rXb rR rOb huid hbs hlabel, rfl⟩⟩

/-- Whatever is malformed in a ciphertext or in an element is judged. -/
theorem exists_outcome_judge (hct : ct.proof = p.toValue) (huid : Short d.uid) (hbs : Short bs)
    (hlabel : Short (ct.label.getD [])) (h cxb : Value) (draws : Draws) (trace : Trace) :
    ∃ b after, Run.outcome (judge (.given d) ct bs h cxb) draws trace = (.ok b, after) := by
  unfold judge
  by_cases helements : [ct.e1, ct.e2, cxb, h].all isElement = true
  · have hproof : proofOf ct = .ok p := proofOf_eq_ok.mpr hct
    by_cases hnumbers : p.numbers.all isScalar = true
    · obtain ⟨c, hc⟩ := exists_recomputeChallenge huid hbs hlabel helements hnumbers
      simp only [helements, hnumbers, hproof, hc, Bool.not_true, Bool.false_eq_true, if_false,
        Run.outcome_bind, Run.outcome_liftM, Slot.get_given]
      split_ifs
      · exact ⟨_, _, rfl⟩
      · exact ⟨_, _, rfl⟩
    · simp only [helements, hnumbers, hproof, Bool.not_true, Bool.false_eq_true, if_false,
        Run.outcome_bind, Run.outcome_liftM, Bool.not_false, if_true]
      exact ⟨_, _, rfl⟩
  · simp only [helements, Bool.not_false, if_true]
    exact ⟨_, _, rfl⟩

/-! ## The verifier decides -/

/-- An answer is exact: arguments are refused when the commitment is missing or the token has no
identifier and in no other case, everything else is answered, and what convinces is accepted. -/
structure Exact (d : Domain) (ct : Ciphertext) (p : Proof) (token h cxb : Value)
    (answer : Except Fault Bool) : Prop where
  refused_iff : (∃ why, answer = .error (.argument why)) ↔ cxb = .null ∨ ¬IsTokenId token
  answered_iff : (∃ b, answer = .ok b) ↔ ¬(cxb = .null ∨ ¬IsTokenId token)
  accepted_iff : answer = .ok true ↔
    ∃ bs, token = .bytes bs ∧ bs ≠ [] ∧ Convinces d ct p bs h cxb

/-- **Verification is an exact predicate**, total on everything but a missing commitment and what
is no identifier of a token. -/
theorem exact_verify (hct : ct.proof = p.toValue) (huid : Short d.uid)
    (htoken : ∀ bs, token = .bytes bs → Short bs) (hlabel : Short (ct.label.getD []))
    (key : RawPublicKey) (cxb : Value) (draws : Draws) (trace : Trace) :
    Exact d ct p token key.h cxb
      (Run.outcome (verify (.given d) (.given ct) token (.given key) cxb) draws trace).1 := by
  by_cases hrefused : cxb = .null ∨ ¬IsTokenId token
  · obtain ⟨why, hwhy⟩ := outcome_verify_refused hrefused d ct key draws trace
    rw [hwhy]
    refine ⟨⟨fun _ => hrefused, fun _ => ⟨why, rfl⟩⟩, ⟨?_, fun h => absurd hrefused h⟩, ?_⟩
    · rintro ⟨b, hb⟩
      cases hb
    · refine ⟨fun h => (nomatch h), ?_⟩
      rintro ⟨bs, hbs, hne, hconvinces⟩
      rcases hrefused with rfl | hid
      · exact absurd (hconvinces.elements .null (by simp)) Bool.false_ne_true
      · exact absurd ⟨bs, hbs, hne⟩ hid
  · obtain ⟨hcxb, hid⟩ := not_or.mp hrefused
    obtain ⟨bs, rfl, hne⟩ := not_not.mp hid
    have hshort := htoken bs rfl
    have htrue := outcome_verify_eq_true_iff hct huid hshort hlabel key cxb draws trace
    obtain ⟨b, after, hjudge⟩ := exists_outcome_judge hct huid hshort hlabel key.h cxb draws trace
    rw [outcome_verify_eq_judge hcxb hne, hjudge] at htrue ⊢
    refine ⟨⟨?_, fun h => absurd h hrefused⟩, ⟨fun _ => hrefused, fun _ => ⟨b, rfl⟩⟩, ?_⟩
    · rintro ⟨why, hwhy⟩
      cases hwhy
    · rw [htrue]
      constructor
      · intro h
        exact ⟨bs, rfl, h⟩
      · rintro ⟨bs', hbs, h⟩
        rwa [Value.bytes.inj hbs]

/-- A truth value in place of the challenge is no fault, it is answered with no. -/
theorem exact_verify_bool :
    ∃ ct p answer, ct = ⟨.text generator, .text generator, p.toValue, none⟩
      ∧ p = ⟨.bool true, .int 1, .int 2, .int 3⟩
      ∧ answer = (Run.outcome (verify (.given (Domain.ofGenerator .sha256)) (.given ct) (.bytes [1])
          (.given ⟨.text generator⟩) (.text generator)) (fun _ => 0) Trace.start).1
      ∧ Exact (Domain.ofGenerator .sha256) ct p (.bytes [1]) (.text generator) (.text generator)
          answer
      ∧ answer = .ok false := by
  let p : Proof := ⟨.bool true, .int 1, .int 2, .int 3⟩
  let ct : Ciphertext := ⟨.text generator, .text generator, p.toValue, none⟩
  refine ⟨ct, p, _, rfl, rfl, rfl, ?_⟩
  have hshort : ∀ bs, Value.bytes [1] = .bytes bs → Short bs := by
    intro bs h
    rw [← Value.bytes.inj h]
    decide
  have hexact : Exact (Domain.ofGenerator .sha256) ct p (.bytes [1]) (.text generator)
      (.text generator) _ :=
    exact_verify rfl (by decide) hshort (by decide) ⟨.text generator⟩ (.text generator)
      (fun _ => 0) Trace.start
  refine ⟨hexact, ?_⟩
  have hid : IsTokenId (.bytes [1]) := ⟨[1], rfl, List.cons_ne_nil 1 []⟩
  obtain ⟨b, hb⟩ := hexact.answered_iff.mpr (not_or.mpr ⟨Value.noConfusion, not_not.mpr hid⟩)
  cases b with
  | false => exact hb
  | true =>
    obtain ⟨_, _, _, hconvinces⟩ := hexact.accepted_iff.mp hb
    obtain ⟨n, -, hn⟩ := hconvinces.numbers (.bool true) List.mem_cons_self
    exact absurd hn Value.noConfusion

end Escrow
end VerifiableEscrow
