import VerifiableEscrow.Proofs.Completeness

/-!
# A change that is accepted is a collision

Two accepted ciphertexts with one challenge were hashed to it.  If the two transcripts are
different, two different byte strings have digests that agree modulo the group order.  If they
are the same, their items are the same, so the two runs agree in everything that is an item; and
the responses, which are no items, are determined by the primed elements, which are: the one
for the randomness by the second equation, then the one for the attribute by the third, and at
last the one for the opening by the first.  This last step is where the second base must not be
the identity.

* `forall₂_encodes_unique`: items with the same bytes are values of the same members;
* `Accepts.exists_view`: an accepting run as members, exponents and items;
* `responses_unique`: the three equations, one after another;
* `agree_or_collide`: the dichotomy.
-/

namespace VerifiableEscrow
namespace Escrow

open Element Transcript
open scoped PrimeField Member

/-- Values that spell the same bytes spell the same member. -/
theorem encodes_unique_of_bytes {v v' : Value} {g g' : Member} {bs : Bytes}
    (hg : Encodes v g) (hg' : Encodes v' g') (hbs : spacedBytes v = .ok bs)
    (hbs' : spacedBytes v' = .ok bs) : g = g' := by
  have hbytes : g.point.bytes = bs := Except.ok.inj ((spacedBytes_of_uncompress hg).symm.trans hbs)
  have hbytes' : g'.point.bytes = bs :=
    Except.ok.inj ((spacedBytes_of_uncompress hg').symm.trans hbs')
  exact Member.compress_injective (congrArg Hex.encode (hbytes.trans hbytes'.symm))

/-- Lists of values that spell the same bytes spell the same members. -/
theorem forall₂_encodes_unique {vs vs' : List Value} {gs gs' : List Member} {points : List Bytes}
    (hgs : List.Forall₂ Encodes vs gs) (hgs' : List.Forall₂ Encodes vs' gs')
    (h : List.Forall₂ (fun v bs => spacedBytes v = .ok bs) vs points)
    (h' : List.Forall₂ (fun v bs => spacedBytes v = .ok bs) vs' points) : gs = gs' := by
  induction hgs generalizing vs' gs' points with
  | nil =>
    cases h
    cases h'
    cases hgs'
    rfl
  | cons hg _ ih =>
    cases h with
    | cons hbs hrest =>
      cases h' with
      | cons hbs' hrest' =>
        cases hgs' with
        | cons hg' hgs' =>
          rw [encodes_unique_of_bytes hg hg' hbs hbs', ih hgs' hrest hrest']

/-! ## An accepting run -/

/-- The members whose texts a verifier puts into the transcript. -/
noncomputable def verifierMembers (d : Domain) (H C E1 E2 : Member) (c rXb rR rOb : Scalar) :
    List Member :=
  [H, C, E1, E2, rXb • Member.generator + rOb • d.base + c • C,
    rR • Member.generator + c • E1, rXb • Member.generator + rR • H + c • E2]

/-- An accepting run by the members and exponents that it is about, and by the items of its
transcript. -/
structure View (d : Domain) (ct : Ciphertext) (token key cxb : Value) (p : Proof) (m : Bytes) where
  H : Member
  C : Member
  E1 : Member
  E2 : Member
  c : Scalar
  rXb : Scalar
  rR : Scalar
  rOb : Scalar
  elements : List Value
  items : ChallengeItems
  token_eq : token = .bytes items.token
  encodes_key : Encodes key H
  encodes_cxb : Encodes cxb C
  encodes_e1 : Encodes ct.e1 E1
  encodes_e2 : Encodes ct.e2 E2
  proof_eq : p = proofOfScalars c rXb rR rOb
  encodes_elements : List.Forall₂ Encodes elements (verifierMembers d H C E1 E2 c rXb rR rOb)
  items_of : items.Of (.bytes d.uid) token elements (Ciphertext.labelValue ct.label)
  short : ∀ bs ∈ items.toList, Short bs
  transcript : items.transcript = m

theorem Accepts.exists_view {d : Domain} {ct : Ciphertext} {token key cxb : Value} {bs m : Bytes}
    {p : Proof} (h : Accepts d ct token key cxb bs p m) :
    Nonempty (View d ct token key cxb p m) := by
  have hvalid := List.all_eq_true.mp h.elements
  obtain ⟨E1, hE1⟩ := isElement_iff.mp (hvalid ct.e1 (by simp))
  obtain ⟨E2, hE2⟩ := isElement_iff.mp (hvalid ct.e2 (by simp))
  obtain ⟨C, hC⟩ := isElement_iff.mp (hvalid cxb (by simp))
  obtain ⟨H, hH⟩ := isElement_iff.mp (hvalid key (by simp))
  obtain ⟨c, rXb, rR, rOb, rfl⟩ := numbers_all_isScalar_iff.mp h.numbers
  obtain ⟨primes, hprimes, hm⟩ := Except.bind_eq_ok.mp h.transcript
  have hrecompute := recompute_eq d hH hC hE1 hE2 c rXb rR rOb
  obtain rfl := Except.ok.inj (hrecompute.symm.trans hprimes)
  obtain ⟨items, hitems, hshort, htranscript⟩ := challengeTranscript_eq_ok.mp hm
  have htoken : token = .bytes items.token := by
    have hitem := hitems.token
    rw [h.token_eq] at hitem ⊢
    rw [Except.ok.inj hitem]
  refine ⟨⟨H, C, E1, E2, c, rXb, rR, rOb, _, items, htoken, hH, hC, hE1, hE2, rfl, ?_, hitems,
    hshort, htranscript⟩⟩
  exact .cons hH (.cons hC (.cons hE1 (.cons hE2 (.cons (encodes_compress _)
    (.cons (encodes_compress _) (.cons (encodes_compress _) .nil))))))

theorem View.uid_eq {d : Domain} {ct : Ciphertext} {token key cxb : Value} {p : Proof}
    {m : Bytes} (v : View d ct token key cxb p m) : d.uid = v.items.uid :=
  Except.ok.inj v.items_of.uid

theorem View.label_eq {d : Domain} {ct : Ciphertext} {token key cxb : Value} {p : Proof}
    {m : Bytes} (v : View d ct token key cxb p m) : ct.label.getD [] = v.items.label :=
  Except.ok.inj ((item_labelValue ct.label).symm.trans v.items_of.label)

/-! ## The responses -/

/-- A member that is not the identity is raised to different members by different exponents. -/
theorem smul_left_cancel {s t : Scalar} {g : Member} (hg : g ≠ 0) (h : s • g = t • g) : s = t :=
  smul_left_injective Scalar hg h

/-- The exponent of a pseudonym or of a key is determined by it. -/
theorem smul_generator_injective : Function.Injective fun x : Scalar => x • Member.generator :=
  fun _ _ h => smul_left_cancel Member.generator_ne_zero h

/-- For one challenge, the primed elements determine the responses. -/
theorem responses_unique {B H C E1 E2 : Member} {c rXb rR rOb rXb' rR' rOb' : Scalar}
    (hB : B ≠ 0)
    (hprime : rXb • Member.generator + rOb • B + c • C
      = rXb' • Member.generator + rOb' • B + c • C)
    (hprime1 : rR • Member.generator + c • E1 = rR' • Member.generator + c • E1)
    (hprime2 : rXb • Member.generator + rR • H + c • E2
      = rXb' • Member.generator + rR' • H + c • E2) :
    rXb = rXb' ∧ rR = rR' ∧ rOb = rOb' := by
  have hr : rR = rR' := smul_left_cancel Member.generator_ne_zero (add_right_cancel hprime1)
  rw [hr] at hprime2
  have hxb : rXb = rXb' := by
    have h := add_right_cancel (add_right_cancel hprime2)
    exact smul_left_cancel Member.generator_ne_zero h
  rw [hxb] at hprime
  exact ⟨hxb, hr, smul_left_cancel hB (add_left_cancel (add_right_cancel hprime))⟩

/-! ## The dichotomy -/

/-- Two runs agree in all that a verifier looks at: items that are bytes are the same, elements
are the same points, and a missing label counts as an empty one. -/
structure Agree (d d' : Domain) (ct ct' : Ciphertext) (token token' key key' cxb cxb' : Value)
    (p p' : Proof) : Prop where
  uid : d.uid = d'.uid
  token : token = token'
  label : ct.label.getD [] = ct'.label.getD []
  key : SamePoint key key'
  cxb : SamePoint cxb cxb'
  e1 : SamePoint ct.e1 ct'.e1
  e2 : SamePoint ct.e2 ct'.e2
  rXb : p.rXb = p'.rXb
  rR : p.rR = p'.rR
  rOb : p.rOb = p'.rOb

/-- Two byte strings collide when they differ and their digests agree modulo the group order. -/
def Collide (f : HashFunction) (m m' : Bytes) : Prop :=
  m ≠ m' ∧ BigEndian.toNat (f.digest m) % groupOrder = BigEndian.toNat (f.digest m') % groupOrder

/-- Runs with one transcript and one challenge agree. -/
theorem View.agree {d d' : Domain} {ct ct' : Ciphertext} {token token' key key' cxb cxb' : Value}
    {p p' : Proof} {m : Bytes} (v : View d ct token key cxb p m)
    (v' : View d' ct' token' key' cxb' p' m) (hbase : d.base = d'.base) (hne : d.base ≠ 0)
    (hc : p.c = p'.c) : Agree d d' ct ct' token token' key key' cxb cxb' p p' := by
  have hitems : v.items = v'.items :=
    ChallengeItems.transcript_injective v.short v'.short (v.transcript.trans v'.transcript.symm)
  have hmembers := forall₂_encodes_unique v.encodes_elements v'.encodes_elements
    v.items_of.points (hitems ▸ v'.items_of.points)
  simp only [verifierMembers, List.cons.injEq, and_true] at hmembers
  obtain ⟨hH, hC, hE1, hE2, hprime, hprime1, hprime2⟩ := hmembers
  have hchallenge : v.c = v'.c := by
    rw [v.proof_eq, v'.proof_eq] at hc
    exact Scalar.toInt_injective (Value.int.inj hc)
  rw [← hC, ← hchallenge, ← hbase] at hprime
  rw [← hE1, ← hchallenge] at hprime1
  rw [← hH, ← hE2, ← hchallenge] at hprime2
  obtain ⟨hxb, hr, hob⟩ := responses_unique hne hprime hprime1 hprime2
  refine ⟨?_, ?_, ?_, v.encodes_key.samePoint ?_, v.encodes_cxb.samePoint ?_,
    v.encodes_e1.samePoint ?_, v.encodes_e2.samePoint ?_, ?_, ?_, ?_⟩
  · rw [v.uid_eq, v'.uid_eq, hitems]
  · rw [v.token_eq, v'.token_eq, hitems]
  · rw [v.label_eq, v'.label_eq, hitems]
  · exact hH ▸ v'.encodes_key
  · exact hC ▸ v'.encodes_cxb
  · exact hE1 ▸ v'.encodes_e1
  · exact hE2 ▸ v'.encodes_e2
  · rw [v.proof_eq, v'.proof_eq, hxb]
    rfl
  · rw [v.proof_eq, v'.proof_eq, hr]
    rfl
  · rw [v.proof_eq, v'.proof_eq, hob]
    rfl

theorem toValue_injective : Function.Injective Proof.toValue := by
  intro p p' h
  have hview := congrArg Proof.ofValue? h
  rwa [Proof.ofValue?_toValue, Proof.ofValue?_toValue, Option.some.injEq] at hview

theorem val_challengeOf (d : Domain) (m : Bytes) :
    (challengeOf d m).toInt = ((BigEndian.toNat (d.hash.digest m) % groupOrder : ℕ) : ℤ) := by
  rw [challengeOf, Scalar.toInt_ofInt, Int.natCast_mod]

/-- **Tamper evidence.**  Two accepted ciphertexts with one challenge agree in all that a
verifier looks at, or their transcripts collide. -/
theorem agree_or_collide {d d' : Domain} {ct ct' : Ciphertext} {token token' cxb cxb' : Value}
    {key key' : RawPublicKey} {p p' : Proof} {B : Point} {draws draws' : Draws}
    {trace trace' after after' : Trace}
    (hB : uncompress (.text d.g1) = .ok B) (hB' : uncompress (.text d'.g1) = .ok B)
    (hne : B ≠ .identity) (hhash : d.hash = d'.hash)
    (hp : ct.proof = p.toValue) (hp' : ct'.proof = p'.toValue) (hc : p.c = p'.c)
    (hrun : Run.outcome (verify (.given d) (.given ct) token (.given key) cxb) draws trace
      = (.ok true, after))
    (hrun' : Run.outcome (verify (.given d') (.given ct') token' (.given key') cxb') draws' trace'
      = (.ok true, after')) :
    Agree d d' ct ct' token token' key.h key'.h cxb cxb' p p'
      ∨ ∃ m m', verifierTranscript d ct p token key.h cxb = .ok m
          ∧ verifierTranscript d' ct' p' token' key'.h cxb' = .ok m'
          ∧ Collide d.hash m m' := by
  obtain ⟨-, bs, q, m, haccepts⟩ := outcome_verify_eq_true.mp hrun
  obtain ⟨-, bs', q', m', haccepts'⟩ := outcome_verify_eq_true.mp hrun'
  obtain rfl : q = p := toValue_injective (haccepts.proof_eq.symm.trans hp)
  obtain rfl : q' = p' := toValue_injective (haccepts'.proof_eq.symm.trans hp')
  by_cases hm : m = m'
  · subst hm
    obtain ⟨v⟩ := haccepts.exists_view
    obtain ⟨v'⟩ := haccepts'.exists_view
    have hpoint : d.base.point = B := Except.ok.inj (d.encodes_g1.symm.trans hB)
    have hpoint' : d'.base.point = B := Except.ok.inj (d'.encodes_g1.symm.trans hB')
    have hbase : d.base = d'.base := Member.point_injective (hpoint.trans hpoint'.symm)
    refine .inl (v.agree v' hbase ?_ hc)
    intro hzero
    rw [hzero, Member.point_zero] at hpoint
    exact hne hpoint.symm
  · refine .inr ⟨m, m', haccepts.transcript, haccepts'.transcript, hm, ?_⟩
    rw [haccepts.challenge, haccepts'.challenge, Value.int.injEq, val_challengeOf,
      val_challengeOf, ← hhash] at hc
    exact Int.ofNat.inj hc

/-- A missing label replaced by an empty one is accepted with the same proof. -/
theorem agree_or_collide_label :
    ∃ ct ct' cxb key p, ct.label = none ∧ ct'.label = some []
      ∧ (Agree (Domain.ofGenerator .sha256) (Domain.ofGenerator .sha256) ct ct' (.bytes [1])
          (.bytes [1]) key key cxb cxb p p
        ∨ ∃ m m',
            verifierTranscript (Domain.ofGenerator .sha256) ct p (.bytes [1]) key cxb = .ok m
            ∧ verifierTranscript (Domain.ofGenerator .sha256) ct' p (.bytes [1]) key cxb = .ok m'
            ∧ Collide .sha256 m m') := by
  obtain ⟨e1, e2, cxb, p, m, h⟩ := exists_accepts (Domain.ofGenerator .sha256) none
    Member.generator 3 5 ⟨1, 0, 0, 0⟩ (List.cons_ne_nil 1 []) (by decide) (by decide) (by decide)
  have hpoint : Member.generator.point ≠ .identity := by
    rw [Member.point_generator]
    decide
  exact ⟨_, _, _, _, _, rfl, rfl, agree_or_collide encodes_generator encodes_generator hpoint rfl
    rfl rfl rfl (h.outcome_verify (fun _ => 0) Trace.start)
    (h.label_some_nil.outcome_verify (fun _ => 0) Trace.start)⟩

end Escrow
end VerifiableEscrow
