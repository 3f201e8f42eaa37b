import VerifiableEscrow.Proofs.Drawing
import VerifiableEscrow.Proofs.EncryptionContract
import VerifiableEscrow.Proofs.TwoRuns

/-!
# Secrets show neither in reports nor in failures

An encryption knows the attribute, the opening of its commitment and the exponents that it draws, a
decryption knows the auditor's key.  What they answer is meant to be made of these.  But whoever
sees the reports of an operation, how many numbers it takes, and whether and how it fails, should
not learn anything about them.

Checks come first, and they see the secrets only as exponents in range.  What could go wrong
afterwards has to do with the key and the commitment, which are public.  The texts that are computed
in between do depend on secrets.  They are texts of points, and all of these spell 48 bytes, also
when the key is off the subgroup of prime order and the points are too.  So whether a transcript
exists does not depend on which points they are.

* `Except.SameFate`: two results of which nobody can tell more than whether and how they failed;
* `power_related`, `product_related`, `challengeDigest_related`: two runs of the steps of a proof on
  different secrets;
* `prove_sameFate`, `decrypt_sameFate`: two proofs and two decryptions;
* `isPublic_of_encrypt`: what an encryption fails by, in terms of what everybody knows;
* `noninterference`: **encryptions and decryptions with different secrets look alike**.
-/

namespace VerifiableEscrow

open scoped PrimeField Member

/-- Two results are successes, whatever the answers, or the same failure. -/
abbrev Except.SameFate {ε α α' : Type} (x : Except ε α) (y : Except ε α') : Prop :=
  Except.Related (fun _ _ => True) x y

namespace Element

/-! ## Elements -/

/-- Two texts are texts of points, which may be any. -/
def AreCompressed (t t' : Text) : Prop := ∃ P Q : Point, t = P.compress ∧ t' = Q.compress

theorem power_related (t : Text) (x x' : Scalar) :
    Except.Related AreCompressed (power t x) (power t x') := by
  unfold power scale
  refine (Except.Related.of_refl (fun _ => rfl) (uncompress (.text t))).bind ?_
  rintro P _ rfl
  rw [exponent_toInt, exponent_toInt]
  exact .ok ⟨P.scale x, P.scale x', rfl, rfl⟩

theorem term_sameFate (v : Value) (x x' : Scalar) :
    Except.SameFate (term (v, .int x.toInt)) (term (v, .int x'.toInt)) := by
  unfold term
  refine (Except.Related.of_refl (fun _ => rfl) (uncompress v)).bind fun P P' _ => ?_
  rw [exponent_toInt, exponent_toInt]
  exact .ok trivial

/-- Combinations of the same elements with different exponents. -/
theorem product_related {pairs pairs' : List (Value × Scalar)}
    (h : List.Forall₂ (fun pair pair' => pair.1 = pair'.1) pairs pairs') :
    Except.Related AreCompressed (product pairs) (product pairs') := by
  rw [product_eq_mapM, product_eq_mapM]
  have hterms := h.imp fun pair pair' hpair => by
    have hterm := term_sameFate pair.1 pair.2 pair'.2
    nth_rewrite 2 [hpair] at hterm
    exact hterm
  exact (Except.Related.mapM hterms).bind fun terms terms' _ => .ok ⟨_, _, rfl, rfl⟩

theorem product_pair_related (v w : Value) (x y x' y' : Scalar) :
    Except.Related AreCompressed (product [(v, x), (w, y)]) (product [(v, x'), (w, y')]) :=
  product_related (.cons rfl (.cons rfl .nil))

end Element

namespace Escrow

open Element Transcript

/-! ## Challenges -/

/-- Two byte strings are equally long. -/
def AreEquallyLong (bs bs' : Bytes) : Prop := bs.length = bs'.length

/-- Two values spell equally many bytes, or they fail in the same way. -/
def SameLength (v w : Value) : Prop :=
  Except.Related AreEquallyLong (spacedBytes v) (spacedBytes w)

theorem SameLength.of_refl (v : Value) : SameLength v v :=
  Except.Related.of_refl (fun bs => show bs.length = bs.length from rfl) (spacedBytes v)

/-- The text of a point spells 48 bytes, whatever the point is. -/
theorem sameLength_of_areCompressed {t t' : Text} (h : AreCompressed t t') :
    SameLength (.text t) (.text t') := by
  obtain ⟨P, Q, hP, hQ⟩ := h
  have hlength : AreEquallyLong P.bytes Q.bytes := by
    rw [AreEquallyLong, Point.length_bytes, Point.length_bytes]
  have hbytes : spacedBytes (.text t) = .ok P.bytes := by rw [hP, spacedBytes_compress]
  have hbytes' : spacedBytes (.text t') = .ok Q.bytes := by rw [hQ, spacedBytes_compress]
  exact Except.Related.of_ok hbytes hbytes' hlength

/-- Whether an item can be framed is a matter of its length. -/
theorem framed_sameFate {bs bs' : Bytes} (h : AreEquallyLong bs bs') :
    Except.SameFate (framed (.bytes bs)) (framed (.bytes bs')) := by
  have hframe : Except.SameFate (frame bs) (frame bs') := by
    unfold frame
    rw [show bs.length = bs'.length from h]
    split_ifs
    · exact .ok trivial
    · exact .error Fault.oversized
  exact hframe

theorem challengeTranscript_sameFate (uid token label : Value) {vs ws : List Value}
    (h : List.Forall₂ SameLength vs ws) :
    Except.SameFate (challengeTranscript uid token vs label)
      (challengeTranscript uid token ws label) := by
  refine (Except.Related.mapM h).bind fun points points' hpoints => ?_
  have hsame : ∀ v, Except.SameFate (framed v) (framed v) := fun v =>
    Except.Related.of_refl (fun _ => trivial) (framed v)
  have hitems : List.Forall₂ (fun v w => Except.SameFate (framed v) (framed w))
      (uid :: token :: points.map Value.bytes ++ [label])
      (uid :: token :: points'.map Value.bytes ++ [label]) := by
    refine .cons (hsame uid) (.cons (hsame token) (List.rel_append ?_ (.cons (hsame label) .nil)))
    rw [List.forall₂_map_left_iff, List.forall₂_map_right_iff]
    exact hpoints.imp fun _ _ => framed_sameFate
  exact (Except.Related.mapM hitems).bind fun _ _ _ => .ok trivial

/-- Two byte strings are digests of one hash function. -/
def AreDigests (digest digest' : Bytes) : Prop :=
  ∃ (f : HashFunction) (m m' : Bytes), digest = f.digest m ∧ digest' = f.digest m'

theorem challengeDigest_related (context : Context) (token label : Value) {vs ws : List Value}
    (h : List.Forall₂ SameLength vs ws) :
    Except.Related AreDigests (challengeDigest context token vs label)
      (challengeDigest context token ws label) := by
  refine (challengeTranscript_sameFate context.uid token label h).bind fun m m' _ => ?_
  refine (Except.Related.of_refl (fun _ => rfl) context.hashFunction).bind ?_
  rintro f _ rfl
  exact .ok ⟨f, m, m', rfl, rfl⟩

/-- A digest is long enough to be a number. -/
theorem scalarOfDigest_sameFate {digest digest' : Bytes} (h : AreDigests digest digest') :
    Except.SameFate (scalarOfDigest digest) (scalarOfDigest digest') := by
  obtain ⟨f, m, m', rfl, rfl⟩ := h
  exact .of_ok (scalarOfDigest_digest f m) (scalarOfDigest_digest f m') trivial

/-! ## Proofs and decryptions -/

/-- Two openings are of the same commitment. -/
def SameCommitment (opening opening' : Opening) : Prop := opening.commitment = opening'.commitment

theorem prove_sameFate (d : Domain) (key : Slot RawPublicKey) (token : Bytes)
    {opening opening' : Opening} (hopening : SameCommitment opening opening')
    (label : Option Bytes) (b b' : Bundle) :
    Except.SameFate (prove d key token opening label b) (prove d key token opening' label b') := by
  unfold prove
  -- nothing depends on what the bases are
  generalize d.ge = ge
  generalize d.g = g
  refine (power_related ge b.r b'.r).bind fun e1 e1' he1 => ?_
  refine (Except.Related.of_refl (fun _ => rfl) key.get).bind ?_
  rintro k _ rfl
  dsimp only
  refine (product_pair_related _ _ _ _ _ _).bind fun e2 e2' he2 => ?_
  refine (product_pair_related _ _ _ _ _ _).bind fun cxbPrime cxbPrime' hcxbPrime => ?_
  refine (power_related ge b.rPrime b'.rPrime).bind fun e1Prime e1Prime' he1Prime => ?_
  refine (product_pair_related _ _ _ _ _ _).bind fun e2Prime e2Prime' he2Prime => ?_
  have helements : List.Forall₂ SameLength
      (k.h :: [opening.commitment, e1, e2, cxbPrime, e1Prime, e2Prime].map Value.text)
      (k.h :: [opening'.commitment, e1', e2', cxbPrime', e1Prime', e2Prime'].map Value.text) := by
    rw [show opening.commitment = opening'.commitment from hopening]
    exact .cons (.of_refl k.h) (.cons (.of_refl _) (.cons (sameLength_of_areCompressed he1)
      (.cons (sameLength_of_areCompressed he2) (.cons (sameLength_of_areCompressed hcxbPrime)
        (.cons (sameLength_of_areCompressed he1Prime)
          (.cons (sameLength_of_areCompressed he2Prime) .nil))))))
  refine (challengeDigest_related _ _ _ helements).bind fun digest digest' hdigest => ?_
  exact (scalarOfDigest_sameFate hdigest).bind fun _ _ _ => .ok trivial

/-- Elements that are not valid are refused before the key is used. -/
theorem decrypt_of_not_valid (d : Domain) {ct : Ciphertext}
    (h : ¬(isElement ct.e1 = true ∧ isElement ct.e2 = true)) (k : PrivateKey) :
    decrypt (.given d) (.given ct) (.given k.toRaw) = .error (.argument .ciphertextElements) := by
  unfold decrypt
  rw [if_neg (by simp)]
  refine (Except.bind_of_ok (Slot.get_given ct)).trans ?_
  rw [if_pos (by simpa [or_iff_not_imp_left] using h)]
  rfl

theorem decrypt_sameFate (d : Domain) (ct : Ciphertext) (k k' : PrivateKey) :
    Except.SameFate (decrypt (.given d) (.given ct) (.given k.toRaw))
      (decrypt (.given d) (.given ct) (.given k'.toRaw)) := by
  by_cases h : isElement ct.e1 = true ∧ isElement ct.e2 = true
  · obtain ⟨g1, h1⟩ := isElement_iff.mp h.1
    obtain ⟨g2, h2⟩ := isElement_iff.mp h.2
    exact .of_ok (decrypt_eq d k h1 h2 ct.proof ct.label) (decrypt_eq d k' h1 h2 ct.proof ct.label)
      trivial
  · rw [decrypt_of_not_valid d h k, decrypt_of_not_valid d h k']
    exact .error _

end Escrow

/-! ## Sources -/

/-- Two sources both draw, or both hand out a fixed bundle, which may be any. -/
inductive Source.SameKind : Source → Source → Prop
  | system : SameKind .system .system
  | fixed (b b' : Bundle) : SameKind (.fixed b) (.fixed b')

/-- Sources of one kind give a bundle each and take equally many numbers for it. -/
theorem Source.SameKind.alike_bundle {s s' : Source} (h : s.SameKind s') {draws draws' : Draws}
    (hrange : draws.InRange) (hrange' : draws'.InRange) (trace : Trace) :
    Run.Alike (fun _ _ => True) (Run.outcome s.bundle draws trace)
      (Run.outcome s'.bundle draws' trace) := by
  cases h with
  | system =>
    show Run.Alike _ (Run.outcome Bundle.generate draws trace)
      (Run.outcome Bundle.generate draws' trace)
    rw [Bundle.outcome_generate hrange, Bundle.outcome_generate hrange']
    exact ⟨.ok trivial, rfl⟩
  | fixed b b' => exact Run.Alike.of_pure trivial

/-- Every source gives a bundle. -/
theorem Source.exists_outcome_bundle (s : Source) {draws : Draws} (h : draws.InRange)
    (trace : Trace) : ∃ b between, Run.outcome s.bundle draws trace = (.ok b, between) := by
  cases s with
  | system => exact ⟨_, _, Bundle.outcome_generate h trace⟩
  | fixed b => exact ⟨b, trace, rfl⟩

/-! ## Failures -/

namespace Escrow

open Element Transcript

/-- A fault that is made of nothing but the key, the commitment and the place of the source. -/
inductive IsPublic (h cxb : Value) (source : Slot Source) : Fault → Prop
  /-- A refusal of an argument has its own wording. -/
  | refused (why : ArgumentFault) : IsPublic h cxb source (.argument why)
  /-- What stands in the place of the source is none. -/
  | source {fault : Fault} (hs : sourceOf source = .error fault) : IsPublic h cxb source fault
  /-- The key or the commitment cannot be read, or an item is too long. -/
  | proof {commitment : Text} {fault : Fault} (hcxb : cxb = .text commitment)
      (hfault : ProofFault h commitment fault) : IsPublic h cxb source fault

/-- **What an encryption fails by is made of nothing secret.** -/
theorem isPublic_of_encrypt {d : Domain} {key : RawPublicKey} {token cxb xb ob label : Value}
    {source : Slot Source} {draws : Draws} (hrange : draws.InRange) {trace : Trace} {fault : Fault}
    (h : (Run.outcome (encrypt (.given d) (.given key) token cxb xb ob label source)
      draws trace).1 = .error fault) : IsPublic key.h cxb source fault := by
  cases hcheck : checkArguments (.given d) (.given key) token cxb xb ob label with
  | error why =>
    obtain ⟨argument, rfl⟩ := (checkArguments_meets _ _ token cxb xb ob label).of_error hcheck
    rw [encrypt_eq, Run.outcome_bind, Run.outcome_liftM, hcheck] at h
    rw [← Except.error.inj h]
    exact .refused argument
  | ok a =>
    have ha : a.Of token cxb xb ob label := (checkArguments_eq_ok.mp hcheck).2.2
    cases hs : sourceOf source with
    | error why =>
      rw [encrypt_eq, Run.outcome_bind, Run.outcome_liftM, hcheck] at h
      dsimp only at h
      rw [proceed, Run.outcome_bind, Run.outcome_liftM, hs] at h
      rw [← Except.error.inj h]
      exact .source hs
    | ok s =>
      obtain ⟨b, between, hb⟩ := s.exists_outcome_bundle hrange trace
      rw [outcome_encrypt_of_checked ha hs hb] at h
      cases hprove : prove d (.given key) a.token a.opening a.label b with
      | ok ct =>
        rw [hprove] at h
        cases h
      | error why =>
        rw [hprove] at h
        rw [← Except.error.inj h]
        exact .proof ha.commitment (proofFault_of_prove hprove)

/-! ## Two runs with different secrets -/

/-- From outside, operations with different secrets look alike: they succeed or fail together, by
the same fault if they fail, and they leave the same trace, with the same reports and equally many
numbers taken. -/
structure Noninterfering (d : Domain) (draws draws' : Draws) : Prop where
  /-- The secrets of an encryption are the attribute, the opening, and the bundle, which is drawn or
  fixed.  The key, the token, the commitment and the label may be any. -/
  encryption : ∀ (key : RawPublicKey) (token cxb label : Value) (x o x' o' : Scalar)
    (source source' : Slot Source) (trace : Trace),
    Except.Related Source.SameKind (sourceOf source) (sourceOf source') →
      Run.Alike (fun _ _ => True)
        (Run.outcome (encrypt (.given d) (.given key) token cxb (.int x.toInt) (.int o.toInt) label
          source) draws trace)
        (Run.outcome (encrypt (.given d) (.given key) token cxb (.int x'.toInt) (.int o'.toInt)
          label source') draws' trace)
  /-- If they fail, the fault that they share is a refusal, or it is about the key, the commitment
  or the place of the source, and has nothing else to tell of. -/
  failure : ∀ (key : RawPublicKey) (token cxb label : Value) (x o : Scalar) (source : Slot Source)
    (trace : Trace) (fault : Fault),
    (Run.outcome (encrypt (.given d) (.given key) token cxb (.int x.toInt) (.int o.toInt) label
      source) draws trace).1 = .error fault → IsPublic key.h cxb source fault
  /-- The secret of a decryption is the key. -/
  decryption : ∀ (ct : Ciphertext) (k k' : PrivateKey) (trace : Trace),
    Run.Alike (fun _ _ => True)
      (Run.outcome (liftM (decrypt (.given d) (.given ct) (.given k.toRaw))) draws trace)
      (Run.outcome (liftM (decrypt (.given d) (.given ct) (.given k'.toRaw))) draws' trace)

/-- Exponents in range pass the check of an opening, whichever they are. -/
theorem checkOpening_related (cxb : Value) (x o x' o' : Scalar) :
    Except.Related SameCommitment (checkOpening cxb (.int x.toInt) (.int o.toInt))
      (checkOpening cxb (.int x'.toInt) (.int o'.toInt)) := by
  cases cxb with
  | text t =>
    have hread : ∀ x o : Scalar, checkOpening (.text t) (.int x.toInt) (.int o.toInt)
        = .ok ⟨t, x, o⟩ := fun x o => checkOpening_eq_ok.mpr ⟨rfl, rfl, rfl⟩
    exact .of_ok (hread x o) (hread x' o') rfl
  | _ => exact .error _

/-- **Secrets show neither in reports nor in failures**, for all streams of numbers in range. -/
theorem noninterference (d : Domain) {draws draws' : Draws} (hrange : draws.InRange)
    (hrange' : draws'.InRange) : Noninterfering d draws draws' where
  encryption key token cxb label x o x' o' source source' trace hsource := by
    have hnull : (cxb.isNull || (Value.int x.toInt).isNull || (Value.int o.toInt).isNull)
        = (cxb.isNull || (Value.int x'.toInt).isNull || (Value.int o'.toInt).isNull) := rfl
    have hcheck := checkArguments_related (.given d) key key token label hnull
      (checkOpening_related cxb x o x' o')
    refine alike_encrypt trace hcheck hsource
      (fun s s' between hs => hs.alike_bundle hrange hrange' between) fun a a' b b' ha _ => ?_
    rw [Checked.prove_given, Checked.prove_given, ← ha.token, ← ha.label]
    exact prove_sameFate d (.given key) a.token ha.opening a.label b b'
  failure key token cxb label x o source trace fault h := isPublic_of_encrypt hrange h
  decryption ct k k' trace := Run.Alike.of_liftM (decrypt_sameFate d ct k k')

/-- The stream of the greatest numbers. -/
theorem inRange_greatest : Draws.InRange fun _ => groupOrder - 2 := fun _ =>
  show groupOrder - 2 < groupOrder - 1 by decide

/-- The least and the greatest numbers. -/
theorem noninterference_extremes :
    Draws.InRange (fun _ => 0) ∧ Draws.InRange (fun _ => groupOrder - 2)
      ∧ Noninterfering (Domain.ofGenerator .sha256) (fun _ => 0) (fun _ => groupOrder - 2) :=
  ⟨Draws.inRange_zero, inRange_greatest, noninterference _ Draws.inRange_zero inRange_greatest⟩

end Escrow
end VerifiableEscrow
