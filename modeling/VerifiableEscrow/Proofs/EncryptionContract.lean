import VerifiableEscrow.Proofs.EncryptionChecks

/-!
# What an encryption does with malformed arguments

Arguments should either pass the checks, and then there is a ciphertext, or be refused before
anything else happens.  The checks see to that for the token, the opening and the label.  For the
auditor's key and the commitment they only ask for text.  What the text says is found out later,
when the source has given its bundle: the key when the second element is computed, the
commitment when its digits are written into the transcript.  A fault that occurs there is no
refusal, and the bundle is spent.

The contract of an encryption is therefore a case distinction, made by the first step that a
malformed argument does not survive.

* `exists_prove`: with a key that decodes and a commitment made of digits there is a proof;
* `prove_of_undecodable`, `prove_of_not_hex`: the faults of the other texts;
* `proofFault_of_prove`: besides these, a proof can only fail at an item that is too long;
* `contract`: **the four ways in which an encryption ends**;
* `outcome_encrypt_emptyKey`: a key that is no element costs a bundle.
-/

namespace VerifiableEscrow

open scoped PrimeField Member

namespace Element

/-- What decodes spells bytes, and not many. -/
theorem exists_bytes_of_uncompress {v : Value} {P : Point} (h : uncompress v = .ok P) :
    ∃ bs, Transcript.spacedBytes v = .ok bs ∧ Transcript.Short bs := by
  refine ⟨P.bytes, spacedBytes_of_uncompress h, ?_⟩
  rw [Transcript.Short, Point.length_bytes]
  decide

theorem spacedBytes_compress (P : Point) :
    Transcript.spacedBytes (.text P.compress) = .ok P.bytes := by
  simp only [Transcript.spacedBytes, Point.decodeSpaced?_compress]

/-- Points that decode have a combination, whether they are members or not. -/
theorem exists_product {pairs : List (Value × Scalar)}
    (h : ∀ pair ∈ pairs, ∃ P, uncompress pair.1 = .ok P) :
    ∃ Q : Point, product pairs = .ok Q.compress := by
  have hterms : ∀ pair ∈ pairs, ∃ t, term (pair.1, .int pair.2.toInt) = .ok t := by
    intro pair hpair
    obtain ⟨P, hP⟩ := h pair hpair
    exact ⟨(P, pair.2), by rw [term, hP, exponent_toInt]; rfl⟩
  obtain ⟨terms, hmap⟩ := Except.exists_mapM_eq_ok hterms
  exact ⟨Point.combination terms, by rw [product_eq_mapM, hmap]; rfl⟩

/-- A combination fails like its first point. -/
theorem product_cons_error {v : Value} {x : Scalar} {rest : List (Value × Scalar)} {fault : Fault}
    (h : uncompress v = .error fault) : product ((v, x) :: rest) = .error fault := by
  rw [product_eq_mapM, List.mapM_cons, term, h]
  rfl

end Element

namespace Escrow

open Element Transcript

/-! ## Proving -/

section Proving

variable {d : Domain} {key : RawPublicKey} {token : Bytes} {opening : Opening}
  {label : Option Bytes} {b : Bundle}

variable (d token opening label b) in
/-- With a key that decodes, a proof is made of a challenge on texts of points. -/
theorem exists_prove_eq_bind {P : Point} (hkey : uncompress key.h = .ok P) :
    ∃ (e2 : Text) (points : List Point), product [(key.h, b.r), (.text d.ge, opening.x)] = .ok e2
      ∧ prove d (.given key) token opening label b
        = (challengeDigest (Context.ofIssuer d.issuer) (.bytes token)
            (key.h :: .text opening.commitment :: points.map fun Q => .text Q.compress)
            (Ciphertext.labelValue label) >>= scalarOfDigest) >>= fun c =>
          .ok ⟨.text (b.r • Member.generator).point.compress, .text e2,
            (honestProof opening b c).toValue, label⟩ := by
  have hge : uncompress (.text d.ge) = .ok Member.generator.point := d.encodes_ge
  have hg : uncompress (.text d.g) = .ok Member.generator.point := d.encodes_g
  have hg1 : uncompress (.text d.g1) = .ok d.base.point := d.encodes_g1
  obtain ⟨E2, he2⟩ : ∃ Q : Point, product [(key.h, b.r), (.text d.ge, opening.x)]
      = .ok Q.compress := exists_product (by simp [hkey, hge])
  obtain ⟨CxbPrime, hcxbPrime⟩ : ∃ Q : Point,
      product [(.text d.g, b.xbPrime), (.text d.g1, b.obPrime)] = .ok Q.compress :=
    exists_product (by simp [hg, hg1])
  obtain ⟨E2Prime, he2Prime⟩ : ∃ Q : Point,
      product [(.text d.ge, b.xbPrime), (key.h, b.rPrime)] = .ok Q.compress :=
    exists_product (by simp [hkey, hge])
  refine ⟨E2.compress, [(b.r • Member.generator).point, E2, CxbPrime,
    (b.rPrime • Member.generator).point, E2Prime], he2, ?_⟩
  exact prove_eq_bind (power_eq b.r d.encodes_ge) he2 hcxbPrime (power_eq b.rPrime d.encodes_ge)
    he2Prime

/-- A key, a commitment and texts of points are read as bytes. -/
theorem forall₂_spacedBytes {v : Value} {commitment : Text} {vbs bs : Bytes} (points : List Point)
    (hv : spacedBytes v = .ok vbs) (hcommitment : Hex.decodeSpaced? commitment = some bs) :
    List.Forall₂ (fun w bs => spacedBytes w = .ok bs)
      (v :: .text commitment :: points.map fun Q => .text Q.compress)
      (vbs :: bs :: points.map Point.bytes) := by
  refine .cons hv (.cons (by simp only [spacedBytes, hcommitment]) ?_)
  rw [List.forall₂_map_left_iff, List.forall₂_map_right_iff]
  exact List.forall₂_same.mpr fun Q _ => spacedBytes_compress Q

/-- Texts of points and short items have a transcript. -/
theorem exists_transcript_of_points {v : Value} {commitment : Text} {bs : Bytes}
    (points : List Point) (hv : ∃ bs, spacedBytes v = .ok bs ∧ Short bs)
    (hcommitment : Hex.decodeSpaced? commitment = some bs) (huid : Short d.uid)
    (htoken : Short token) (hbs : Short bs) (hlabel : Short (label.getD [])) :
    ∃ m, challengeTranscript (.bytes d.uid) (.bytes token)
      (v :: .text commitment :: points.map fun Q => .text Q.compress)
      (Ciphertext.labelValue label) = .ok m := by
  obtain ⟨vbs, hvbs, hvshort⟩ := hv
  refine ⟨_, challengeTranscript_eq_ok.mpr
    ⟨⟨d.uid, token, vbs :: bs :: points.map Point.bytes, label.getD []⟩, ⟨rfl, rfl, ?_,
      item_labelValue label⟩, ?_, rfl⟩⟩
  · exact forall₂_spacedBytes points hvbs hcommitment
  · intro item hitem
    simp only [ChallengeItems.toList, List.cons_append, List.mem_cons, List.mem_append,
      List.mem_map, List.not_mem_nil, or_false] at hitem
    rcases hitem with rfl | rfl | rfl | rfl | ⟨Q, -, rfl⟩ | rfl
    · exact huid
    · exact htoken
    · exact hvshort
    · exact hbs
    · exact short_bytes Q
    · exact hlabel

/-- With a key that decodes and a commitment made of digits there is a proof. -/
theorem exists_prove {P : Point} {bs : Bytes} (hkey : uncompress key.h = .ok P)
    (hcommitment : Hex.decodeSpaced? opening.commitment = some bs) (huid : Short d.uid)
    (htoken : Short token) (hbs : Short bs) (hlabel : Short (label.getD [])) :
    ∃ e2 proof, product [(key.h, b.r), (.text d.ge, opening.x)] = .ok e2
      ∧ prove d (.given key) token opening label b
        = .ok ⟨.text (b.r • Member.generator).point.compress, .text e2, proof, label⟩ := by
  obtain ⟨e2, points, he2, hprove⟩ := exists_prove_eq_bind d token opening label b hkey
  obtain ⟨m, hm⟩ := exists_transcript_of_points points (exists_bytes_of_uncompress hkey)
    hcommitment huid htoken hbs hlabel
  refine ⟨e2, (honestProof opening b (challengeOf d m)).toValue, he2, hprove.trans ?_⟩
  exact Except.bind_of_ok (challengeDigest_bind_eq_ok.mpr ⟨m, hm, rfl⟩)

/-- A key that does not decode fails with the second element. -/
theorem prove_of_undecodable {fault : Fault} (hkey : uncompress key.h = .error fault) :
    prove d (.given key) token opening label b = .error fault := by
  have he1 := power_eq b.r d.encodes_ge
  unfold prove
  refine (Except.bind_of_ok he1).trans ((Except.bind_of_ok (Slot.get_given key)).trans ?_)
  exact Except.bind_of_error (product_cons_error hkey)

/-- A commitment that is not made of digits fails in the transcript. -/
theorem prove_of_not_hex {P : Point} (hkey : uncompress key.h = .ok P)
    (hcommitment : Hex.decodeSpaced? opening.commitment = none) :
    prove d (.given key) token opening label b = .error (.notHex (t := opening.commitment)) := by
  obtain ⟨e2, points, -, hprove⟩ := exists_prove_eq_bind d token opening label b hkey
  obtain ⟨bs, hbs, -⟩ := exists_bytes_of_uncompress hkey
  have hcommitment : spacedBytes (.text opening.commitment)
      = .error (.notHex (t := opening.commitment)) := by
    simp only [spacedBytes, hcommitment]
  rw [hprove]
  have hpoints : (key.h :: .text opening.commitment :: points.map fun Q =>
      .text Q.compress).mapM spacedBytes = .error (.notHex (t := opening.commitment)) := by
    rw [List.mapM_cons, List.mapM_cons]
    exact (Except.bind_of_ok hbs).trans (Except.bind_of_error (Except.bind_of_error hcommitment))
  have hdigest : challengeDigest (Context.ofIssuer d.issuer) (.bytes token)
      (key.h :: .text opening.commitment :: points.map fun Q => .text Q.compress)
      (Ciphertext.labelValue label) = .error (.notHex (t := opening.commitment)) :=
    Except.bind_of_error (Except.bind_of_error hpoints)
  exact Except.bind_of_error (Except.bind_of_error hdigest)

/-- What can be read as bytes has a transcript, or some item of it is too long. -/
theorem challengeTranscript_meets {vs : List Value} {bss : List Bytes} (uid token : Bytes)
    (label : Option Bytes) (h : List.Forall₂ (fun v bs => spacedBytes v = .ok bs) vs bss) :
    Except.Meets (challengeTranscript (.bytes uid) (.bytes token) vs (Ciphertext.labelValue label))
      (fun _ => True) (· = .oversized) := by
  have hframed : ∀ v bs, item v = .ok bs →
      Except.Meets (framed v) (fun _ => True) (· = .oversized) := by
    intro v bs hv
    rw [framed, Except.bind_of_ok hv, frame]
    split_ifs
    · exact trivial
    · rfl
  unfold challengeTranscript
  rw [Except.bind_of_ok (Except.mapM_eq_ok.mpr h)]
  refine Except.Meets.bind (Except.Meets.mapM fun v hv => ?_) fun _ _ => trivial
  simp only [List.cons_append, List.mem_cons, List.mem_append, List.mem_map, List.not_mem_nil,
    or_false] at hv
  rcases hv with rfl | rfl | ⟨bs, -, rfl⟩ | rfl
  · exact hframed _ uid rfl
  · exact hframed _ token rfl
  · exact hframed _ bs rfl
  · exact hframed _ _ (item_labelValue label)

variable (d token label) in
/-- The same goes for a challenge, which is made of a transcript. -/
theorem challenge_meets {vs : List Value} {bss : List Bytes}
    (h : List.Forall₂ (fun v bs => spacedBytes v = .ok bs) vs bss) :
    Except.Meets (challengeDigest (Context.ofIssuer d.issuer) (.bytes token) vs
      (Ciphertext.labelValue label) >>= scalarOfDigest) (fun _ => True) (· = .oversized) := by
  cases hm : challengeTranscript (.bytes d.uid) (.bytes token) vs
      (Ciphertext.labelValue label) with
  | ok m =>
    rw [challengeDigest_bind_eq_ok.mpr ⟨m, hm, rfl⟩]
    exact trivial
  | error fault =>
    have hdigest : challengeDigest (Context.ofIssuer d.issuer) (.bytes token) vs
        (Ciphertext.labelValue label) = .error fault := Except.bind_of_error hm
    rw [Except.bind_of_error hdigest]
    exact (challengeTranscript_meets d.uid token label h).of_error hm

/-- What a proof can fail by. -/
inductive ProofFault (h : Value) (commitment : Text) : Fault → Prop
  /-- The key does not decode, for the reason that its reader gives. -/
  | key {fault : Fault} (hkey : uncompress h = .error fault) : ProofFault h commitment fault
  /-- The commitment is not made of digits. -/
  | commitment : ProofFault h commitment (.notHex (t := commitment))
  /-- An item is too long for its frame. -/
  | oversized : ProofFault h commitment .oversized

/-- **A proof fails by its key, by its commitment or by a length**, and by nothing else. -/
theorem proofFault_of_prove {fault : Fault}
    (h : prove d (.given key) token opening label b = .error fault) :
    ProofFault key.h opening.commitment fault := by
  cases hkey : uncompress key.h with
  | error why =>
    rw [prove_of_undecodable hkey] at h
    rw [← Except.error.inj h]
    exact .key hkey
  | ok P =>
    cases hcommitment : Hex.decodeSpaced? opening.commitment with
    | none =>
      rw [prove_of_not_hex hkey hcommitment] at h
      rw [← Except.error.inj h]
      exact .commitment
    | some bs =>
      obtain ⟨e2, points, -, hprove⟩ := exists_prove_eq_bind d token opening label b hkey
      obtain ⟨vbs, hvbs, -⟩ := exists_bytes_of_uncompress hkey
      rw [hprove, Except.bind_ok_eq_error] at h
      have hchallenge := challenge_meets d token label
        (forall₂_spacedBytes points hvbs hcommitment)
      rw [hchallenge.of_error h]
      exact .oversized

end Proving

/-! ## The contract -/

/-- The four ways in which an encryption ends, told apart by the arguments alone.  Where the
checks pass, the source gives its bundle first, which leaves the trace `between`. -/
structure Contract (d : Domain) (key : PublicKey) (token cxb xb ob label : Value)
    (source : Slot Source) (draws : Draws) (trace between : Trace) : Prop where
  /-- What the checks do not pass is refused, and nothing has happened: whatever the domain, the
  key, the source and the stream are, the answer is the same. -/
  refused : (∀ a : Checked, ¬a.Of token cxb xb ob label) → ∃ why, ∀ d key source draws trace,
    Run.outcome (encrypt (.given d) (.given key) token cxb xb ob label source) draws trace
      = (.error (.argument why), trace)
  /-- A key that does not decode is no refusal, and it costs the bundle. -/
  undecodable : ∀ a : Checked, a.Of token cxb xb ob label → ∀ fault,
    Point.uncompress key.h = .error fault → ¬fault.IsRefusal
      ∧ Run.outcome (encrypt (.given d) (.given key.toRaw) token cxb xb ob label source) draws trace
        = (.error fault, between)
  /-- Neither is a commitment that is not made of digits; its text is what the fault is about. -/
  notHex : ∀ a : Checked, a.Of token cxb xb ob label → ∀ P, Point.uncompress key.h = .ok P →
    Hex.decodeSpaced? a.opening.commitment = none →
    Run.outcome (encrypt (.given d) (.given key.toRaw) token cxb xb ob label source) draws trace
      = (.error (.notHex (t := a.opening.commitment)), between)
  /-- All other arguments give a ciphertext.  Its first element is valid, and so is the second if
  the key is. -/
  encrypted : ∀ a : Checked, a.Of token cxb xb ob label → ∀ P, Point.uncompress key.h = .ok P →
    ∀ bs, Hex.decodeSpaced? a.opening.commitment = some bs → ∃ ct after,
      Run.outcome (encrypt (.given d) (.given key.toRaw) token cxb xb ob label source) draws trace
        = (.ok ct, after)
      ∧ isElement ct.e1 = true ∧ (isElement (.text key.h) = true → isElement ct.e2 = true)

/-- Checked arguments leave an encryption to the proof. -/
theorem outcome_encrypt_of_checked {d : Domain} {key : RawPublicKey}
    {token cxb xb ob label : Value} {a : Checked} {source : Slot Source} {s : Source} {b : Bundle}
    {draws : Draws} {trace between : Trace} (ha : a.Of token cxb xb ob label)
    (hs : sourceOf source = .ok s) (hb : Run.outcome s.bundle draws trace = (.ok b, between)) :
    Run.outcome (encrypt (.given d) (.given key) token cxb xb ob label source) draws trace
      = conclude a.token between (prove d (.given key) a.token a.opening a.label b) := by
  have hcheck : checkArguments (.given d) (.given key) token cxb xb ob label = .ok a :=
    checkArguments_eq_ok.mpr ⟨rfl, rfl, ha⟩
  rw [encrypt_eq, Run.outcome_bind, Run.outcome_liftM, hcheck]
  dsimp only
  rw [outcome_proceed hs hb, Checked.prove_given]

/-- **An encryption ends in one of four ways.**  Only what the checks find is refused before the
source is asked for a bundle. -/
theorem contract (d : Domain) (key : PublicKey) {token cxb xb ob label : Value}
    {source : Slot Source} {s : Source} {b : Bundle} {draws : Draws} {trace between : Trace}
    (huid : Short d.uid) (htoken : ∀ bs, item token = .ok bs → Short bs)
    (hcxb : ∀ bs, spacedBytes cxb = .ok bs → Short bs)
    (hlabel : ∀ bs, item label = .ok bs → Short bs) (hs : sourceOf source = .ok s)
    (hb : Run.outcome s.bundle draws trace = (.ok b, between)) :
    Contract d key token cxb xb ob label source draws trace between where
  refused hnone := by
    have hfound : ∀ d key a, checkArguments (.given d) (.given key) token cxb xb ob label ≠ .ok a :=
      fun d key a h => hnone a (checkArguments_eq_ok.mp h).2.2
    -- the checks do not look into the domain and the key, so their answer is one for all
    obtain ⟨why, hwhy⟩ : ∃ why, ∀ d key,
        checkArguments (.given d) (.given key) token cxb xb ob label = .error (.argument why) := by
      cases h : checkArguments (.given d) (.given key.toRaw) token cxb xb ob label with
      | ok a => exact absurd h (hfound d key.toRaw a)
      | error fault =>
        obtain ⟨why, rfl⟩ := (checkArguments_meets _ _ token cxb xb ob label).of_error h
        exact ⟨why, fun _ _ => h⟩
    refine ⟨why, fun d key source draws trace => ?_⟩
    rw [encrypt_eq, Run.outcome_bind, Run.outcome_liftM, hwhy]
  undecodable a ha fault hkey := by
    refine ⟨(uncompress_unrefusing (.text key.h)).of_error hkey, ?_⟩
    have hprove : prove d (.given key.toRaw) a.token a.opening a.label b = .error fault :=
      prove_of_undecodable hkey
    rw [outcome_encrypt_of_checked ha hs hb, hprove, conclude]
  notHex a ha P hkey hcommitment := by
    have hprove : prove d (.given key.toRaw) a.token a.opening a.label b
        = .error (.notHex (t := a.opening.commitment)) :=
      prove_of_not_hex (show uncompress key.toRaw.h = .ok P from hkey) hcommitment
    rw [outcome_encrypt_of_checked ha hs hb, hprove, conclude]
  encrypted a ha P hkey bs hcommitment := by
    have hshort : Short bs := by
      refine hcxb bs ?_
      rw [ha.commitment]
      simp only [spacedBytes, hcommitment]
    have htoken : Short a.token := htoken a.token (by rw [ha.token, item])
    have hlabel : Short (a.label.getD []) :=
      hlabel _ (by rw [ha.label, item_labelValue])
    obtain ⟨e2, proof, he2, hprove⟩ := exists_prove (b := b)
      (show uncompress key.toRaw.h = .ok P from hkey) hcommitment huid htoken hshort hlabel
    rw [outcome_encrypt_of_checked ha hs hb, hprove]
    refine ⟨_, _, rfl, isElement_iff.mpr ⟨_, encodes_compress _⟩, fun hvalid => ?_⟩
    obtain ⟨H, hH⟩ := isElement_iff.mp hvalid
    have hpairs : List.Forall₂ (fun pair t => Encodes pair.1 t.1 ∧ pair.2 = t.2)
        [(key.toRaw.h, b.r), (.text d.ge, a.opening.x)]
        [(H, b.r), (Member.generator, a.opening.x)] :=
      .cons ⟨hH, rfl⟩ (.cons ⟨d.encodes_ge, rfl⟩ .nil)
    rw [product_eq hpairs] at he2
    rw [← Except.ok.inj he2]
    exact isElement_iff.mpr ⟨_, encodes_compress _⟩

/-- The arguments of an encryption of the number one under the generator as its commitment. -/
theorem checked_of_ones :
    Checked.Of ⟨[1], ⟨Element.generator, 1, 1⟩, none⟩ (.bytes [1]) (.text Element.generator)
      (.int 1) (.int 1) .null :=
  ⟨rfl, List.cons_ne_nil 1 [], rfl, rfl, rfl, rfl⟩

/-- Where the generator is the key and the commitment, there is a ciphertext of valid elements. -/
theorem contract_generator :
    ∃ ct after, Run.outcome (encrypt (.given (Domain.ofGenerator .sha256))
        (.given (PublicKey.toRaw ⟨Element.generator⟩)) (.bytes [1]) (.text Element.generator)
        (.int 1) (.int 1) .null (.given (.fixed ⟨0, 0, 0, 0⟩))) (fun _ => 0) Trace.start
        = (.ok ct, after)
      ∧ isElement ct.e1 = true ∧ isElement ct.e2 = true := by
  have hbytes : Hex.decodeSpaced? Element.generator = some Point.generator.bytes :=
    Point.decodeSpaced?_compress Point.generator
  have hcontract : Contract (Domain.ofGenerator .sha256) ⟨Element.generator⟩ (.bytes [1])
      (.text Element.generator) (.int 1) (.int 1) .null (.given (.fixed ⟨0, 0, 0, 0⟩))
      (fun _ => 0) Trace.start Trace.start := by
    refine contract _ _ (by decide) (fun bs h => ?_) (fun bs h => ?_) (fun bs h => ?_) rfl rfl
    · cases h
      decide
    · rw [spacedBytes, hbytes] at h
      cases h
      exact short_bytes Point.generator
    · cases h
      decide
  obtain ⟨ct, after, houtcome, he1, he2⟩ :=
    hcontract.encrypted _ checked_of_ones _ encodes_generator _ hbytes
  exact ⟨ct, after, houtcome, he1, he2 (isElement_iff.mpr ⟨_, encodes_generator⟩)⟩

/-- **A key that is no element costs a bundle.**  The empty text passes for a key, and what its
reader says of it is no refusal of an argument. -/
theorem outcome_encrypt_emptyKey :
    ∃ fault, Run.outcome (encrypt (.given (Domain.ofGenerator .sha256))
        (.given (PublicKey.toRaw ⟨[]⟩)) (.bytes [1]) (.text Element.generator) (.int 1) (.int 1)
        .null .missing) (fun _ => 0) Trace.start
        = (.error fault, { Trace.start with drawn := 4 })
      ∧ ∀ why, fault ≠ .argument why := by
  refine ⟨.element .length, ?_, fun why h => nomatch h⟩
  have hbundle : Run.outcome Source.system.bundle (fun _ => 0) Trace.start
      = (.ok ⟨1, 1, 1, 1⟩, { Trace.start with drawn := 4 }) := rfl
  have hkey : prove (Domain.ofGenerator .sha256) (.given (PublicKey.toRaw ⟨[]⟩)) [1]
      ⟨Element.generator, 1, 1⟩ none ⟨1, 1, 1, 1⟩ = .error (.element .length) :=
    prove_of_undecodable rfl
  rw [outcome_encrypt_of_checked checked_of_ones rfl hbundle, hkey, conclude]

end Escrow
end VerifiableEscrow
