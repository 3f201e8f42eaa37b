import VerifiableEscrow.Proofs.EscrowAlgebra
import VerifiableEscrow.Proofs.WireContents
import VerifiableEscrow.Proofs.WireFields

/-!
# Objects and the contents that ship them

An object is sent by writing its wire form, and it arrives by reading, packing and opening it.
What the carriers do in between is settled elsewhere.  What is left is a property of the object
and of its contents, whoever carries them: the contents are written, their fields are Base64
text, and opening them gives the object (`Ships`).

* `Sendable`: the objects that can be sent, and the issuers they can be opened for;
* `arrival`: what arrives where an object was sent, the object itself with one exception;
* `exists_ships`: every object that can be sent has contents that ship it.
-/

namespace VerifiableEscrow

open scoped PrimeField Member

namespace Wire

/-! ## What can be sent -/

/-- The objects that can be sent, and the issuers for whom they can be opened: elements are
valid and in lowercase, the numbers of a proof are exponents, and a domain goes to its own
issuer. -/
inductive Sendable (issuer : Issuer) : Form → Value → Prop
  | domain {d : Domain} (own : issuer = d.issuer) :
      Sendable issuer .domainParameters d.toValue
  | publicKey {k : PublicKey} {uid : Bytes} (identified : issuer.uid = .bytes uid)
      (key : IsCompressed k.h) : Sendable issuer .publicKey k.toValue
  | privateKey {k : PrivateKey} {uid : Bytes} (identified : issuer.uid = .bytes uid) :
      Sendable issuer .privateKey k.toValue
  | proof {p : Proof} {uid : Bytes} (identified : issuer.uid = .bytes uid)
      (numbers : p.numbers.all Element.isScalar = true) : Sendable issuer .proof p.toValue
  | ciphertext {e1 e2 : Text} {p : Proof} {label : Option Bytes} {uid : Bytes}
      (identified : issuer.uid = .bytes uid) (first : IsCompressed e1) (second : IsCompressed e2)
      (numbers : p.numbers.all Element.isScalar = true) :
      Sendable issuer .ciphertext (Ciphertext.toValue ⟨.text e1, .text e2, p.toValue, label⟩)

/-- What arrives where an object was sent.  A ciphertext whose label is the sentinel arrives
without a label. -/
def arrival : Value → Value
  | .record .ciphertext [e1, e2, proof, .bytes label] =>
      .record .ciphertext [e1, e2, proof, if label = sentinel then .null else .bytes label]
  | v => v

/-- The byte strings of an object whose length nothing else bounds. -/
def byteStrings : Value → List Bytes
  | .record .domainParameters [.record .issuerParameters (.bytes uid :: _)] => [uid]
  | .record .ciphertext [_, _, _, .bytes label] => [label]
  | _ => []

/-- Every byte string of an object has a length that can be counted. -/
def Countable (v : Value) : Prop := ∀ bs ∈ byteStrings v, bs.length < Value.countLimit

/-! ## Opening -/

/-- A text that is the Base64 of a byte string, whose length can be counted if an object's can. -/
def IsFieldOf (v : Value) (t : Text) : Prop :=
  ∃ bs, t = Base64.encode bs ∧ (Countable v → bs.length < Value.countLimit)

theorem isFieldOf_of_length_le {v : Value} {bs : Bytes} (h : bs.length ≤ 48) :
    IsFieldOf v (Base64.encode bs) :=
  ⟨bs, rfl, fun _ => Nat.lt_of_le_of_lt h (by decide)⟩

/-- Contents that ship an object to an issuer. -/
structure Ships (issuer : Issuer) (v : Value) (c : Contents) : Prop where
  written : ofValue v = .ok c.toValue
  fresh : c.Fresh
  outer : ∀ f ∈ c.outerTexts, IsFieldOf v f.2
  inner : ∀ f ∈ c.innerTexts, IsFieldOf v f.2
  opened : (openContents c issuer).outcome = .ok (arrival v)

/-- For an issuer with an identifier an attempt ends as it has been decided: the report does not
fail. -/
theorem outcome_finish {σ α : Type} {issuer : Issuer} {uid : Bytes}
    (h : issuer.uid = .bytes uid) (form : Form) (left : σ) (events : List Event)
    (result : Except Fault α) : (finish form issuer left events result).outcome = result := by
  have hreport : report form issuer = .ok (.opened form.name (Hex.encode uid)) := by
    rw [report, h]
    rfl
  cases result with
  | error fault => rfl
  | ok a => rw [finish, hreport]

theorem decodeDomain_eq (d : Domain) {ge : Text} (h : element ge "ge" = .ok Element.generator) :
    decodeDomain d.issuer (Base64.encode d.uid) ge = .ok d := by
  refine Except.bind_eq_ok.mpr ⟨d.uid, fieldBytes_encode d.uid "uidp", ?_⟩
  refine Except.guard_eq_ok.mpr ⟨by simp [Domain.issuer, Value.same, Value.sameItem], ?_⟩
  refine Except.bind_eq_ok.mpr ⟨d, by rw [Domain.check_issuer]; rfl, ?_⟩
  refine Except.bind_eq_ok.mpr ⟨Element.generator, h, ?_⟩
  exact Except.guard_eq_ok.mpr ⟨fun hne => hne rfl, rfl⟩

theorem exists_ships_domain (d : Domain) :
    ∃ c, c.form = .domainParameters ∧ Ships d.issuer d.toValue c := by
  obtain ⟨bs, hlength, htext, helement⟩ := isCompressed_generator.exists_bytes
  refine ⟨.domainParameters (Base64.encode d.uid) (Base64.encode bs), rfl, ?_, trivial, ?_, ?_, ?_⟩
  · have hplain : ofValue d.toValue = ofDomain d := by
      show ofPlain d.toValue = _
      rw [ofPlain, Domain.ofValue?_toValue]
    rw [hplain, Contents.toValue_eq]
    exact Except.bind_eq_ok.mpr ⟨Base64.encode bs, htext, rfl⟩
  · refine List.forall_mem_cons.mpr ⟨⟨d.uid, rfl, fun h => h d.uid List.mem_cons_self⟩, ?_⟩
    exact List.forall_mem_singleton.mpr (isFieldOf_of_length_le hlength.le)
  · exact fun f hf => nomatch hf
  · rw [openContents, decodeDomain_eq d (helement "ge")]
    exact outcome_finish rfl _ _ _ _

theorem exists_ships_publicKey {issuer : Issuer} {uid : Bytes} (huid : issuer.uid = .bytes uid)
    {k : PublicKey} (hk : IsCompressed k.h) :
    ∃ c, c.form = .publicKey ∧ Ships issuer k.toValue c := by
  obtain ⟨bs, hlength, htext, helement⟩ := hk.exists_bytes
  refine ⟨.publicKey (Base64.encode bs), rfl, ?_, trivial, ?_, ?_, ?_⟩
  · rw [Contents.toValue_eq]
    exact Except.bind_eq_ok.mpr ⟨Base64.encode bs, htext, rfl⟩
  · exact List.forall_mem_singleton.mpr (isFieldOf_of_length_le hlength.le)
  · exact fun f hf => nomatch hf
  · rw [openContents, helement "H"]
    exact outcome_finish huid _ _ _ _

theorem isFieldOf_scalar (v : Value) (x : Scalar) :
    IsFieldOf v (Base64.encode (scalarBytes x.val)) :=
  isFieldOf_of_length_le ((length_scalarBytes_le x).trans (by decide))

theorem exists_ships_privateKey {issuer : Issuer} {uid : Bytes} (huid : issuer.uid = .bytes uid)
    (k : PrivateKey) : ∃ c, c.form = .privateKey ∧ Ships issuer k.toValue c := by
  refine ⟨.privateKey (Base64.encode (scalarBytes k.x.val)), rfl, ?_, trivial, ?_, ?_, ?_⟩
  · have hplain : ofValue k.toValue
        = (do return .dict [field "x" (← scalarText (.int k.x.toInt))]) := by
      show ofPlain k.toValue = _
      rw [ofPlain, PrivateKey.ofValue?_toValue]
      rfl
    rw [hplain, Contents.toValue_eq]
    exact Except.bind_eq_ok.mpr ⟨_, scalarText_toInt k.x, rfl⟩
  · exact List.forall_mem_singleton.mpr (isFieldOf_scalar _ k.x)
  · exact fun f hf => nomatch hf
  · rw [openContents, scalar_encode k.x "x"]
    exact outcome_finish huid _ _ _ _

/-! ### Proofs -/

/-- The fields of the proof of a challenge and three responses. -/
def fieldsOfScalars (c rXb rR rOb : Scalar) : ProofFields where
  c := Base64.encode (scalarBytes c.val)
  rXb := Base64.encode (scalarBytes rXb.val)
  rR := Base64.encode (scalarBytes rR.val)
  rOb := Base64.encode (scalarBytes rOb.val)

open Escrow (proofOfScalars)

theorem ofValue_proofOfScalars (c rXb rR rOb : Scalar) :
    ofValue (proofOfScalars c rXb rR rOb).toValue
      = .ok (.dict ((fieldsOfScalars c rXb rR rOb).named.map fun f => field f.1 f.2)) := rfl

theorem scalarValue_encode (x : Scalar) (name : String) :
    scalarValue (Base64.encode (scalarBytes x.val)) name = .ok (.int x.toInt) :=
  Except.bind_eq_ok.mpr ⟨x, scalar_encode x name, rfl⟩

theorem decode_fieldsOfScalars (c rXb rR rOb : Scalar) :
    (fieldsOfScalars c rXb rR rOb).decode = .ok (proofOfScalars c rXb rR rOb) := by
  refine Except.bind_eq_ok.mpr ⟨_, scalarValue_encode c "c", ?_⟩
  refine Except.bind_eq_ok.mpr ⟨_, scalarValue_encode rXb "rXb", ?_⟩
  refine Except.bind_eq_ok.mpr ⟨_, scalarValue_encode rR "rR", ?_⟩
  exact Except.bind_eq_ok.mpr ⟨_, scalarValue_encode rOb "rOb", rfl⟩

theorem isFieldOf_named (v : Value) (c rXb rR rOb : Scalar) :
    ∀ f ∈ (fieldsOfScalars c rXb rR rOb).named, IsFieldOf v f.2 := by
  intro f hf
  simp only [ProofFields.named, List.mem_cons, List.not_mem_nil, or_false] at hf
  rcases hf with rfl | rfl | rfl | rfl
  · exact isFieldOf_scalar v c
  · exact isFieldOf_scalar v rXb
  · exact isFieldOf_scalar v rR
  · exact isFieldOf_scalar v rOb

theorem exists_ships_proof {issuer : Issuer} {uid : Bytes} (huid : issuer.uid = .bytes uid)
    (c rXb rR rOb : Scalar) :
    ∃ contents, contents.form = .proof
      ∧ Ships issuer (proofOfScalars c rXb rR rOb).toValue contents := by
  refine ⟨.proof (fieldsOfScalars c rXb rR rOb), rfl, ?_, trivial, ?_, ?_, ?_⟩
  · rw [Contents.toValue_eq]
    exact ofValue_proofOfScalars c rXb rR rOb
  · exact isFieldOf_named _ c rXb rR rOb
  · exact fun f hf => nomatch hf
  · rw [openContents, decode_fieldsOfScalars]
    exact outcome_finish huid _ _ _ _

/-! ### Ciphertexts -/

theorem arrival_ciphertext (e1 e2 proof : Value) (label : Option Bytes) :
    arrival (Ciphertext.toValue ⟨e1, e2, proof, label⟩)
      = Ciphertext.toValue ⟨e1, e2, proof, arrivedLabel label⟩ := by
  cases label with
  | none => rfl
  | some bs =>
    show Value.record .ciphertext [e1, e2, proof, if bs = sentinel then .null else .bytes bs]
      = .record .ciphertext
          [e1, e2, proof, Ciphertext.labelValue (if some bs = some sentinel then none else some bs)]
    by_cases h : bs = sentinel
    · rw [if_pos h, if_pos (congrArg some h)]
      rfl
    · rw [if_neg h, if_neg fun he => h (Option.some.inj he)]
      rfl

theorem isFieldOf_labelText (e1 e2 proof : Value) (label : Option Bytes) :
    IsFieldOf (Ciphertext.toValue ⟨e1, e2, proof, label⟩) (labelText label) := by
  refine ⟨label.getD sentinel, labelText_eq label, fun h => ?_⟩
  cases label with
  | none => decide
  | some bs => exact h bs List.mem_cons_self

theorem ofValue_ciphertext {e1 e2 proof w : Value} {t1 t2 : Text}
    (h1 : elementText e1 = .ok t1) (h2 : elementText e2 = .ok t2) (hproof : ofValue proof = .ok w)
    (label : Option Bytes) :
    ofValue (Ciphertext.toValue ⟨e1, e2, proof, label⟩)
      = .ok (.dict [field "E1" t1, field "E2" t2, field "info" (labelText label),
          (.text (Text.of "ieproof"), w)]) := by
  cases label with
  | none =>
    rw [Ciphertext.toValue, Ciphertext.labelValue, ofValue, h1, h2, hproof]
    rfl
  | some bs =>
    rw [Ciphertext.toValue, Ciphertext.labelValue, ofValue, h1, h2, hproof]
    rfl

/-- Opening a ciphertext is decoding its elements and its proof; the label is there already. -/
theorem outcome_openContents_ciphertext {issuer : Issuer} {uid : Bytes}
    (huid : issuer.uid = .bytes uid) (t1 t2 info : Text) (label : Option Bytes)
    (inner : ProofFields) :
    (openContents (.ciphertext t1 t2 info label inner false) issuer).outcome = (do
      let e1 ← element t1 "E1"
      let e2 ← element t2 "E2"
      let proof ← inner.decode
      return Ciphertext.toValue ⟨.text e1, .text e2, proof.toValue, label⟩) := by
  rw [openContents]
  cases element t1 "E1" with
  | error fault => rfl
  | ok e1 =>
    cases element t2 "E2" with
    | error fault => rfl
    | ok e2 =>
      have hproof : (openProof inner false issuer).outcome = inner.decode := by
        rw [openProof, if_neg Bool.false_ne_true, outcome_finish huid]
      refine (outcome_finish huid _ _ _ _).trans ?_
      rw [hproof]
      cases inner.decode with
      | error fault => rfl
      | ok proof => rfl

theorem exists_ships_ciphertext {issuer : Issuer} {uid : Bytes} (huid : issuer.uid = .bytes uid)
    {e1 e2 : Text} (he1 : IsCompressed e1) (he2 : IsCompressed e2) (c rXb rR rOb : Scalar)
    (label : Option Bytes) :
    ∃ contents, contents.form = .ciphertext ∧ Ships issuer
      (Ciphertext.toValue ⟨.text e1, .text e2, (proofOfScalars c rXb rR rOb).toValue, label⟩)
      contents := by
  obtain ⟨bs1, hlength1, htext1, helement1⟩ := he1.exists_bytes
  obtain ⟨bs2, hlength2, htext2, helement2⟩ := he2.exists_bytes
  refine ⟨.ciphertext (Base64.encode bs1) (Base64.encode bs2) (labelText label)
    (arrivedLabel label) (fieldsOfScalars c rXb rR rOb) false, rfl, ?_,
    ⟨labelOf_labelText label, rfl⟩, ?_, ?_, ?_⟩
  · rw [ofValue_ciphertext htext1 htext2 (ofValue_proofOfScalars c rXb rR rOb), Contents.toValue_eq]
    rfl
  · refine List.forall_mem_cons.mpr ⟨isFieldOf_of_length_le hlength1.le, ?_⟩
    refine List.forall_mem_cons.mpr ⟨isFieldOf_of_length_le hlength2.le, ?_⟩
    exact List.forall_mem_singleton.mpr (isFieldOf_labelText _ _ _ label)
  · exact isFieldOf_named _ c rXb rR rOb
  · rw [outcome_openContents_ciphertext huid, arrival_ciphertext]
    refine Except.bind_eq_ok.mpr ⟨_, helement1 "E1", Except.bind_eq_ok.mpr ⟨_, helement2 "E2", ?_⟩⟩
    exact Except.bind_eq_ok.mpr ⟨_, decode_fieldsOfScalars c rXb rR rOb, rfl⟩

/-- **Every object that can be sent** has contents that ship it. -/
theorem exists_ships {issuer : Issuer} {form : Form} {v : Value} (h : Sendable issuer form v) :
    ∃ c, c.form = form ∧ Ships issuer v c := by
  cases h with
  | @domain d own =>
    rw [own]
    exact exists_ships_domain d
  | publicKey identified key => exact exists_ships_publicKey identified key
  | @privateKey k _ identified => exact exists_ships_privateKey identified k
  | proof identified numbers =>
    obtain ⟨c, rXb, rR, rOb, rfl⟩ := Escrow.numbers_all_isScalar_iff.mp numbers
    exact exists_ships_proof identified c rXb rR rOb
  | @ciphertext e1 e2 p label _ identified first second numbers =>
    obtain ⟨c, rXb, rR, rOb, rfl⟩ := Escrow.numbers_all_isScalar_iff.mp numbers
    exact exists_ships_ciphertext identified first second c rXb rR rOb label

end Wire
end VerifiableEscrow
