import VerifiableEscrow.Proofs.DomainValidity
import VerifiableEscrow.Proofs.WireRoundTrip

/-!
# Reading is safe

Whatever text arrives, reading it and opening what was read either gives a valid object or is
refused, and a refusal blames the wire form or says that it belongs to another issuer.  Each
function of the two phases has one lemma for both of its outcomes, named after it: what it gives
is good, and its faults are those that it may have.  Longer functions follow from their parts.

* `pack_meets`: the first phase, whose parcels are fresh and of the form that was asked for;
* `decodeDomain_meets`, `openContents_meets`: the second phase;
* `readsSafely`: **every text is read safely**.
-/

namespace VerifiableEscrow
namespace Wire

open Element (IsCanonical isScalar)

/-- A fault that the wire form is to blame for. -/
def IsWire (fault : Fault) : Prop := ∃ why, fault = .wire why

/-! ## Fields -/

theorem fieldBytes_meets (t : Text) (name : String) :
    Except.Meets (fieldBytes t name) (fun bs => Base64.decode? t = some bs) IsWire := by
  unfold fieldBytes
  split
  next bs h => exact h
  next => exact ⟨_, rfl⟩

/-- The digits of bytes are in lowercase, so an element has the spelling that compressing
gives. -/
theorem element_meets (t : Text) (name : String) :
    Except.Meets (element t name) IsCanonical IsWire := by
  refine (fieldBytes_meets t name).bind fun bs _ => ?_
  dsimp only
  split
  next h => exact Element.isCanonical_of_lower h (Hex.lower_encode bs)
  next => exact ⟨_, rfl⟩

theorem scalar_meets (t : Text) (name : String) :
    Except.Meets (scalar t name) (fun _ => True) IsWire := by
  refine (fieldBytes_meets t name).bind fun bs _ => Except.Meets.guard (fun _ => ⟨_, rfl⟩) ?_
  intro _
  split
  next => exact trivial
  next => exact ⟨_, rfl⟩

theorem scalarValue_meets (t : Text) (name : String) :
    Except.Meets (scalarValue t name) (fun v => isScalar v = true) IsWire := by
  refine (scalar_meets t name).bind fun x _ => ?_
  exact Element.isScalar_iff.mpr ⟨x, rfl⟩

theorem ProofFields.decode_meets (p : ProofFields) :
    Except.Meets p.decode (fun proof => proof.numbers.all isScalar = true) IsWire := by
  refine (scalarValue_meets p.c "c").bind fun c hc => ?_
  refine (scalarValue_meets p.rXb "rXb").bind fun rXb hrXb => ?_
  refine (scalarValue_meets p.rR "rR").bind fun rR hrR => ?_
  refine (scalarValue_meets p.rOb "rOb").bind fun rOb hrOb => ?_
  simp [Except.Meets, pure, Except.pure, Proof.numbers, hc, hrXb, hrR, hrOb]

/-! ## Packing -/

theorem entriesOf_meets (form : Form) (v : Value) :
    Except.Meets (entriesOf form v) (fun _ => True) IsWire := by
  unfold entriesOf
  split
  next => exact trivial
  next => exact ⟨_, rfl⟩

theorem required_meets (form : Form) (entries : List (Value × Value)) (name : String) :
    Except.Meets (required form entries name) (fun _ => True) IsWire := by
  unfold required
  split
  next => exact ⟨_, rfl⟩
  next => exact ⟨_, rfl⟩
  next => exact trivial

theorem requiredText_meets (form : Form) (entries : List (Value × Value)) (name : String) :
    Except.Meets (requiredText form entries name) (fun _ => True) IsWire := by
  refine (required_meets form entries name).bind fun v _ => ?_
  split
  next => exact trivial
  next => exact ⟨_, rfl⟩

theorem labelOf_meets (info : Text) :
    Except.Meets (labelOf info) (fun label => labelOf info = .ok label) IsWire := by
  cases h : labelOf info with
  | ok label => rfl
  | error fault =>
    have hbytes : Except.Meets ((fieldBytes info "info").map some) (fun _ => True) IsWire :=
      (fieldBytes_meets info "info").map fun _ _ => trivial
    unfold labelOf at h
    split_ifs at h
    exact hbytes.of_error h

theorem packProof_meets (v : Value) : Except.Meets (packProof v) (fun _ => True) IsWire := by
  refine (entriesOf_meets .proof v).bind fun entries _ => ?_
  refine (requiredText_meets .proof entries "c").bind fun c _ => ?_
  refine (requiredText_meets .proof entries "rXb").bind fun rXb _ => ?_
  refine (requiredText_meets .proof entries "rR").bind fun rR _ => ?_
  exact (requiredText_meets .proof entries "rOb").bind fun rOb _ => trivial

theorem packContents_meets (form : Form) (v : Value) :
    Except.Meets (packContents form v) (fun c => c.form = form ∧ c.Fresh) IsWire := by
  cases form with
  | domainParameters =>
    refine (entriesOf_meets .domainParameters v).bind fun entries _ => ?_
    refine (requiredText_meets .domainParameters entries "uidp").bind fun uidp _ => ?_
    exact (requiredText_meets .domainParameters entries "ge").bind fun ge _ => ⟨rfl, trivial⟩
  | publicKey =>
    refine (entriesOf_meets .publicKey v).bind fun entries _ => ?_
    exact (requiredText_meets .publicKey entries "H").bind fun h _ => ⟨rfl, trivial⟩
  | privateKey =>
    refine (entriesOf_meets .privateKey v).bind fun entries _ => ?_
    exact (requiredText_meets .privateKey entries "x").bind fun x _ => ⟨rfl, trivial⟩
  | proof => exact (packProof_meets v).bind fun fields _ => ⟨rfl, trivial⟩
  | ciphertext =>
    refine (entriesOf_meets .ciphertext v).bind fun entries _ => ?_
    refine (requiredText_meets .ciphertext entries "E1").bind fun e1 _ => ?_
    refine (requiredText_meets .ciphertext entries "E2").bind fun e2 _ => ?_
    refine (requiredText_meets .ciphertext entries "info").bind fun info _ => ?_
    refine (required_meets .ciphertext entries "ieproof").bind fun proof _ => ?_
    refine (packProof_meets proof).bind fun inner _ => ?_
    exact (labelOf_meets info).bind fun label hlabel => ⟨rfl, hlabel, rfl⟩

/-- A parcel that is packed has the form that was asked for, and neither it nor the proof inside
has been opened. -/
theorem pack_meets (target : Target) (v : Value) :
    Except.Meets (pack target v) (fun p => p.opened = false ∧ p.contents.Fresh
      ∧ target.bind Form.ofName? = some p.contents.form) IsWire := by
  unfold pack
  split
  next => exact ⟨_, rfl⟩
  next form hform =>
    refine (packContents_meets form v).bind fun c hc => ?_
    exact ⟨rfl, hc.2, hform.trans (congrArg some hc.1.symm)⟩

theorem packJson_meets (form : Form) (t : Text) :
    Except.Meets (packJson (some (Text.of form.name)) (.text t))
      (fun p => p.opened = false ∧ p.contents.Fresh ∧ p.contents.form = form) IsWire := by
  have hread : Except.Meets (readJson (some (Text.of form.name)) (.text t)) (fun _ => True)
      IsWire := by
    rw [readJson, readJson.read]
    split
    next => exact trivial
    next => exact ⟨_, rfl⟩
  refine hread.bind fun v _ => (pack_meets _ v).mono ?_ fun _ h => h
  rintro p ⟨hopened, hfresh, hform⟩
  rw [Option.bind_some, Form.ofName?_name] at hform
  exact ⟨hopened, hfresh, (Option.some.inj hform).symm⟩

/-! ## Opening -/

/-- Contents that name another issuer than the one with the given identifier. -/
def Contents.IsForeign (c : Contents) (own : Bytes) : Prop :=
  ∃ uidp ge other, c = .domainParameters uidp ge ∧ Base64.decode? uidp = some other ∧ other ≠ own

/-- The objects that opening may give for an issuer: a domain is the issuer's own, elements have
the spelling that compressing gives, and the numbers of a proof are exponents in range. -/
inductive Valid (issuer : Issuer) : Form → Value → Prop
  | domain {d : Domain} (own : d.issuer = issuer) (generator : IsCanonical d.ge) :
      Valid issuer .domainParameters d.toValue
  | publicKey {k : PublicKey} (key : IsCanonical k.h) : Valid issuer .publicKey k.toValue
  | privateKey {k : PrivateKey} (exponent : isScalar k.toRaw.x = true) :
      Valid issuer .privateKey k.toValue
  | proof {p : Proof} (numbers : p.numbers.all isScalar = true) : Valid issuer .proof p.toValue
  | ciphertext {e1 e2 : Text} {p : Proof} {label : Option Bytes} (first : IsCanonical e1)
      (second : IsCanonical e2) (numbers : p.numbers.all isScalar = true) :
      Valid issuer .ciphertext (Ciphertext.toValue ⟨.text e1, .text e2, p.toValue, label⟩)

section Identified

variable {issuer : Issuer} {own : Bytes}

/-- The identifier comes first: a foreign one is refused whatever else there is. -/
theorem decodeDomain_foreign (identified : issuer.uid = .bytes own) {uidp : Text} {other : Bytes}
    (hother : Base64.decode? uidp = some other) (hne : other ≠ own) (ge : Text) :
    decodeDomain issuer uidp ge = .error .foreignUid := by
  rw [decodeDomain, fieldBytes, hother]
  simp [identified, Value.same, Value.sameItem, hne, bind, Except.bind, throw, throwThe,
    MonadExceptOf.throw]

theorem decodeDomain_meets (identified : issuer.uid = .bytes own) (uidp ge : Text) :
    Except.Meets (decodeDomain issuer uidp ge)
      (fun d => d.issuer = issuer ∧ IsCanonical d.ge)
      (fun fault => IsWire fault
        ∨ fault = .foreignUid ∧ ∃ other, Base64.decode? uidp = some other ∧ other ≠ own) := by
  refine ((fieldBytes_meets uidp "uidp").weaken fun _ => .inl).bind ?_
  intro other hother
  refine Except.Meets.guard (fun hdiffers => .inr ⟨rfl, other, hother, ?_⟩) fun _ => ?_
  · rintro rfl
    simp [identified, Value.same, Value.sameItem] at hdiffers
  have hcheck : Except.Meets (issuer.check.mapError fun why => Fault.wire (.issuer why))
      (fun d => d.issuer = issuer) IsWire := by
    cases h : issuer.check with
    | ok d => exact Issuer.check_eq_ok.mp h
    | error why => exact ⟨_, rfl⟩
  refine (hcheck.weaken fun _ => .inl).bind fun d hd => ?_
  refine ((element_meets ge "ge").weaken fun _ => .inl).bind fun t ht => ?_
  refine Except.Meets.guard (fun _ => .inl ⟨_, rfl⟩) fun heq => ⟨hd, ?_⟩
  rwa [not_ne_iff.mp heq] at ht

theorem openContents_meets (identified : issuer.uid = .bytes own) {c : Contents}
    (hfresh : c.Fresh) :
    Except.Meets (openContents c issuer).outcome (Valid issuer c.form)
      (fun fault => IsWire fault ∨ fault = .foreignUid ∧ c.IsForeign own) := by
  cases c with
  | domainParameters uidp ge =>
    rw [openContents, outcome_finish identified]
    refine ((decodeDomain_meets identified uidp ge).weaken ?_).map ?_
    · rintro fault (h | ⟨h, other, hother, hne⟩)
      · exact .inl h
      · exact .inr ⟨h, uidp, ge, other, rfl, hother, hne⟩
    · exact fun d hd => .domain hd.1 hd.2
  | publicKey h =>
    rw [openContents, outcome_finish identified]
    refine ((element_meets h "H").weaken fun _ => .inl).map ?_
    exact fun t ht => .publicKey ht
  | privateKey x =>
    rw [openContents, outcome_finish identified]
    refine ((scalar_meets x "x").weaken fun _ => .inl).map ?_
    exact fun x _ => .privateKey (Element.isScalar_iff.mpr ⟨x, rfl⟩)
  | proof fields =>
    rw [openContents, outcome_finish identified]
    refine (fields.decode_meets.weaken fun _ => .inl).map ?_
    exact fun p hp => .proof hp
  | ciphertext e1 e2 info label inner innerOpened =>
    obtain ⟨-, rfl⟩ := hfresh
    rw [outcome_openContents_ciphertext identified]
    refine ((element_meets e1 "E1").weaken fun _ => .inl).bind fun p1 h1 => ?_
    refine ((element_meets e2 "E2").weaken fun _ => .inl).bind fun p2 h2 => ?_
    exact (inner.decode_meets.weaken fun _ => .inl).bind fun p hp => .ciphertext h1 h2 hp

/-- Opening says that contents belong to another issuer exactly when they do. -/
theorem openContents_eq_foreignUid (identified : issuer.uid = .bytes own) {c : Contents}
    (hfresh : c.Fresh) :
    (openContents c issuer).outcome = .error .foreignUid ↔ c.IsForeign own := by
  constructor
  · intro h
    rcases (openContents_meets identified hfresh).of_error h with ⟨why, hwhy⟩ | ⟨-, hforeign⟩
    · cases hwhy
    · exact hforeign
  · rintro ⟨uidp, ge, other, rfl, hother, hne⟩
    rw [openContents, outcome_finish identified, decodeDomain_foreign identified hother hne]
    rfl

/-! ## Reading and opening -/

/-- What reading a text and opening it at once may answer: a valid object of the form or a
refusal, and another issuer is named as the reason exactly when the text names one.  Whatever
ciphertext is given can be decrypted. -/
structure ReadsSafely (issuer : Issuer) (own : Bytes) (form : Form) (t : Text)
    (answer : Except Fault Value) : Prop where
  outcome : (∃ v, answer = .ok v ∧ Valid issuer form v) ∨ (∃ why, answer = .error (.wire why))
    ∨ answer = .error .foreignUid
  foreign : answer = .error .foreignUid ↔ form = .domainParameters
    ∧ ∃ parcel, packJson (some (Text.of form.name)) (.text t) = .ok parcel
      ∧ parcel.contents.IsForeign own
  decrypts : ∀ ct : Ciphertext, answer = .ok ct.toValue → ∀ (d : Domain) (k : PrivateKey),
    ∃ pseudonym, Escrow.decrypt (.given d) (.given ct) (.given k.toRaw) = .ok pseudonym

/-- A valid ciphertext can be decrypted in every domain and with every key. -/
theorem Valid.exists_decrypt {form : Form} {ct : Ciphertext} (h : Valid issuer form ct.toValue)
    (d : Domain) (k : PrivateKey) :
    ∃ pseudonym, Escrow.decrypt (.given d) (.given ct) (.given k.toRaw) = .ok pseudonym := by
  obtain ⟨e1, e2, proof, label⟩ := ct
  generalize hv : Ciphertext.toValue ⟨e1, e2, proof, label⟩ = v at h
  cases h with
  | @ciphertext t1 t2 p _ first second numbers =>
    simp only [Ciphertext.toValue, Value.record.injEq, List.cons.injEq] at hv
    obtain ⟨-, rfl, rfl, rfl, -⟩ := hv
    obtain ⟨g1, h1⟩ := Element.isElement_iff.mp first.isElement
    obtain ⟨g2, h2⟩ := Element.isElement_iff.mp second.isElement
    exact ⟨_, Escrow.decrypt_eq d k h1 h2 _ _⟩
  | _ => cases hv

/-- A text that is refused in the first phase. -/
theorem ReadsSafely.of_refused {form : Form} {t : Text} {why : WireFault}
    (h : packJson (some (Text.of form.name)) (.text t) = .error (.wire why)) :
    ReadsSafely issuer own form t (.error (.wire why)) where
  outcome := .inr (.inl ⟨why, rfl⟩)
  foreign := by
    constructor
    · intro hforeign
      cases hforeign
    · rintro ⟨-, parcel, hparcel, -⟩
      rw [h] at hparcel
      cases hparcel
  decrypts := by
    intro ct hct
    cases hct

/-- A text that is packed is answered by opening the contents. -/
theorem ReadsSafely.of_packed (identified : issuer.uid = .bytes own) {t : Text} {parcel : Parcel}
    (hpack : packJson (some (Text.of parcel.contents.form.name)) (.text t) = .ok parcel)
    (hfresh : parcel.contents.Fresh) :
    ReadsSafely issuer own parcel.contents.form t
      (openContents parcel.contents issuer).outcome := by
  have hopen := openContents_meets identified hfresh
  refine ⟨?_, ?_, fun ct hct => (hopen.of_ok hct).exists_decrypt⟩
  · cases h : (openContents parcel.contents issuer).outcome with
    | ok v => exact .inl ⟨v, rfl, hopen.of_ok h⟩
    | error fault =>
      rcases hopen.of_error h with ⟨why, rfl⟩ | ⟨rfl, -⟩
      · exact .inr (.inl ⟨why, rfl⟩)
      · exact .inr (.inr rfl)
  · rw [openContents_eq_foreignUid identified hfresh]
    constructor
    · intro hforeign
      refine ⟨?_, parcel, hpack, hforeign⟩
      obtain ⟨uidp, ge, -, hc, -⟩ := hforeign
      rw [hc]
      rfl
    · rintro ⟨-, parcel', hpack', hforeign⟩
      rw [hpack] at hpack'
      cases hpack'
      exact hforeign

/-- **Every text is read safely**, as any form and for every issuer with an identifier. -/
theorem readsSafely (identified : issuer.uid = .bytes own) (form : Form) (t : Text)
    (draws : Draws) (trace : Trace) :
    ReadsSafely issuer own form t (Run.outcome
      (readAndOpen issuer.toValue (some (Text.of form.name)) (.text t)) draws trace).1 := by
  have hpacked := packJson_meets form t
  cases hpack : packJson (some (Text.of form.name)) (.text t) with
  | error fault =>
    obtain ⟨why, rfl⟩ := hpacked.of_error hpack
    rw [readAndOpen, Run.outcome_bind, hpack, Run.outcome_liftM]
    exact .of_refused hpack
  | ok parcel =>
    obtain ⟨hopened, hfresh, rfl⟩ := hpacked.of_ok hpack
    rw [outcome_readAndOpen hpack, Parcel.openWith, hopened, if_neg Bool.false_ne_true,
      Issuer.ofValue?_toValue]
    exact .of_packed identified hpack hfresh

end Identified

/-- The wire form of a domain whose identifier is one byte, with nothing for a generator. -/
def foreignDomain : Text := Text.of "\x7b\"uidp\": \"AQ==\", \"ge\": \"\"\x7d"

theorem packJson_foreignDomain :
    packJson (some (Text.of Form.domainParameters.name)) (.text foreignDomain)
      = .ok ⟨.domainParameters (Text.of "AQ==") [], false⟩ := by
  decide +kernel

theorem isForeign_foreignDomain :
    Contents.IsForeign (.domainParameters (Text.of "AQ==") []) [0] :=
  ⟨_, _, [1], rfl, by decide +kernel, by decide⟩

/-- Reading it for an issuer with another identifier is safe, and says that it is foreign. -/
theorem readsSafely_foreignDomain :
    (Domain.ofGenerator .sha256).issuer.uid = .bytes [0]
      ∧ ReadsSafely (Domain.ofGenerator .sha256).issuer [0] .domainParameters foreignDomain
          (Run.outcome (readAndOpen (Domain.ofGenerator .sha256).issuer.toValue
            (some (Text.of Form.domainParameters.name)) (.text foreignDomain))
            (fun _ => 0) .start).1
      ∧ (Run.outcome (readAndOpen (Domain.ofGenerator .sha256).issuer.toValue
            (some (Text.of Form.domainParameters.name)) (.text foreignDomain))
            (fun _ => 0) .start).1 = .error .foreignUid := by
  have identified : (Domain.ofGenerator .sha256).issuer.uid = .bytes [0] := rfl
  have hsafe := readsSafely identified .domainParameters foreignDomain (fun _ => 0) .start
  refine ⟨identified, hsafe, hsafe.foreign.mpr ?_⟩
  exact ⟨rfl, _, packJson_foreignDomain, isForeign_foreignDomain⟩

end Wire
end VerifiableEscrow
