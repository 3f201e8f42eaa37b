import VerifiableEscrow.Proofs.FileRoundTrip
import VerifiableEscrow.Proofs.WireShipment

/-!
# What is sent arrives

The three carriers differ in how a wire form is written and read, and nowhere else: in between
there are contents that ship the object (`Ships`), and a mapping that presents contents is packed
and opened in one way (`Ships.exists_parcel`).  JSON text and JSON files give back the mapping
that was written, and CBOR one that presents the same contents.

* `Ships.arrives_json`, `Ships.arrives_cbor`, `Ships.arrives_file`: one carrier each;
* `arrives_of_sendable`: **what is sent arrives**, in all three, and it is the object itself with
  the exception of one label.
-/

namespace VerifiableEscrow

open scoped PrimeField Member

namespace Wire

open Escrow (proofOfScalars)

/-! ## The three carriers -/

theorem Form.ofName?_name (form : Form) : Form.ofName? (Text.of form.name) = some form := by
  cases form <;> decide

/-- What presents contents that ship an object is packed and opened to what arrives. -/
theorem Ships.exists_parcel {issuer : Issuer} {v w : Value} {c : Contents}
    (h : Ships issuer v c) (hw : c.PresentedBy w) :
    ∃ parcel, pack (some (Text.of c.form.name)) w = .ok parcel
      ∧ (parcel.openWith issuer.toValue).outcome = .ok (arrival v) := by
  refine ⟨⟨c, false⟩, ?_, ?_⟩
  · rw [pack, Option.bind_some, Form.ofName?_name]
    exact Except.bind_eq_ok.mpr ⟨c, packContents_of_presentedBy h.fresh hw, rfl⟩
  · rw [Parcel.openWith, if_neg Bool.false_ne_true, Issuer.ofValue?_toValue]
    exact h.opened

theorem IsFieldOf.isPlain {v : Value} {t : Text} (h : IsFieldOf v t) : t.IsPlain := by
  obtain ⟨bs, rfl, -⟩ := h
  exact Base64.isPlain_encode bs

theorem IsFieldOf.length_lt {v : Value} {t : Text} (h : IsFieldOf v t) (hv : Countable v) :
    t.length < BigEndian.capacity 8 := by
  obtain ⟨bs, rfl, hlength⟩ := h
  have hshort := hlength hv
  have hlimit : 4 * ((Value.countLimit + 2) / 3) < BigEndian.capacity 8 := by decide
  rw [Base64.length_encode]
  omega

/-- JSON gives back the mapping that contents are written as. -/
theorem Ships.roundTrips {issuer : Issuer} {v : Value} {c : Contents} (h : Ships issuer v c) :
    Json.RoundTrips c.toValue ∧ c.PresentedBy c.toValue := by
  obtain ⟨w, ⟨hjson, rfl⟩, hpresented⟩ :=
    isCarrier_json.exists_presentedBy (fun _ _ hname => (isPlain_fieldName hname).1)
      (fun f hf => (h.outer f hf).isPlain) (fun f hf => (h.inner f hf).isPlain)
  exact ⟨hjson, hpresented⟩

/-- CBOR gives back a mapping that presents the contents. -/
theorem Ships.carried {issuer : Issuer} {v : Value} {c : Contents} (h : Ships issuer v c)
    (hv : Countable v) : ∃ w, Cbor.Carried 2 c.toValue w ∧ c.PresentedBy w := by
  refine isCarrier_cbor.exists_presentedBy (fun _ _ hname => ⟨(isPlain_fieldName hname).1, ?_⟩)
    (fun f hf => ⟨(h.outer f hf).isPlain, (h.outer f hf).length_lt hv⟩)
    (fun f hf => ⟨(h.inner f hf).isPlain, (h.inner f hf).length_lt hv⟩)
  exact Nat.lt_trans (isPlain_fieldName hname).2 (by decide)

/-- Reporting changes nothing but what has been reported. -/
theorem outcome_forM_report (events : List Event) (draws : Draws) (trace : Trace) :
    Run.outcome (events.forM Run.report) draws trace
      = (.ok (), { trace with events := trace.events ++ events }) := by
  induction events generalizing trace with
  | nil =>
    rw [List.append_nil]
    rfl
  | cons event events ih =>
    show Run.outcome (Run.report event >>= fun _ => events.forM Run.report) draws trace = _
    rw [Run.outcome_bind, Run.outcome_report]
    dsimp only
    rw [ih, List.append_assoc, List.singleton_append]

/-- Reading and opening at once answers like opening the parcel that is read. -/
theorem outcome_readAndOpen {issuer v : Value} {target : Target} {parcel : Parcel}
    (h : packJson target v = .ok parcel) (draws : Draws) (trace : Trace) :
    (Run.outcome (readAndOpen issuer target v) draws trace).1
      = (parcel.openWith issuer).outcome := by
  rw [readAndOpen, Run.outcome_bind, h, Run.outcome_liftM]
  dsimp only
  rw [Attempt.run, Run.outcome_bind, outcome_forM_report]
  dsimp only
  rw [Run.outcome_liftM]

/-- What reading and opening at once gives is what opening a parcel gives. -/
theorem outcome_readAndOpen_eq_ok_iff {issuer v w : Value} {target : Target} {draws : Draws}
    {trace : Trace} : (Run.outcome (readAndOpen issuer target v) draws trace).1 = .ok w
      ↔ ∃ parcel, packJson target v = .ok parcel ∧ (parcel.openWith issuer).outcome = .ok w := by
  cases hpack : packJson target v with
  | ok parcel =>
    rw [outcome_readAndOpen hpack]
    simp
  | error fault =>
    rw [readAndOpen, Run.outcome_bind, hpack, Run.outcome_liftM]
    simp

/-- **JSON text** that is written for an object is read and opened to what arrives. -/
theorem Ships.arrives_json {issuer : Issuer} {v : Value} {c : Contents} (h : Ships issuer v c) :
    ∃ t, toJson v = .ok t ∧ ∀ draws trace, (Run.outcome
      (readAndOpen issuer.toValue (some (Text.of c.form.name)) (.text t)) draws trace).1
        = .ok (arrival v) := by
  obtain ⟨hjson, hpresented⟩ := h.roundTrips
  obtain ⟨parcel, hpack, hopen⟩ := h.exists_parcel hpresented
  obtain ⟨t, ht⟩ := hjson .line 0
  have hwrite := Json.write?_of_carries ht
  have hread := Json.read?_of_carries ht
  have hpacked : packJson (some (Text.of c.form.name)) (.text t) = .ok parcel := by
    refine Except.bind_eq_ok.mpr ⟨c.toValue, ?_, hpack⟩
    rw [readJson, readJson.read, hread]
  refine ⟨t, Except.bind_eq_ok.mpr ⟨_, h.written, ?_⟩, ?_⟩
  · rw [hwrite]
    rfl
  · intro draws trace
    rw [outcome_readAndOpen hpacked]
    exact hopen

/-- **CBOR** that is written for an object is packed and opened to what arrives. -/
theorem Ships.arrives_cbor {issuer : Issuer} {v : Value} {c : Contents} (h : Ships issuer v c)
    (hv : Countable v) :
    ∃ bs parcel, toCbor v = .ok bs
      ∧ packCbor (some (Text.of c.form.name)) (.bytes bs) = .ok parcel
      ∧ (parcel.openWith issuer.toValue).outcome = .ok (arrival v) := by
  obtain ⟨w, ⟨bs, hwrite, hread⟩, hpresented⟩ := h.carried hv
  obtain ⟨parcel, hpack, hopen⟩ := h.exists_parcel hpresented
  refine ⟨bs, parcel, Except.bind_eq_ok.mpr ⟨_, h.written, ?_⟩,
    Except.bind_eq_ok.mpr ⟨w, ?_, hpack⟩, hopen⟩
  · rw [hwrite]
    rfl
  · rw [readCbor, Cbor.read?_of_reads hread (by decide)]

/-- **A file** that is written for an object is packed and opened to what arrives, at every path
that a file can be written to. -/
theorem Ships.arrives_file {issuer : Issuer} {v : Value} {c : Contents} (h : Ships issuer v c)
    {s made : Storage} {path : Text} {place : Place}
    (hprepare : s.prepare path = (.ok place, made)) :
    ∃ t written parcel, s.save path v = (.ok t, written)
      ∧ written.load path (some (Text.of c.form.name)) = .ok parcel
      ∧ (parcel.openWith issuer.toValue).outcome = .ok (arrival v) := by
  obtain ⟨hjson, hpresented⟩ := h.roundTrips
  obtain ⟨parcel, hpack, hopen⟩ := h.exists_parcel hpresented
  obtain ⟨t, ht⟩ := hjson .indented 0
  obtain ⟨written, hsave, hload⟩ := Storage.exists_saveJson ht hprepare
  refine ⟨t, written, parcel, ?_, Except.bind_eq_ok.mpr ⟨_, hload, hpack⟩, hopen⟩
  rw [Storage.save, h.written]
  exact hsave

/-! ## All carriers -/

theorem arrival_eq (v : Value) : arrival v = v ∨ ∃ e1 e2 proof label,
    Base64.decode? noLabel = some label ∧ v = Ciphertext.toValue ⟨e1, e2, proof, some label⟩
      ∧ arrival v = Ciphertext.toValue ⟨e1, e2, proof, none⟩ := by
  unfold arrival
  split
  · next e1 e2 proof label =>
    by_cases h : label = sentinel
    · rw [if_pos h]
      exact .inr ⟨e1, e2, proof, label, h ▸ decode?_noLabel, rfl, rfl⟩
    · rw [if_neg h]
      exact .inl rfl
  · exact .inl rfl

/-- An object of a form arrives at an issuer in each of the three carriers. -/
structure Arrives (issuer : Issuer) (form : Form) (v : Value) : Prop where
  /-- JSON text is written, and opening what is read from it gives what arrives. -/
  json : ∃ t, toJson v = .ok t ∧ ∀ draws trace, (Run.outcome
    (readAndOpen issuer.toValue (some (Text.of form.name)) (.text t)) draws trace).1
      = .ok (arrival v)
  /-- The same for CBOR, where lengths can be counted. -/
  cbor : Countable v → ∃ bs parcel, toCbor v = .ok bs
    ∧ packCbor (some (Text.of form.name)) (.bytes bs) = .ok parcel
    ∧ (parcel.openWith issuer.toValue).outcome = .ok (arrival v)
  /-- The same for files, at every path that a file can be written to. -/
  file : ∀ (s made : Storage) (path : Text) (place : Place), s.prepare path = (.ok place, made) →
    ∃ t written parcel, s.save path v = (.ok t, written)
      ∧ written.load path (some (Text.of form.name)) = .ok parcel
      ∧ (parcel.openWith issuer.toValue).outcome = .ok (arrival v)
  /-- What arrives is the object, except that the bytes of the word for no label are no label. -/
  same : arrival v = v ∨ ∃ e1 e2 proof label, Base64.decode? noLabel = some label
    ∧ v = Ciphertext.toValue ⟨e1, e2, proof, some label⟩
    ∧ arrival v = Ciphertext.toValue ⟨e1, e2, proof, none⟩

/-- **What is sent arrives**, in each of the three carriers. -/
theorem arrives_of_sendable {issuer : Issuer} {form : Form} {v : Value}
    (h : Sendable issuer form v) : Arrives issuer form v := by
  obtain ⟨c, rfl, hships⟩ := exists_ships h
  exact ⟨hships.arrives_json, hships.arrives_cbor, fun _ _ _ _ => hships.arrives_file,
    arrival_eq v⟩

/-- A ciphertext with the sentinel for a label arrives without a label, and the conditions on
lengths and paths can be met. -/
theorem arrives_sentinel :
    Arrives (Domain.ofGenerator .sha256).issuer .ciphertext
        (Ciphertext.toValue ⟨.text Element.generator, .text Element.generator,
          (proofOfScalars 0 1 2 3).toValue, some sentinel⟩)
      ∧ arrival (Ciphertext.toValue ⟨.text Element.generator, .text Element.generator,
            (proofOfScalars 0 1 2 3).toValue, some sentinel⟩)
          = Ciphertext.toValue ⟨.text Element.generator, .text Element.generator,
              (proofOfScalars 0 1 2 3).toValue, none⟩
      ∧ Countable (Ciphertext.toValue ⟨.text Element.generator, .text Element.generator,
          (proofOfScalars 0 1 2 3).toValue, some sentinel⟩)
      ∧ Storage.empty.prepare (Text.of "keys") = (.ok [[0x6B, 0x65, 0x79, 0x73]], .empty) := by
  refine ⟨arrives_of_sendable (.ciphertext rfl isCompressed_generator isCompressed_generator ?_),
    ?_, ?_, by rfl⟩
  · exact Escrow.numbers_all_isScalar_iff.mpr ⟨0, 1, 2, 3, rfl⟩
  · rw [arrival_ciphertext, arrivedLabel, if_pos rfl]
  · exact List.forall_mem_singleton.mpr (by decide)

end Wire
end VerifiableEscrow
