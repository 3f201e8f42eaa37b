import VerifiableEscrow.Proofs.SafeReading

/-!
# Reading again what was read

The reader of wire forms takes more spellings than the writer uses: fields in another order and
keys besides them, zero bytes before an exponent, bits behind the last byte, padding without end.
None of this gets into the object that is read.  Its elements have one spelling, and its exponents
are numbers.  So what was read can be sent (`Valid.sendable`), and writing it and reading it again
changes nothing.

There is one exception, and it is in the label of a ciphertext.  The word for no label is told
apart as a text, but a label is bytes.  With padding behind it the word is read as the bytes that
it spells, and these are written as the word.

* `exists_rewritten`: what becomes of an object of any form;
* `exists_parcel_of_received`: where the parts of a received ciphertext come from;
* `exists_reencodes`: **what becomes of a received ciphertext**;
* `received_paddedWord`: the exception.
-/

namespace VerifiableEscrow

namespace Wire

open Escrow (proofOfScalars)

/-- The answer to reading a text as an object of a form. -/
def received (issuer : Issuer) (form : Form) (t : Text) (draws : Draws) (trace : Trace) :
    Except Fault Value :=
  (Run.outcome (readAndOpen issuer.toValue (some (Text.of form.name)) (.text t)) draws trace).1

section Identified

variable {issuer : Issuer} {own : Bytes}

/-- What is read can be sent. -/
theorem Valid.sendable (identified : issuer.uid = .bytes own) {form : Form} {v : Value}
    (h : Valid issuer form v) : Sendable issuer form v := by
  cases h with
  | domain own => exact .domain own.symm
  | publicKey key => exact .publicKey identified ⟨key.isElement, key.lowercase⟩
  | privateKey => exact .privateKey identified
  | proof numbers => exact .proof identified numbers
  | ciphertext first second numbers =>
    exact .ciphertext identified ⟨first.isElement, first.lowercase⟩
      ⟨second.isElement, second.lowercase⟩ numbers

/-- What is read from a text comes from a parcel that has not been opened. -/
theorem exists_opened_of_received {form : Form} {t : Text} {v : Value} {draws : Draws}
    {trace : Trace} (h : received issuer form t draws trace = .ok v) :
    ∃ c, packJson (some (Text.of form.name)) (.text t) = .ok ⟨c, false⟩ ∧ c.form = form ∧ c.Fresh
      ∧ (openContents c issuer).outcome = .ok v := by
  obtain ⟨⟨c, opened⟩, hpack, hopen⟩ := outcome_readAndOpen_eq_ok_iff.mp h
  obtain ⟨rfl, hfresh, hform⟩ := (packJson_meets form t).of_ok hpack
  rw [Parcel.openWith, if_neg Bool.false_ne_true, Issuer.ofValue?_toValue] at hopen
  exact ⟨c, hpack, hform, hfresh, hopen⟩

/-- What is read can be written, and reading that gives what arrives where the object was sent. -/
theorem exists_rewritten (identified : issuer.uid = .bytes own) {form : Form} {t : Text}
    {v : Value} {draws : Draws} {trace : Trace} (h : received issuer form t draws trace = .ok v) :
    ∃ t', toJson v = .ok t'
      ∧ ∀ draws trace, received issuer form t' draws trace = .ok (arrival v) := by
  obtain ⟨c, -, rfl, hfresh, hopen⟩ := exists_opened_of_received h
  have hvalid := (openContents_meets identified hfresh).of_ok hopen
  -- the contents that are sent are the writer's, not those that were read
  obtain ⟨sent, hform, hships⟩ := exists_ships (hvalid.sendable identified)
  rw [← hform]
  exact hships.arrives_json

/-! ## Ciphertexts -/

/-- What is read as a ciphertext is one, and its label is that of the text's field. -/
theorem exists_parcel_of_received (identified : issuer.uid = .bytes own) {t : Text} {v : Value}
    {draws : Draws} {trace : Trace} (h : received issuer .ciphertext t draws trace = .ok v) :
    ∃ (ct : Ciphertext) (t1 t2 info : Text) (inner : ProofFields), v = ct.toValue
      ∧ packJson (some (Text.of Form.ciphertext.name)) (.text t)
          = .ok ⟨.ciphertext t1 t2 info ct.label inner false, false⟩
      ∧ labelOf info = .ok ct.label := by
  obtain ⟨c, hpack, hform, hfresh, hopen⟩ := exists_opened_of_received h
  cases c with
  | ciphertext t1 t2 info label inner innerOpened =>
    obtain ⟨hlabel, rfl⟩ := hfresh
    rw [outcome_openContents_ciphertext identified] at hopen
    obtain ⟨e1, -, hopen⟩ := Except.bind_eq_ok.mp hopen
    obtain ⟨e2, -, hopen⟩ := Except.bind_eq_ok.mp hopen
    obtain ⟨proof, -, hopen⟩ := Except.bind_eq_ok.mp hopen
    cases hopen
    exact ⟨⟨.text e1, .text e2, proof.toValue, label⟩, t1, t2, info, inner, rfl, hpack, hlabel⟩
  | _ => cases hform

/-- The label of a text is the sentinel when its field has the word for no label with padding
behind it. -/
theorem label_eq_sentinel_iff {t t1 t2 info : Text} {label : Option Bytes} {inner : ProofFields}
    (hpack : packJson (some (Text.of Form.ciphertext.name)) (.text t)
      = .ok ⟨.ciphertext t1 t2 info label inner false, false⟩) (hlabel : labelOf info = .ok label) :
    label = some sentinel
      ↔ ∃ parcel n, packJson (some (Text.of Form.ciphertext.name)) (.text t) = .ok parcel
        ∧ ("info", noLabel ++ List.replicate (n + 1) (.char '=')) ∈ parcel.fields := by
  constructor
  · rintro rfl
    obtain ⟨n, rfl⟩ := labelOf_eq_sentinel_iff.mp hlabel
    exact ⟨_, n, hpack, by simp [Parcel.fields]⟩
  · rintro ⟨parcel, n, hparcel, hinfo⟩
    obtain rfl := Except.ok.inj (hpack.symm.trans hparcel)
    have hspelled : info = noLabel ++ List.replicate (n + 1) (.char '=') := by
      simpa [Parcel.fields, eq_comm] using hinfo
    have hsentinel := labelOf_eq_sentinel_iff.mpr ⟨n, hspelled⟩
    exact Except.ok.inj (hlabel.symm.trans hsentinel)

/-- A text is read as the ciphertext of its parts. -/
theorem received_of_packed (identified : issuer.uid = .bytes own) {t t1 t2 info e1 e2 : Text}
    {label : Option Bytes} {inner : ProofFields} {p : Proof}
    (hpack : packJson (some (Text.of Form.ciphertext.name)) (.text t)
      = .ok ⟨.ciphertext t1 t2 info label inner false, false⟩)
    (h1 : element t1 "E1" = .ok e1) (h2 : element t2 "E2" = .ok e2) (hp : inner.decode = .ok p)
    (draws : Draws) (trace : Trace) : received issuer .ciphertext t draws trace
      = .ok (Ciphertext.toValue ⟨.text e1, .text e2, p.toValue, label⟩) := by
  refine outcome_readAndOpen_eq_ok_iff.mpr ⟨_, hpack, ?_⟩
  rw [Parcel.openWith, if_neg Bool.false_ne_true, Issuer.ofValue?_toValue]
  refine (outcome_openContents_ciphertext identified _ _ _ _ _).trans ?_
  refine Except.bind_eq_ok.mpr ⟨_, h1, Except.bind_eq_ok.mpr ⟨_, h2, ?_⟩⟩
  exact Except.bind_eq_ok.mpr ⟨_, hp, rfl⟩

end Identified

/-! ## Texts of one ciphertext -/

/-- The field of the identity. -/
def identityField : Text := .char 'w' :: List.replicate 63 (.char 'A')

theorem element_identityField (name : String) :
    element identityField name = .ok Element.identity := by
  have hbytes : Base64.decode? identityField = some (0xC0 :: List.replicate 47 0) := by
    decide +kernel
  have hdigits : Hex.encode (0xC0 :: List.replicate 47 0) = Element.identity := by decide +kernel
  exact element_of_digits hbytes hdigits Element.encodes_identity.isElement name

/-- A text with a ciphertext of identities, ones for a proof, and what may be a label. -/
def labelled (info : Text) : Text :=
  Text.of "\x7b\"E1\": \"" ++ identityField ++ Text.of "\", \"E2\": \"" ++ identityField
    ++ Text.of "\", \"info\": \"" ++ info ++ Text.of "\", \"ieproof\": "
    ++ Text.of "\x7b\"c\": \"AQ==\", \"rXb\": \"AQ==\", "
    ++ Text.of "\"rR\": \"AQ==\", \"rOb\": \"AQ==\"\x7d\x7d"

/-- The ciphertext in such a text. -/
def ofIdentities (label : Option Bytes) : Ciphertext :=
  ⟨.text Element.identity, .text Element.identity, (proofOfScalars 1 1 1 1).toValue, label⟩

/-- The contents of such a text. -/
def contentsOfIdentities (info : Text) (label : Option Bytes) : Contents :=
  .ciphertext identityField identityField info label (fieldsOfScalars 1 1 1 1) false

theorem received_labelled {issuer : Issuer} {own : Bytes} (identified : issuer.uid = .bytes own)
    {info : Text} {label : Option Bytes}
    (hpack : packJson (some (Text.of Form.ciphertext.name)) (.text (labelled info))
      = .ok ⟨contentsOfIdentities info label, false⟩) (draws : Draws) (trace : Trace) :
    received issuer .ciphertext (labelled info) draws trace
      = .ok (ofIdentities label).toValue :=
  received_of_packed identified hpack (element_identityField "E1") (element_identityField "E2")
    (decode_fieldsOfScalars 1 1 1 1) draws trace

/-- A label whose last letter has bits behind the last byte. -/
def looseLabel : Text := Text.of "AB=="

theorem packJson_looseLabel :
    packJson (some (Text.of Form.ciphertext.name)) (.text (labelled looseLabel))
      = .ok ⟨contentsOfIdentities looseLabel (some [0]), false⟩ := by
  decide +kernel

/-- The word for no label with padding behind it. -/
def paddedWord : Text := Text.of "NULL="

theorem packJson_paddedWord :
    packJson (some (Text.of Form.ciphertext.name)) (.text (labelled paddedWord))
      = .ok ⟨contentsOfIdentities paddedWord (some sentinel), false⟩ := by
  decide +kernel

/-! ## What is read stays -/

/-- What becomes of a ciphertext that was read from a text when it is written and read again. -/
structure Reencodes (issuer : Issuer) (t : Text) (ct ct' : Ciphertext) : Prop where
  again : ∃ t', toJson ct.toValue = .ok t'
    ∧ ∀ draws trace, received issuer .ciphertext t' draws trace = .ok ct'.toValue
  e1 : ct'.e1 = ct.e1
  e2 : ct'.e2 = ct.e2
  proof : ct'.proof = ct.proof
  /-- With any other label the ciphertext is the same, so that a verifier cannot tell the
  difference. -/
  same : ct.label ≠ some sentinel → ct' = ct
    ∧ ∀ (d : Slot Domain) (token : Value) (key : Slot RawPublicKey) (cxb : Value),
      Escrow.verify d (.given ct') token key cxb = Escrow.verify d (.given ct) token key cxb
  /-- The bytes that the word for no label spells are lost. -/
  lost : ct.label = some sentinel → ct'.label = none
  /-- They are read from this word with padding behind it, and from nothing else. -/
  padded : ct.label = some sentinel
    ↔ ∃ parcel n, packJson (some (Text.of Form.ciphertext.name)) (.text t) = .ok parcel
      ∧ ("info", noLabel ++ List.replicate (n + 1) (.char '=')) ∈ parcel.fields

/-- **A received ciphertext stays what it is** when it is written and read again, but for one
label. -/
theorem exists_reencodes {issuer : Issuer} {own : Bytes} (identified : issuer.uid = .bytes own)
    {t : Text} {v : Value} {draws : Draws} {trace : Trace}
    (h : received issuer .ciphertext t draws trace = .ok v) :
    ∃ ct ct', v = Ciphertext.toValue ct ∧ Reencodes issuer t ct ct' := by
  obtain ⟨t', hwritten, hread⟩ := exists_rewritten identified h
  obtain ⟨ct, t1, t2, info, inner, rfl, hpack, hlabel⟩ := exists_parcel_of_received identified h
  refine ⟨ct, { ct with label := arrivedLabel ct.label }, rfl, ?_⟩
  rw [arrival_ciphertext] at hread
  refine ⟨⟨t', hwritten, hread⟩, rfl, rfl, rfl, fun hne => ?_, fun hsentinel => ?_, ?_⟩
  · have hsame : { ct with label := arrivedLabel ct.label } = ct := by
      rw [arrivedLabel, if_neg hne]
    rw [hsame]
    exact ⟨rfl, fun _ _ _ _ => rfl⟩
  · exact if_pos hsentinel
  · exact label_eq_sentinel_iff hpack hlabel

/-- A label with loose bits behind its last byte is written without them, and read again. -/
theorem exists_reencodes_looseLabel :
    ∃ v, (Domain.ofGenerator .sha256).issuer.uid = .bytes [0]
      ∧ received (Domain.ofGenerator .sha256).issuer .ciphertext (labelled looseLabel)
          (fun _ => 0) .start = .ok v
      ∧ v = (ofIdentities (some [0])).toValue
      ∧ ∃ ct ct', v = Ciphertext.toValue ct
        ∧ Reencodes (Domain.ofGenerator .sha256).issuer (labelled looseLabel) ct ct' := by
  have identified : (Domain.ofGenerator .sha256).issuer.uid = .bytes [0] := rfl
  have hread := received_labelled identified packJson_looseLabel (fun _ => 0) .start
  exact ⟨_, identified, hread, rfl, exists_reencodes identified hread⟩

/-- **A received ciphertext that changes** when it is written and read again: its label is lost. -/
theorem received_paddedWord :
    (∀ draws trace, received (Domain.ofGenerator .sha256).issuer .ciphertext (labelled paddedWord)
        draws trace = .ok (ofIdentities (some sentinel)).toValue)
      ∧ ∃ t', toJson (ofIdentities (some sentinel)).toValue = .ok t'
        ∧ ∀ draws trace, received (Domain.ofGenerator .sha256).issuer .ciphertext t' draws trace
            = .ok (ofIdentities none).toValue := by
  have identified : (Domain.ofGenerator .sha256).issuer.uid = .bytes [0] := rfl
  have hread := received_labelled identified packJson_paddedWord
  exact ⟨hread, exists_rewritten identified (hread (fun _ => 0) .start)⟩

end Wire
end VerifiableEscrow
