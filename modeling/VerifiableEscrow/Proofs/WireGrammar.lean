import Mathlib.Logic.Relation
import VerifiableEscrow.Proofs.SafeReading
import VerifiableEscrow.Proofs.StrictBase64

/-!
# The first phase accepts exactly the wire grammar

Packing goes through the fields of a form one after another, and each of them may end it in several
ways.  Which values it accepts is nevertheless easily said, and the grammar below says it without
mentioning how packing proceeds: the value is a mapping, no field of the form is missing, all are
text but for the proof inside, which is a proof by the same grammar, and the label is the word for
none or strict Base64.

The bridge is the relation between contents and the mappings that present them.  Packing gives
exactly the contents that are presented (`packContents_eq_ok_iff`), and both what is accepted and
what a parcel contains are read off this.  That nothing else in a mapping matters is a property of
looking up names: packing asks for the fields of the form, and the answers do not depend on entries
with other keys or on the order of different keys.

* `Grammatical`: the grammar, and `exists_pack_iff`, that it is what is packed;
* `contains_of_pack`: what a parcel contains;
* `Edit`, `packContents_eq_of_edit`, `packContents_eq_of_eqvGen`: one change to keys that do not
  matter, and any number of them;
* `packsExactly`: **the first phase accepts exactly the wire grammar**.
-/

namespace VerifiableEscrow
namespace Wire

open Value (Holds Under)

/-! ## The grammar -/

/-- The names of the fields that are text: all but the proof inside. -/
def Form.plainNames (form : Form) : List String := form.fieldNames.filter (· ≠ "ieproof")

/-- The entries of a mapping have all fields of a form.  Of a field with no content, or with null,
it is said that it is missing; an empty text or an empty mapping is a content. -/
structure Complete (form : Form) (entries : List (Value × Value)) : Prop where
  present : ∀ name ∈ form.fieldNames, ∃ v, Under entries name v ∧ v ≠ .null
  plain : ∀ name ∈ form.plainNames, ∀ v, Under entries name v → ∃ t, v = .text t

/-- The wire grammar. -/
inductive Grammatical : Form → Value → Prop
  | simple {form : Form} {entries : List (Value × Value)} (hform : form ≠ .ciphertext)
      (fields : Complete form entries) : Grammatical form (.dict entries)
  | ciphertext {entries : List (Value × Value)} {proof : Value} {info : Text}
      (fields : Complete .ciphertext entries) (inside : Under entries "ieproof" proof)
      (hproof : Grammatical .proof proof) (hinfo : Under entries "info" (.text info))
      (label : info = noLabel ∨ ∃ bs, Base64.Strict info bs) :
      Grammatical .ciphertext (.dict entries)

/-! ## Packing, backwards -/

theorem entriesOf_eq_ok {form : Form} {v : Value} {entries : List (Value × Value)} :
    entriesOf form v = .ok entries ↔ v = .dict entries := by
  constructor
  · intro h
    cases v with
    | dict es => rw [Except.ok.inj h]
    | _ => cases h
  · rintro rfl
    rfl

theorem required_eq_ok_iff {form : Form} {entries : List (Value × Value)} {name : String}
    {v : Value} :
    required form entries name = .ok v ↔ Value.lookup? entries name = some v ∧ v ≠ .null := by
  constructor
  · intro h
    unfold required at h
    split at h
    next => cases h
    next => cases h
    next w hne hw =>
      cases h
      exact ⟨hw, hne⟩
  · rintro ⟨h, hne⟩
    exact required_eq_ok h hne

theorem requiredText_eq_ok_iff {form : Form} {entries : List (Value × Value)} {name : String}
    {t : Text} :
    requiredText form entries name = .ok t ↔ Value.lookup? entries name = some (.text t) := by
  constructor
  · intro h
    obtain ⟨v, hv, h⟩ := Except.bind_eq_ok.mp h
    split at h
    next =>
      cases h
      exact (required_eq_ok_iff.mp hv).1
    next => cases h
  · exact requiredText_eq_ok

/-- Text fields that have been asked for are held. -/
theorem holds_texts (form : Form) {entries : List (Value × Value)} {fs : List (String × Text)}
    (h : ∀ f ∈ fs, requiredText form entries f.1 = .ok f.2) : Holds (texts fs) (.dict entries) := by
  refine ⟨entries, rfl, fun f hf => ?_⟩
  obtain ⟨⟨name, t⟩, hmem, rfl⟩ := List.mem_map.mp hf
  exact requiredText_eq_ok_iff.mp (h (name, t) hmem)

theorem packProof_eq_ok_iff {v : Value} {p : ProofFields} :
    packProof v = .ok p ↔ Holds (texts p.named) v := by
  refine ⟨fun h => ?_, packProof_of_holds⟩
  unfold packProof at h
  obtain ⟨entries, hentries, h⟩ := Except.bind_eq_ok.mp h
  obtain ⟨c, hc, h⟩ := Except.bind_eq_ok.mp h
  obtain ⟨rXb, hrXb, h⟩ := Except.bind_eq_ok.mp h
  obtain ⟨rR, hrR, h⟩ := Except.bind_eq_ok.mp h
  obtain ⟨rOb, hrOb, h⟩ := Except.bind_eq_ok.mp h
  cases h
  rw [entriesOf_eq_ok.mp hentries]
  exact holds_texts .proof (by simp [ProofFields.named, hc, hrXb, hrR, hrOb])

/-- Contents of a form without a proof inside are presented by what holds their texts. -/
theorem presentedBy_of_holds {c : Contents} (hform : c.form ≠ .ciphertext) {v : Value}
    (h : Holds (texts c.outerTexts) v) : c.PresentedBy v := by
  have hinner : c.innerTexts = [] := by
    cases c with
    | ciphertext _ _ _ _ _ _ => exact absurd rfl hform
    | _ => rfl
  refine ⟨.dict [], ⟨[], rfl, by simp [hinner, texts]⟩, ?_⟩
  cases c with
  | ciphertext _ _ _ _ _ _ => exact absurd rfl hform
  | _ => exact h

/-- What is packed was presented. -/
theorem presentedBy_of_packContents {form : Form} {v : Value} {c : Contents}
    (h : packContents form v = .ok c) : c.PresentedBy v := by
  cases form with
  | domainParameters =>
    obtain ⟨entries, hentries, h⟩ := Except.bind_eq_ok.mp h
    obtain ⟨uidp, huidp, h⟩ := Except.bind_eq_ok.mp h
    obtain ⟨ge, hge, h⟩ := Except.bind_eq_ok.mp h
    cases h
    rw [entriesOf_eq_ok.mp hentries]
    exact presentedBy_of_holds Form.noConfusion (holds_texts .domainParameters
      (by simp [Contents.outerTexts, Parcel.fields, huidp, hge]))
  | publicKey =>
    obtain ⟨entries, hentries, h⟩ := Except.bind_eq_ok.mp h
    obtain ⟨t, ht, h⟩ := Except.bind_eq_ok.mp h
    cases h
    rw [entriesOf_eq_ok.mp hentries]
    exact presentedBy_of_holds Form.noConfusion (holds_texts .publicKey
      (by simp [Contents.outerTexts, Parcel.fields, ht]))
  | privateKey =>
    obtain ⟨entries, hentries, h⟩ := Except.bind_eq_ok.mp h
    obtain ⟨t, ht, h⟩ := Except.bind_eq_ok.mp h
    cases h
    rw [entriesOf_eq_ok.mp hentries]
    exact presentedBy_of_holds Form.noConfusion (holds_texts .privateKey
      (by simp [Contents.outerTexts, Parcel.fields, ht]))
  | proof =>
    obtain ⟨p, hp, h⟩ := Except.bind_eq_ok.mp h
    cases h
    exact presentedBy_of_holds Form.noConfusion (packProof_eq_ok_iff.mp hp)
  | ciphertext =>
    obtain ⟨entries, hentries, h⟩ := Except.bind_eq_ok.mp h
    obtain ⟨e1, he1, h⟩ := Except.bind_eq_ok.mp h
    obtain ⟨e2, he2, h⟩ := Except.bind_eq_ok.mp h
    obtain ⟨info, hinfo, h⟩ := Except.bind_eq_ok.mp h
    obtain ⟨proof, hproof, h⟩ := Except.bind_eq_ok.mp h
    obtain ⟨inner, hinner, h⟩ := Except.bind_eq_ok.mp h
    obtain ⟨label, -, h⟩ := Except.bind_eq_ok.mp h
    cases h
    refine ⟨proof, packProof_eq_ok_iff.mp hinner, entries, entriesOf_eq_ok.mp hentries, ?_⟩
    intro f hf
    simp only [Contents.fields, Contents.outerTexts, Parcel.fields, texts, List.map_cons,
      List.map_nil, List.cons_append, List.nil_append, List.mem_cons, List.not_mem_nil,
      or_false] at hf
    rcases hf with rfl | rfl | rfl | rfl
    · exact requiredText_eq_ok_iff.mp he1
    · exact requiredText_eq_ok_iff.mp he2
    · exact requiredText_eq_ok_iff.mp hinfo
    · exact (required_eq_ok_iff.mp hproof).1

/-- **What packing gives** are the contents of the form that the value presents, with the label
that stands in their text. -/
theorem packContents_eq_ok_iff {form : Form} {v : Value} {c : Contents} :
    packContents form v = .ok c ↔ c.form = form ∧ c.Fresh ∧ c.PresentedBy v := by
  constructor
  · intro h
    obtain ⟨hform, hfresh⟩ := (packContents_meets form v).of_ok h
    exact ⟨hform, hfresh, presentedBy_of_packContents h⟩
  · rintro ⟨rfl, hfresh, hpresented⟩
    exact packContents_of_presentedBy hfresh hpresented

/-- Packing as the kind of a form is packing the contents. -/
theorem pack_eq (form : Form) (v : Value) :
    pack (some (Text.of form.name)) v = (packContents form v).map fun c => ⟨c, false⟩ := by
  unfold pack
  rw [Option.bind_some, Form.ofName?_name]
  dsimp only
  cases packContents form v <;> rfl

theorem pack_eq_ok_iff {form : Form} {v : Value} {p : Parcel} :
    pack (some (Text.of form.name)) v = .ok p
      ↔ ∃ c : Contents, p = ⟨c, false⟩ ∧ c.form = form ∧ c.Fresh ∧ c.PresentedBy v := by
  rw [pack_eq, Except.map_eq_ok]
  simp only [packContents_eq_ok_iff]
  constructor
  · rintro ⟨c, h, rfl⟩
    exact ⟨c, rfl, h⟩
  · rintro ⟨c, rfl, h⟩
    exact ⟨c, h, rfl⟩

/-! ## What is packed is grammatical -/

/-- The fields of contents are text, but for the proof inside. -/
theorem Contents.text_or_eq_of_mem_fields {c : Contents} {proof : Value} {f : String × Value}
    (h : f ∈ c.fields proof) : (∃ t, f.2 = .text t) ∨ f = ("ieproof", proof) := by
  have htexts : f ∈ texts c.outerTexts → ∃ t, f.2 = .text t := fun hmem => by
    obtain ⟨g, -, rfl⟩ := List.mem_map.mp hmem
    exact ⟨g.2, rfl⟩
  cases c with
  | ciphertext _ _ _ _ _ _ =>
    rcases List.mem_append.mp h with hmem | hmem
    · exact .inl (htexts hmem)
    · exact .inr (List.mem_singleton.mp hmem)
  | _ => exact .inl (htexts h)

theorem complete_of_holds {c : Contents} {proof : Value} {entries : List (Value × Value)}
    (hproof : proof ≠ .null)
    (h : ∀ f ∈ c.fields proof, Value.lookup? entries f.1 = some f.2) : Complete c.form entries := by
  have hfield : ∀ name ∈ c.form.fieldNames, ∃ v, (name, v) ∈ c.fields proof
      ∧ Under entries name v := by
    intro name hname
    rw [← c.map_fst_fields proof] at hname
    obtain ⟨⟨name, v⟩, hmem, rfl⟩ := List.mem_map.mp hname
    exact ⟨v, hmem, Value.lookup?_eq_some_iff.mp (h _ hmem)⟩
  constructor
  · intro name hname
    obtain ⟨v, hmem, hv⟩ := hfield name hname
    refine ⟨v, hv, ?_⟩
    rcases Contents.text_or_eq_of_mem_fields hmem with ⟨t, rfl : v = .text t⟩ | heq
    · exact Value.noConfusion
    · obtain ⟨rfl, rfl⟩ := Prod.mk.inj heq
      exact hproof
  · intro name hname v hv
    obtain ⟨hname, hne⟩ := List.mem_filter.mp hname
    obtain ⟨w, hmem, hw⟩ := hfield name hname
    rw [hv.unique hw]
    refine (Contents.text_or_eq_of_mem_fields hmem).resolve_right fun heq => ?_
    exact of_decide_eq_true hne (Prod.ext_iff.mp heq).1

theorem labelOf_eq_ok_iff {info : Text} {label : Option Bytes} :
    labelOf info = .ok label ↔ (info = noLabel ∧ label = none)
      ∨ (info ≠ noLabel ∧ ∃ bs, Base64.Strict info bs ∧ label = some bs) := by
  by_cases h : info = noLabel
  · rw [labelOf, if_pos h]
    simp [h, eq_comm]
  · rw [labelOf, if_neg h, Except.map_eq_ok]
    simp only [fieldBytes_eq_ok_iff, Base64.decode?_eq_some_iff_strict, h]
    simp [h, eq_comm]

/-- Contents that are presented are presented grammatically. -/
theorem grammatical_of_presentedBy {c : Contents} {v : Value} (hfresh : c.Fresh)
    (h : c.PresentedBy v) : Grammatical c.form v := by
  have hsimple : ∀ {c : Contents} {v : Value}, c.form ≠ .ciphertext → c.PresentedBy v →
      Grammatical c.form v := by
    rintro c v hform ⟨proof, ⟨es, rfl, -⟩, entries, rfl, hfields⟩
    exact .simple hform (complete_of_holds Value.noConfusion hfields)
  cases c with
  | ciphertext e1 e2 info label inner innerOpened =>
    obtain ⟨proof, hproof, entries, rfl, hfields⟩ := h
    have hinfo : Under entries "info" (.text info) := Value.lookup?_eq_some_iff.mp
      (hfields ("info", .text info) (by simp [Contents.fields, Contents.outerTexts, Parcel.fields,
        texts]))
    have hinside : Under entries "ieproof" proof := Value.lookup?_eq_some_iff.mp
      (hfields ("ieproof", proof) (List.mem_append_right _ List.mem_cons_self))
    have hne : proof ≠ .null := by
      obtain ⟨es, rfl, -⟩ := hproof
      exact Value.noConfusion
    have hgrammatical : Grammatical (Contents.form (.proof inner)) proof :=
      hsimple Form.noConfusion (presentedBy_of_holds Form.noConfusion hproof)
    refine .ciphertext (complete_of_holds hne hfields) hinside hgrammatical hinfo ?_
    rcases labelOf_eq_ok_iff.mp hfresh.1 with ⟨hnone, -⟩ | ⟨-, bs, hbs, -⟩
    · exact .inl hnone
    · exact .inr ⟨bs, hbs⟩
  | _ => exact hsimple Form.noConfusion h

/-! ## What is grammatical is packed -/

theorem Complete.exists_text {form : Form} {entries : List (Value × Value)}
    (h : Complete form entries) (name : String) (hname : name ∈ form.plainNames) :
    ∃ t, Value.lookup? entries name = some (.text t) := by
  obtain ⟨v, hv, -⟩ := h.present name (List.mem_filter.mp hname).1
  obtain ⟨t, rfl⟩ := h.plain name hname v hv
  exact ⟨t, Value.lookup?_eq_some_iff.mpr hv⟩

/-- A mapping with all fields presents contents. -/
theorem Complete.exists_presented {form : Form} {entries : List (Value × Value)}
    (h : Complete form entries) (hform : form ≠ .ciphertext) :
    ∃ c : Contents, c.form = form ∧ c.Fresh ∧ c.PresentedBy (.dict entries) := by
  cases form with
  | domainParameters =>
    obtain ⟨uidp, huidp⟩ := h.exists_text "uidp" (by decide)
    obtain ⟨ge, hge⟩ := h.exists_text "ge" (by decide)
    refine ⟨.domainParameters uidp ge, rfl, trivial, ?_⟩
    refine presentedBy_of_holds Form.noConfusion ⟨entries, rfl, ?_⟩
    simp [texts, Contents.outerTexts, Parcel.fields, huidp, hge]
  | publicKey =>
    obtain ⟨t, ht⟩ := h.exists_text "H" (by decide)
    refine ⟨.publicKey t, rfl, trivial, ?_⟩
    refine presentedBy_of_holds Form.noConfusion ⟨entries, rfl, ?_⟩
    simp [texts, Contents.outerTexts, Parcel.fields, ht]
  | privateKey =>
    obtain ⟨t, ht⟩ := h.exists_text "x" (by decide)
    refine ⟨.privateKey t, rfl, trivial, ?_⟩
    refine presentedBy_of_holds Form.noConfusion ⟨entries, rfl, ?_⟩
    simp [texts, Contents.outerTexts, Parcel.fields, ht]
  | proof =>
    obtain ⟨c, hc⟩ := h.exists_text "c" (by decide)
    obtain ⟨rXb, hrXb⟩ := h.exists_text "rXb" (by decide)
    obtain ⟨rR, hrR⟩ := h.exists_text "rR" (by decide)
    obtain ⟨rOb, hrOb⟩ := h.exists_text "rOb" (by decide)
    refine ⟨.proof ⟨c, rXb, rR, rOb⟩, rfl, trivial, ?_⟩
    refine presentedBy_of_holds Form.noConfusion ⟨entries, rfl, ?_⟩
    simp [texts, Contents.outerTexts, Parcel.fields, ProofFields.named, hc, hrXb, hrR, hrOb]
  | ciphertext => exact absurd rfl hform

/-- What is grammatical presents contents. -/
theorem Grammatical.exists_presented {form : Form} {v : Value} (h : Grammatical form v) :
    ∃ c : Contents, c.form = form ∧ c.Fresh ∧ c.PresentedBy v := by
  induction h with
  | simple hform fields => exact fields.exists_presented hform
  | @ciphertext entries proof info fields inside _ hinfo hlabel ih =>
    obtain ⟨inner, hproof⟩ : ∃ inner : ProofFields, Holds (texts inner.named) proof := by
      obtain ⟨c, hc, -, _, -, hholds⟩ := ih
      cases c with
      | proof inner => exact ⟨inner, hholds⟩
      | _ => cases hc
    obtain ⟨label, hlabel⟩ : ∃ label, labelOf info = .ok label := by
      by_cases hnone : info = noLabel
      · exact ⟨none, labelOf_eq_ok_iff.mpr (.inl ⟨hnone, rfl⟩)⟩
      · obtain ⟨bs, hbs⟩ := hlabel.resolve_left hnone
        exact ⟨some bs, labelOf_eq_ok_iff.mpr (.inr ⟨hnone, bs, hbs, rfl⟩)⟩
    obtain ⟨e1, he1⟩ := fields.exists_text "E1" (by decide)
    obtain ⟨e2, he2⟩ := fields.exists_text "E2" (by decide)
    refine ⟨.ciphertext e1 e2 info label inner false, rfl, ⟨hlabel, rfl⟩, proof, hproof, entries,
      rfl, ?_⟩
    simp [Contents.fields, texts, Contents.outerTexts, Parcel.fields, he1, he2,
      Value.lookup?_eq_some_iff.mpr hinfo, Value.lookup?_eq_some_iff.mpr inside]

/-- **A value is packed exactly when it is grammatical.** -/
theorem exists_pack_iff {form : Form} {v : Value} :
    (∃ p, pack (some (Text.of form.name)) v = .ok p) ↔ Grammatical form v := by
  simp only [pack_eq_ok_iff]
  constructor
  · rintro ⟨p, c, -, rfl, hfresh, h⟩
    exact grammatical_of_presentedBy hfresh h
  · intro h
    obtain ⟨c, hc⟩ := h.exists_presented
    exact ⟨_, c, rfl, hc⟩

/-! ## What a parcel contains -/

/-- What a parcel contains that is packed from a mapping. -/
structure Contains (p : Parcel) (form : Form) (entries : List (Value × Value)) : Prop where
  form_eq : p.form = form
  /-- The text fields are those of the form, with their texts as they came. -/
  names : p.fields.map Prod.fst = form.plainNames
  texts : ∀ f ∈ p.fields, Under entries f.1 (.text f.2)
  unopened : p.opened = false
  /-- A ciphertext has the proof inside, packed and not opened, and nothing else does. -/
  inside : form = .ciphertext → ∃ inner proof, p.inner? = some inner ∧ inner.opened = false
    ∧ Under entries "ieproof" proof ∧ pack (some (Text.of Form.proof.name)) proof = .ok inner
  inside_none : form ≠ .ciphertext → p.inner? = none
  /-- A ciphertext has the label that is decoded from its text, and nothing else does. -/
  label : form = .ciphertext → ∀ info, Under entries "info" (.text info) →
    (p.label = none ↔ info = noLabel) ∧ ∀ bs, p.label = some bs → Base64.Strict info bs
  label_none : form ≠ .ciphertext → p.label = none

/-- Contents of any form but a ciphertext have no proof inside, and no label. -/
theorem Contents.inner?_and_label_of_ne {c : Contents} (hform : c.form ≠ .ciphertext) :
    Parcel.inner? ⟨c, false⟩ = none ∧ Parcel.label ⟨c, false⟩ = none := by
  cases c with
  | ciphertext _ _ _ _ _ _ => exact absurd rfl hform
  | _ => exact ⟨rfl, rfl⟩

/-- The proof inside a ciphertext is packed in its turn, and not opened. -/
theorem Contents.Fresh.exists_inner {c : Contents} (hfresh : c.Fresh) (hform : c.form = .ciphertext)
    {proof : Value} (hproof : Holds (texts c.innerTexts) proof) :
    ("ieproof", proof) ∈ c.fields proof ∧ ∃ inner, Parcel.inner? ⟨c, false⟩ = some inner
      ∧ inner.opened = false ∧ pack (some (Text.of Form.proof.name)) proof = .ok inner := by
  cases c with
  | ciphertext e1 e2 info label inner innerOpened =>
    obtain ⟨-, rfl⟩ := hfresh
    refine ⟨List.mem_append_right _ List.mem_cons_self, ⟨.proof inner, false⟩, rfl, rfl, ?_⟩
    exact pack_eq_ok_iff.mpr ⟨.proof inner, rfl, rfl, trivial,
      presentedBy_of_holds Form.noConfusion hproof⟩
  | _ => exact Form.noConfusion hform

/-- The label of a ciphertext is decoded from its text. -/
theorem Contents.Fresh.exists_info {c : Contents} (hfresh : c.Fresh)
    (hform : c.form = .ciphertext) :
    ∃ info, ("info", info) ∈ c.outerTexts ∧ (Parcel.label ⟨c, false⟩ = none ↔ info = noLabel)
      ∧ ∀ bs, Parcel.label ⟨c, false⟩ = some bs → Base64.Strict info bs := by
  cases c with
  | ciphertext e1 e2 info label inner innerOpened =>
    refine ⟨info, by simp [Contents.outerTexts, Parcel.fields], ?_⟩
    show (label = none ↔ info = noLabel) ∧ ∀ bs, label = some bs → Base64.Strict info bs
    rcases labelOf_eq_ok_iff.mp hfresh.1 with ⟨hnone, rfl⟩ | ⟨hne, bs, hbs, rfl⟩
    · exact ⟨⟨fun _ => hnone, fun _ => rfl⟩, fun bs hbs => absurd hbs.symm (Option.some_ne_none bs)⟩
    · refine ⟨⟨fun hsome => absurd hsome (Option.some_ne_none bs), fun hnone => absurd hnone hne⟩,
        fun bs' hbs' => ?_⟩
      rwa [← Option.some.inj hbs']
  | _ => exact Form.noConfusion hform

theorem contains_of_pack {form : Form} {v : Value} {p : Parcel}
    (h : pack (some (Text.of form.name)) v = .ok p) :
    ∃ entries, v = .dict entries ∧ Contains p form entries := by
  obtain ⟨c, rfl, rfl, hfresh, proof, hproof, entries, rfl, hfields⟩ := pack_eq_ok_iff.mp h
  have hunder : ∀ f ∈ c.fields proof, Under entries f.1 f.2 := fun f hf =>
    Value.lookup?_eq_some_iff.mp (hfields f hf)
  have htexts : ∀ f ∈ c.outerTexts, Under entries f.1 (.text f.2) := fun f hf =>
    hunder (f.1, .text f.2)
      (Contents.mem_fields_of_mem_texts proof (List.mem_map.mpr ⟨f, hf, rfl⟩))
  refine ⟨entries, rfl, rfl, ?_, htexts, rfl, ?_, fun hform =>
    (Contents.inner?_and_label_of_ne hform).1, ?_, fun hform =>
    (Contents.inner?_and_label_of_ne hform).2⟩
  · cases c <;> rfl
  · intro hform
    obtain ⟨hmem, inner, hinner, hopened, hpack⟩ := hfresh.exists_inner hform hproof
    exact ⟨inner, proof, hinner, hopened, hunder _ hmem, hpack⟩
  · intro hform info hinfo
    obtain ⟨info', hmem, hlabel⟩ := hfresh.exists_info hform
    obtain rfl : info = info' := Value.text.inj (hinfo.unique (htexts _ hmem))
    exact hlabel

/-! ## Keys that do not matter -/

/-- One change to the keys of a mapping that a form does not ask for, or to the order of keys.
Removing a key is adding it, backwards. -/
inductive Edit : Form → Value → Value → Prop
  | add {form : Form} {key : Value} (hkey : ∀ name ∈ form.fieldNames, key ≠ .text (Text.of name))
      (v : Value) (front back : List (Value × Value)) :
      Edit form (.dict (front ++ back)) (.dict (front ++ (key, v) :: back))
  | swap {form : Form} {e e' : Value × Value} (hkeys : e.1 ≠ e'.1)
      (front back : List (Value × Value)) :
      Edit form (.dict (front ++ e :: e' :: back)) (.dict (front ++ e' :: e :: back))
  | inside {v v' : Value} (h : Edit .proof v v') (front back : List (Value × Value)) :
      Edit .ciphertext (.dict (front ++ (.text (Text.of "ieproof"), v) :: back))
        (.dict (front ++ (.text (Text.of "ieproof"), v') :: back))

section Lookups

variable {form : Form} {es es' : List (Value × Value)}

theorem requiredText_congr {name : String}
    (h : Value.lookup? es name = Value.lookup? es' name) :
    requiredText form es name = requiredText form es' name := by
  rw [requiredText, requiredText, required, required, h]

/-- Packing a proof asks for its fields. -/
theorem packProof_congr
    (h : ∀ name ∈ Form.proof.fieldNames, Value.lookup? es name = Value.lookup? es' name) :
    packProof (.dict es) = packProof (.dict es') := by
  have htext : ∀ name ∈ Form.proof.fieldNames,
      requiredText .proof es name = requiredText .proof es' name := fun name hname =>
    requiredText_congr (h name hname)
  unfold packProof entriesOf
  simp only [htext "c" (by decide), htext "rXb" (by decide), htext "rR" (by decide),
    htext "rOb" (by decide), bind, Except.bind]

/-- Packing asks for the text fields, and a ciphertext also for the proof inside. -/
theorem packContents_congr
    (h : ∀ name ∈ form.plainNames, Value.lookup? es name = Value.lookup? es' name)
    (hinside : form = .ciphertext → required .ciphertext es "ieproof" >>= packProof
      = required .ciphertext es' "ieproof" >>= packProof) :
    packContents form (.dict es) = packContents form (.dict es') := by
  have htext : ∀ name ∈ form.plainNames, requiredText form es name = requiredText form es' name :=
    fun name hname => requiredText_congr (h name hname)
  have hentries : ∀ {α : Type} (es : List (Value × Value))
      (next : List (Value × Value) → Except Fault α),
      entriesOf form (.dict es) >>= next = next es := fun es next => rfl
  cases form with
  | domainParameters =>
    dsimp only [packContents]
    rw [hentries, hentries, htext "uidp" (by decide), htext "ge" (by decide)]
  | publicKey =>
    dsimp only [packContents]
    rw [hentries, hentries, htext "H" (by decide)]
  | privateKey =>
    dsimp only [packContents]
    rw [hentries, hentries, htext "x" (by decide)]
  | proof =>
    dsimp only [packContents]
    rw [packProof_congr h]
  | ciphertext =>
    dsimp only [packContents]
    rw [hentries, hentries, htext "E1" (by decide), htext "E2" (by decide),
      htext "info" (by decide)]
    refine bind_congr fun e1 => bind_congr fun e2 => bind_congr fun info => ?_
    rw [← bind_assoc, ← bind_assoc, hinside rfl]

end Lookups

theorem ne_null_of_edit {form : Form} {v v' : Value} (h : Edit form v v') :
    v ≠ .null ∧ v' ≠ .null := by
  cases h <;> exact ⟨Value.noConfusion, Value.noConfusion⟩

theorem packProof_eq_of_edit {v v' : Value} (h : Edit .proof v v') :
    packProof v = packProof v' := by
  cases h with
  | add hkey w front back =>
    exact packProof_congr fun name hname =>
      (Value.lookup?_insert_of_ne (hkey name hname) front back).symm
  | swap hkeys front back =>
    exact packProof_congr fun name _ => Value.lookup?_swap hkeys front back name

/-- The content of a field may be exchanged for one that is packed alike. -/
theorem required_bind_congr {v v' : Value} (hv : v ≠ .null) (hv' : v' ≠ .null)
    (h : packProof v = packProof v') (front back : List (Value × Value)) (name : String) :
    required .ciphertext (front ++ (.text (Text.of name), v) :: back) name >>= packProof
      = required .ciphertext (front ++ (.text (Text.of name), v') :: back) name >>= packProof := by
  have hlookup : ∀ w, Value.lookup? (front ++ (.text (Text.of name), w) :: back) name
      = (Value.lookup? back name).or (some w) := fun w => by
    rw [Value.lookup?_append, Value.lookup?_cons, Value.lookupStep_self, Option.or_assoc,
      Option.some_or]
  cases hback : Value.lookup? back name with
  | some w =>
    -- a later entry counts, and it is the same in both
    rw [required, required, hlookup, hlookup, hback, Option.some_or, Option.some_or]
  | none =>
    have hfound : ∀ w, Value.lookup? (front ++ (.text (Text.of name), w) :: back) name = some w :=
      fun w => by rw [hlookup, hback, Option.none_or]
    rw [required_eq_ok (hfound v) hv, required_eq_ok (hfound v') hv']
    exact h

/-- **One change does not matter.** -/
theorem packContents_eq_of_edit {form : Form} {v v' : Value} (h : Edit form v v') :
    packContents form v = packContents form v' := by
  cases h with
  | add hkey w front back =>
    have hlookup : ∀ name ∈ form.fieldNames, Value.lookup? (front ++ back) name
        = Value.lookup? (front ++ (_, w) :: back) name := fun name hname =>
      (Value.lookup?_insert_of_ne (hkey name hname) front back).symm
    refine packContents_congr (fun name hname => hlookup name (List.mem_filter.mp hname).1) ?_
    rintro rfl
    rw [required, required, hlookup "ieproof" (by decide)]
  | swap hkeys front back =>
    refine packContents_congr (fun name _ => Value.lookup?_swap hkeys front back name) fun _ => ?_
    rw [required, required, Value.lookup?_swap hkeys]
  | inside hproof front back =>
    have hne : ∀ name ∈ Form.ciphertext.plainNames,
        Value.text (Text.of "ieproof") ≠ .text (Text.of name) := fun name hname htext =>
      (by decide : ∀ name ∈ Form.ciphertext.plainNames, Text.of "ieproof" ≠ Text.of name) name
        hname (Value.text.inj htext)
    refine packContents_congr (fun name hname => ?_) fun _ => ?_
    · rw [Value.lookup?_insert_of_ne (hne name hname), Value.lookup?_insert_of_ne (hne name hname)]
    · exact required_bind_congr (ne_null_of_edit hproof).1 (ne_null_of_edit hproof).2
        (packProof_eq_of_edit hproof) front back "ieproof"

/-- Neither do any number of changes, in either direction. -/
theorem packContents_eq_of_eqvGen {form : Form} {v v' : Value}
    (h : Relation.EqvGen (Edit form) v v') : packContents form v = packContents form v' := by
  induction h with
  | rel _ _ h => exact packContents_eq_of_edit h
  | refl _ => rfl
  | symm _ _ _ ih => exact ih.symm
  | trans _ _ _ _ _ ih ih' => exact ih.trans ih'

/-! ## Exactness -/

/-- The first phase accepts the wire grammar of a form and nothing else. -/
structure PacksExactly (form : Form) (v : Value) : Prop where
  accepted_iff : (∃ p, pack (some (Text.of form.name)) v = .ok p) ↔ Grammatical form v
  /-- What is not grammatical is refused as a wire form, by no other fault. -/
  refused : ¬Grammatical form v → ∃ why, pack (some (Text.of form.name)) v = .error (.wire why)
  contains : ∀ p, pack (some (Text.of form.name)) v = .ok p →
    ∃ entries, v = .dict entries ∧ Contains p form entries
  /-- Adding, removing and moving keys that are not asked for changes nothing. -/
  stable : ∀ v', Relation.EqvGen (Edit form) v v' →
    pack (some (Text.of form.name)) v' = pack (some (Text.of form.name)) v

/-- **The first phase accepts exactly the wire grammar**, for every form and every value. -/
theorem packsExactly (form : Form) (v : Value) : PacksExactly form v where
  accepted_iff := exists_pack_iff
  refused h := by
    cases hpack : pack (some (Text.of form.name)) v with
    | ok p => exact absurd (exists_pack_iff.mp ⟨p, hpack⟩) h
    | error fault =>
      obtain ⟨why, rfl⟩ := (pack_meets _ v).of_error hpack
      exact ⟨why, rfl⟩
  contains p := contains_of_pack
  stable v' h := by rw [pack_eq, pack_eq, packContents_eq_of_eqvGen h]

end Wire
end VerifiableEscrow
