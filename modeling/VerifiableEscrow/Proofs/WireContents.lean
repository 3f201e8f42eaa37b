import VerifiableEscrow.Proofs.CborRoundTrip
import VerifiableEscrow.Proofs.JsonRoundTrip
import VerifiableEscrow.Proofs.Success
import VerifiableEscrow.Wire.Parcel

/-!
# Contents and the mappings that present them

A parcel's contents are packed from a mapping, and packing asks for the fields by name.  So
contents have many mappings that *present* them, whatever the order of the entries.  This is
what makes one argument do for all carriers.  JSON keeps the order and canonical CBOR does not,
but both keep texts, and of mappings everything but the order (`IsCarrier`).

* `Contents.toValue`: the mapping that contents are written as;
* `IsCarrier.exists_presentedBy`: what a carrier makes of it presents the contents;
* `packContents_of_presentedBy`: packing what presents contents gives them;
* `isCarrier_json`, `isCarrier_cbor`: the two carriers.
-/

namespace VerifiableEscrow
namespace Wire

open Value (Holds named)

/-! ## Mappings that present contents -/

/-- Text fields as contents of a mapping. -/
def texts (fs : List (String × Text)) : List (String × Value) := fs.map fun f => (f.1, .text f.2)

theorem map_fst_texts (fs : List (String × Text)) :
    (texts fs).map Prod.fst = fs.map Prod.fst := by
  rw [texts, List.map_map]
  rfl

/-- The mapping that has contents under their names, in order. -/
def mapping (fs : List (String × Value)) : Value := .dict (Value.ofEntries (named fs))

theorem mapping_texts_append (fs : List (String × Text)) (rest : List (String × Value)) :
    mapping (texts fs ++ rest)
      = .dict (fs.map (fun f => field f.1 f.2)
          ++ rest.map fun f => (.text (Text.of f.1), f.2)) := by
  rw [mapping, named, Value.ofEntries, texts, List.map_append, List.map_append, List.map_map,
    List.map_map, List.map_map]
  rfl

theorem mapping_texts (fs : List (String × Text)) :
    mapping (texts fs) = .dict (fs.map fun f => field f.1 f.2) := by
  rw [← List.append_nil (texts fs), mapping_texts_append, List.map_nil, List.append_nil]

namespace Contents

/-- The form of contents. -/
def form (c : Contents) : Form := Parcel.form ⟨c, false⟩

/-- The text fields of contents. -/
def outerTexts (c : Contents) : List (String × Text) := Parcel.fields ⟨c, false⟩

/-- The text fields of the proof inside. -/
def innerTexts : Contents → List (String × Text)
  | .ciphertext _ _ _ _ inner _ => inner.named
  | _ => []

/-- The fields of contents, with a value in place of the proof inside. -/
def fields (c : Contents) (proof : Value) : List (String × Value) :=
  match c with
  | .ciphertext _ _ _ _ _ _ => texts c.outerTexts ++ [("ieproof", proof)]
  | _ => texts c.outerTexts

/-- The mapping that contents are written as. -/
def toValue (c : Contents) : Value := mapping (c.fields (mapping (texts c.innerTexts)))

/-- Contents are presented by a mapping that holds their fields, the proof inside being
presented likewise. -/
def PresentedBy (c : Contents) (v : Value) : Prop :=
  ∃ proof, Holds (texts c.innerTexts) proof ∧ Holds (c.fields proof) v

/-- The mapping that contents are written as, entry by entry. -/
theorem toValue_eq (c : Contents) :
    c.toValue = .dict (c.outerTexts.map (fun f => field f.1 f.2)
      ++ match c with
        | .ciphertext _ _ _ _ inner _ =>
            [(.text (Text.of "ieproof"), .dict (inner.named.map fun f => field f.1 f.2))]
        | _ => []) := by
  cases c with
  | ciphertext _ _ _ _ _ _ =>
    rw [toValue, fields, mapping_texts_append, mapping_texts]
    rfl
  | _ =>
    dsimp only [toValue, fields]
    rw [mapping_texts, List.append_nil]

theorem mem_fields_of_mem_texts {c : Contents} (proof : Value) {f : String × Value}
    (h : f ∈ texts c.outerTexts) : f ∈ c.fields proof := by
  cases c with
  | ciphertext _ _ _ _ _ _ => exact List.mem_append_left _ h
  | _ => exact h

theorem map_fst_fields (c : Contents) (proof : Value) :
    (c.fields proof).map Prod.fst = c.form.fieldNames := by
  cases c <;> rfl

/-- The names of the text fields inside are those of a proof, or there are none. -/
theorem map_fst_innerTexts (c : Contents) :
    (c.innerTexts.map Prod.fst).Sublist Form.proof.fieldNames := by
  cases c with
  | ciphertext _ _ _ _ _ _ => exact List.Sublist.refl _
  | _ => exact List.nil_sublist _

theorem name_mem_of_mem_outerTexts {c : Contents} {f : String × Text} (h : f ∈ c.outerTexts) :
    f.1 ∈ c.form.fieldNames := by
  rw [← c.map_fst_fields .null]
  have hmem : (f.1, Value.text f.2) ∈ texts c.outerTexts := List.mem_map.mpr ⟨f, h, rfl⟩
  exact List.mem_map.mpr ⟨_, mem_fields_of_mem_texts .null hmem, rfl⟩

theorem name_mem_of_mem_innerTexts {c : Contents} {f : String × Text} (h : f ∈ c.innerTexts) :
    f.1 ∈ Form.proof.fieldNames :=
  c.map_fst_innerTexts.subset (List.mem_map_of_mem h)

end Contents

/-- The names of the fields of a form are different from one another, and there are few. -/
theorem nodup_fieldNames (form : Form) : (form.fieldNames.map Text.of).Nodup := by
  cases form <;> decide

/-- The names of the fields are plain and short. -/
theorem all_isPlainChar_fieldNames (form : Form) : form.fieldNames.all
    (fun name => name.toList.all Text.isPlainChar && name.toList.length < 24) = true := by
  cases form <;> decide

theorem isPlain_fieldName {form : Form} {name : String} (h : name ∈ form.fieldNames) :
    (Text.of name).IsPlain ∧ (Text.of name).length < 24 := by
  have hall := List.all_eq_true.mp (all_isPlainChar_fieldNames form) name h
  rw [Bool.and_eq_true, decide_eq_true_eq] at hall
  refine ⟨Text.isPlain_ofChars hall.1, ?_⟩
  rw [Text.of, Text.length_ofChars]
  exact hall.2

theorem length_fieldNames_lt (form : Form) : form.fieldNames.length < 24 := by
  cases form <;> decide

/-! ## Packing -/

theorem required_eq_ok {form : Form} {entries : List (Value × Value)} {name : String} {v : Value}
    (h : Value.lookup? entries name = some v) (hv : v ≠ .null) :
    required form entries name = .ok v := by
  rw [required, h]
  cases v with
  | null => exact absurd rfl hv
  | _ => rfl

theorem requiredText_eq_ok {form : Form} {entries : List (Value × Value)} {name : String}
    {t : Text} (h : Value.lookup? entries name = some (.text t)) :
    requiredText form entries name = .ok t :=
  Except.bind_eq_ok.mpr ⟨.text t, required_eq_ok h (fun he => nomatch he), rfl⟩

/-- A text field of a mapping that holds it. -/
theorem requiredText_of_holds {form : Form} {fs : List (String × Text)}
    {entries : List (Value × Value)}
    (h : ∀ f ∈ texts fs, Value.lookup? entries f.1 = some f.2) {name : String} {t : Text}
    (hmem : (name, t) ∈ fs) : requiredText form entries name = .ok t :=
  requiredText_eq_ok (h (name, .text t) (List.mem_map.mpr ⟨(name, t), hmem, rfl⟩))

theorem packProof_of_holds {p : ProofFields} {v : Value} (h : Holds (texts p.named) v) :
    packProof v = .ok p := by
  obtain ⟨entries, rfl, hfields⟩ := h
  have hfield {name : String} {t : Text} (hmem : (name, t) ∈ p.named) :
      requiredText .proof entries name = .ok t := requiredText_of_holds hfields hmem
  unfold packProof
  simp only [Except.bind_eq_ok]
  exact ⟨entries, rfl, p.c, hfield (by simp [ProofFields.named]), p.rXb,
    hfield (by simp [ProofFields.named]), p.rR, hfield (by simp [ProofFields.named]), p.rOb,
    hfield (by simp [ProofFields.named]), rfl⟩

/-- Contents as packing makes them: the label belongs to its text, and the proof inside has not
been opened. -/
def Contents.Fresh : Contents → Prop
  | .ciphertext _ _ info label _ innerOpened => labelOf info = .ok label ∧ innerOpened = false
  | _ => True

/-- **Packing what presents contents** gives the contents. -/
theorem packContents_of_presentedBy {c : Contents} {v : Value} (hfresh : c.Fresh)
    (h : c.PresentedBy v) : packContents c.form v = .ok c := by
  obtain ⟨proof, hproof, entries, rfl, hfields⟩ := h
  have hfield {name : String} {t : Text} (hmem : (name, t) ∈ c.outerTexts) :
      requiredText c.form entries name = .ok t :=
    requiredText_of_holds (fun f hf => hfields f (Contents.mem_fields_of_mem_texts proof hf)) hmem
  cases c with
  | domainParameters uidp ge =>
    refine Except.bind_eq_ok.mpr ⟨entries, rfl, ?_⟩
    refine Except.bind_eq_ok.mpr ⟨uidp, hfield List.mem_cons_self, ?_⟩
    exact Except.bind_eq_ok.mpr ⟨ge, hfield (List.mem_cons_of_mem _ List.mem_cons_self), rfl⟩
  | publicKey h =>
    refine Except.bind_eq_ok.mpr ⟨entries, rfl, ?_⟩
    exact Except.bind_eq_ok.mpr ⟨h, hfield List.mem_cons_self, rfl⟩
  | privateKey x =>
    refine Except.bind_eq_ok.mpr ⟨entries, rfl, ?_⟩
    exact Except.bind_eq_ok.mpr ⟨x, hfield List.mem_cons_self, rfl⟩
  | proof p =>
    have hpack : packProof (.dict entries) = .ok p := packProof_of_holds ⟨entries, rfl, hfields⟩
    exact Except.bind_eq_ok.mpr ⟨p, hpack, rfl⟩
  | ciphertext e1 e2 info label inner innerOpened =>
    obtain ⟨hlabel, rfl⟩ := hfresh
    have hinner : required .ciphertext entries "ieproof" = .ok proof := by
      obtain ⟨es, rfl, -⟩ := hproof
      refine required_eq_ok (hfields ("ieproof", .dict es) ?_) (fun he => nomatch he)
      exact List.mem_append_right _ List.mem_cons_self
    refine Except.bind_eq_ok.mpr ⟨entries, rfl, ?_⟩
    refine Except.bind_eq_ok.mpr ⟨e1, hfield (by simp [Contents.outerTexts, Parcel.fields]), ?_⟩
    refine Except.bind_eq_ok.mpr ⟨e2, hfield (by simp [Contents.outerTexts, Parcel.fields]), ?_⟩
    refine Except.bind_eq_ok.mpr ⟨info, hfield (by simp [Contents.outerTexts, Parcel.fields]), ?_⟩
    refine Except.bind_eq_ok.mpr ⟨proof, hinner, ?_⟩
    refine Except.bind_eq_ok.mpr ⟨inner, packProof_of_holds hproof, ?_⟩
    exact Except.bind_eq_ok.mpr ⟨label, hlabel, rfl⟩

/-! ## Carriers -/

/-- What a carrier makes of values, up to a depth of brackets and for texts that suit it.  Texts
are kept, and of a mapping everything but the order of the entries. -/
structure IsCarrier (suits : Text → Prop) (carried : Nat → Value → Value → Prop) : Prop where
  mono : ∀ {depth depth' v w}, depth ≤ depth' → carried depth v w → carried depth' v w
  text : ∀ {t}, suits t → carried 0 (.text t) (.text t)
  mapping : ∀ {depth} {es es' : List (Text × Value)},
    List.Forall₂ (fun e e' => e.1 = e'.1 ∧ suits e.1 ∧ carried depth e.2 e'.2) es es' →
    (es'.map Prod.fst).Nodup → es.length < 24 →
    ∃ es'', es''.Perm es' ∧
      carried (depth + 1) (.dict (Value.ofEntries es)) (.dict (Value.ofEntries es''))

namespace IsCarrier

variable {suits : Text → Prop} {carried : Nat → Value → Value → Prop}

theorem exists_holds (hcarrier : IsCarrier suits carried) {depth : Nat}
    {fs fs' : List (String × Value)}
    (h : List.Forall₂
      (fun f f' => f.1 = f'.1 ∧ suits (Text.of f.1) ∧ carried depth f.2 f'.2) fs fs')
    {form : Form} (hnames : (fs'.map Prod.fst).Sublist form.fieldNames) :
    ∃ w, carried (depth + 1) (Wire.mapping fs) w ∧ Holds fs' w := by
  have hentries : List.Forall₂ (fun e e' => e.1 = e'.1 ∧ suits e.1 ∧ carried depth e.2 e'.2)
      (named fs) (named fs') := by
    rw [named, named, List.forall₂_map_left_iff, List.forall₂_map_right_iff]
    exact h.imp fun f f' hf => ⟨congrArg Text.of hf.1, hf.2.1, hf.2.2⟩
  have hnodup : ((fs'.map Prod.fst).map Text.of).Nodup :=
    (nodup_fieldNames form).sublist (hnames.map Text.of)
  have hkeys : ((named fs').map Prod.fst).Nodup := by
    rw [Value.map_fst_named]
    exact hnodup
  have hfew : (named fs).length < 24 := by
    have hle := hnames.length_le
    rw [List.length_map, ← h.length_eq] at hle
    rw [named, List.length_map]
    exact Nat.lt_of_le_of_lt hle (length_fieldNames_lt form)
  obtain ⟨es, hperm, hw⟩ := hcarrier.mapping hentries hkeys hfew
  exact ⟨_, hw, Value.holds_of_perm hnodup hperm⟩

theorem forall₂_texts (hcarrier : IsCarrier suits carried) (depth : Nat)
    {fs : List (String × Text)} (h : ∀ f ∈ fs, suits (Text.of f.1) ∧ suits f.2) :
    List.Forall₂ (fun f f' => f.1 = f'.1 ∧ suits (Text.of f.1) ∧ carried depth f.2 f'.2)
      (texts fs) (texts fs) := by
  rw [texts, List.forall₂_map_left_iff, List.forall₂_map_right_iff, List.forall₂_same]
  intro f hf
  exact ⟨rfl, (h f hf).1, hcarrier.mono (Nat.zero_le depth) (hcarrier.text (h f hf).2)⟩

theorem forall₂_fields (hcarrier : IsCarrier suits carried) {depth : Nat} {c : Contents}
    (hnames : ∀ form : Form, ∀ name ∈ form.fieldNames, suits (Text.of name))
    (htexts : ∀ f ∈ c.outerTexts, suits f.2) {proof proof' : Value}
    (hproof : carried depth proof proof') :
    List.Forall₂ (fun f f' => f.1 = f'.1 ∧ suits (Text.of f.1) ∧ carried depth f.2 f'.2)
      (c.fields proof) (c.fields proof') := by
  have houter := hcarrier.forall₂_texts depth fun f hf =>
    ⟨hnames c.form f.1 (Contents.name_mem_of_mem_outerTexts hf), htexts f hf⟩
  cases c with
  | ciphertext _ _ _ _ _ _ =>
    have hname := hnames .ciphertext "ieproof" (by decide)
    exact List.rel_append houter (.cons ⟨rfl, hname, hproof⟩ .nil)
  | _ => exact houter

/-- **What a carrier makes of contents** presents them. -/
theorem exists_presentedBy (hcarrier : IsCarrier suits carried) {c : Contents}
    (hnames : ∀ form : Form, ∀ name ∈ form.fieldNames, suits (Text.of name))
    (houter : ∀ f ∈ c.outerTexts, suits f.2) (hinner : ∀ f ∈ c.innerTexts, suits f.2) :
    ∃ w, carried 2 c.toValue w ∧ c.PresentedBy w := by
  have hinner' := hcarrier.forall₂_texts 0 fun f hf =>
    ⟨hnames .proof f.1 (Contents.name_mem_of_mem_innerTexts hf), hinner f hf⟩
  obtain ⟨proof, hproof, hholds⟩ :=
    hcarrier.exists_holds hinner' (map_fst_texts c.innerTexts ▸ c.map_fst_innerTexts)
  have hfields : ((c.fields proof).map Prod.fst).Sublist c.form.fieldNames := by
    rw [c.map_fst_fields proof]
  obtain ⟨w, hw, hholds'⟩ :=
    hcarrier.exists_holds (hcarrier.forall₂_fields hnames houter hproof) hfields
  exact ⟨w, hw, proof, hholds, hholds'⟩

end IsCarrier

/-- JSON gives back every value that it carries. -/
theorem eq_of_forall₂_roundTrips {es es' : List (Text × Value)}
    (h : List.Forall₂ (fun e e' => e.1 = e'.1 ∧ e.1.IsPlain ∧ Json.RoundTrips e.2 ∧ e'.2 = e.2)
      es es') : es' = es ∧ ∀ e ∈ es, e.1.IsPlain ∧ Json.RoundTrips e.2 := by
  induction h with
  | nil => exact ⟨rfl, fun e he => nomatch he⟩
  | cons he _ ih =>
    obtain ⟨hkey, hplain, hcontent, hsame⟩ := he
    exact ⟨congrArg₂ _ (Prod.ext hkey.symm hsame) ih.1,
      List.forall_mem_cons.mpr ⟨⟨hplain, hcontent⟩, ih.2⟩⟩

theorem isCarrier_json :
    IsCarrier Text.IsPlain fun _ v w => Json.RoundTrips v ∧ w = v where
  mono := fun _ h => h
  text := fun h => ⟨Json.roundTrips_text (Json.stringCarries_of_isPlain h), rfl⟩
  mapping := by
    intro _ es es' h hnodup _
    obtain ⟨rfl, hall⟩ := eq_of_forall₂_roundTrips h
    refine ⟨es', List.Perm.refl es', ?_, rfl⟩
    exact Json.roundTrips_dict (fun e he => Json.stringCarries_of_isPlain (hall e he).1)
      (fun e he => (hall e he).2) hnodup

theorem isCarrier_cbor :
    IsCarrier (fun t => t.IsPlain ∧ t.length < BigEndian.capacity 8) Cbor.Carried where
  mono := fun hle h => h.mono hle
  text := fun h => Cbor.carried_text h.1.isFileSafe h.2
  mapping := by
    intro depth es es' h hnodup hfew
    refine Cbor.carried_dict (h.imp fun e e' he => ?_) hnodup (Nat.lt_trans hfew (by decide))
    exact ⟨he.1, he.2.1.1.isFileSafe, he.2.1.2, he.2.2⟩

end Wire
end VerifiableEscrow
