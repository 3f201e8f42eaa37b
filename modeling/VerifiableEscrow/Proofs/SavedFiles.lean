import VerifiableEscrow.Proofs.Base64RoundTrip
import VerifiableEscrow.Proofs.Directories
import VerifiableEscrow.Proofs.JsonData
import VerifiableEscrow.Proofs.WireContents

/-!
# What is saved comes back

Saving can fail in three ways, by the value, by the path and by what is written.  The wire form of a
value is made before anything is touched, so a value without one changes nothing.  And a wire form
is texts in mappings, however deep, so all of it can be written, and only the path is left to fail.

* `ofValue_meets`: every wire form is a value that JSON gives back;
* `savesOrRefuses`: **a value is refused with nothing touched, or its wire form comes back**, unless
  the path is in the way;
* `comesBack`: **data of any shape comes back** from every path whose directories can be made.
-/

namespace VerifiableEscrow

/-! ## Wire forms as JSON -/

namespace Wire

/-- A mapping with the names of a form carries when its contents do. -/
theorem roundTrips_mapping (form : Form) (fs : List (String × Value))
    (hnames : fs.map Prod.fst = form.fieldNames) (hfs : ∀ f ∈ fs, Json.RoundTrips f.2) :
    Json.RoundTrips (mapping fs) := by
  refine Json.roundTrips_dict (fun e he => ?_) (fun e he => ?_) ?_
  · obtain ⟨f, hf, rfl⟩ := List.mem_map.mp he
    have hname : f.1 ∈ form.fieldNames := by
      rw [← hnames]
      exact List.mem_map_of_mem hf
    exact Json.stringCarries_of_isPlain (isPlain_fieldName hname).1
  · obtain ⟨f, hf, rfl⟩ := List.mem_map.mp he
    exact hfs f hf
  · rw [Value.map_fst_named, hnames]
    exact nodup_fieldNames form

/-- Plain texts with the names of a form carry. -/
theorem roundTrips_fields (form : Form) (fs : List (String × Text))
    (hnames : fs.map Prod.fst = form.fieldNames) (hfs : ∀ f ∈ fs, f.2.IsPlain) :
    Json.RoundTrips (.dict (fs.map fun f => field f.1 f.2)) := by
  rw [← mapping_texts]
  refine roundTrips_mapping form _ ((map_fst_texts fs).trans hnames) fun f hf => ?_
  obtain ⟨g, hg, rfl⟩ := List.mem_map.mp hf
  exact Json.roundTrips_text (Json.stringCarries_of_isPlain (hfs g hg))

theorem elementText_meets (v : Value) :
    Except.Meets (elementText v) Text.IsPlain fun _ => True := by
  cases h : elementText v with
  | error fault => exact trivial
  | ok t =>
    obtain ⟨bs, -, hbs⟩ := Except.bind_eq_ok.mp h
    cases hbs
    exact Base64.isPlain_encode bs

theorem scalarText_meets (v : Value) : Except.Meets (scalarText v) Text.IsPlain fun _ => True := by
  cases h : scalarText v with
  | error fault => exact trivial
  | ok t =>
    obtain ⟨bs, -, hbs⟩ := Except.bind_eq_ok.mp h
    cases hbs
    exact Base64.isPlain_encode bs

theorem isPlain_labelText (label : Option Bytes) : (labelText label).IsPlain := by
  cases label with
  | none => exact Text.isPlain_ofChars (by decide)
  | some bs => exact Base64.isPlain_encode bs

theorem ofPlain_meets (v : Value) :
    Except.Meets (ofPlain v) Json.RoundTrips fun _ => True := by
  rw [ofPlain]
  split
  next d _ =>
    rw [ofDomain]
    -- The generator is never to be computed here.
    generalize d.ge = generator
    refine (elementText_meets _).bind fun ge hge => Except.Meets.of_pure ?_
    exact roundTrips_fields .domainParameters [("uidp", Base64.encode d.uid), ("ge", ge)] rfl
      (by simp [Base64.isPlain_encode d.uid, hge])
  next k _ _ =>
    refine (elementText_meets _).bind fun h hh => Except.Meets.of_pure ?_
    exact roundTrips_fields .publicKey [("H", h)] rfl (by simp [hh])
  next k _ _ _ =>
    refine (scalarText_meets _).bind fun x hx => Except.Meets.of_pure ?_
    exact roundTrips_fields .privateKey [("x", x)] rfl (by simp [hx])
  next p _ _ _ _ =>
    rw [ofProof]
    refine (scalarText_meets _).bind fun c hc => ?_
    refine (scalarText_meets _).bind fun rXb hrXb => ?_
    refine (scalarText_meets _).bind fun rR hrR => ?_
    refine (scalarText_meets _).bind fun rOb hrOb => Except.Meets.of_pure ?_
    exact roundTrips_fields .proof [("c", c), ("rXb", rXb), ("rR", rR), ("rOb", rOb)] rfl
      (by simp [hc, hrXb, hrR, hrOb])
  next => exact trivial

theorem roundTrips_ciphertext {e1 e2 : Text} (he1 : e1.IsPlain) (he2 : e2.IsPlain)
    (label : Option Bytes) {proof : Value} (hproof : Json.RoundTrips proof) :
    Json.RoundTrips (.dict [field "E1" e1, field "E2" e2, field "info" (labelText label),
      (.text (Text.of "ieproof"), proof)]) := by
  have hplain {t : Text} (ht : t.IsPlain) : Json.RoundTrips (.text t) :=
    Json.roundTrips_text (Json.stringCarries_of_isPlain ht)
  have hmapping := roundTrips_mapping .ciphertext
    (texts [("E1", e1), ("E2", e2), ("info", labelText label)] ++ [("ieproof", proof)]) rfl
    (by simp [texts, hplain he1, hplain he2, hplain (isPlain_labelText label), hproof])
  rw [mapping_texts_append] at hmapping
  exact hmapping

/-- **Every wire form comes back from JSON**, also where a ciphertext has something else than a
proof inside, at any depth. -/
theorem ofValue_meets (v : Value) :
    Except.Meets (ofValue v) Json.RoundTrips fun _ => True := by
  fun_induction ofValue v with
  | case1 e1 e2 proof label ih =>
    refine Except.Meets.bind (?_ : Except.Meets _ (fun _ => True) _) fun label _ => ?_
    · cases label <;> exact trivial
    refine (elementText_meets _).bind fun e1 he1 => (elementText_meets _).bind fun e2 he2 => ?_
    refine ih.bind fun proof hproof => Except.Meets.of_pure ?_
    exact roundTrips_ciphertext he1 he2 label hproof
  | case2 v _ => exact ofPlain_meets v

end Wire

/-! ## Saving -/

namespace Storage

/-- What is written under a path that is ready comes back. -/
theorem saveJson_of_roundTrips {s made : Storage} {path : Text} {place : Place} {v : Value}
    (hv : Json.RoundTrips v) (h : s.prepare path = (.ok place, made)) :
    ∃ t left, s.saveJson path v = (.ok t, left) ∧ left.loadJson path = .ok v
      ∧ WritesOnly s left path (Utf8.encode t) := by
  obtain ⟨t, ht⟩ := hv .indented 0
  obtain ⟨left, hsave, hload⟩ := exists_saveJson ht h
  refine ⟨t, left, hsave, hload, ?_⟩
  have hwrites := writesOnly_of_prepare h (Utf8.encode t)
  rw [saveJson_of_prepare h, ht.drafted] at hsave
  rw [← (Prod.mk.inj hsave).2]
  exact hwrites

/-- How saving a value ends. -/
structure SavesOrRefuses (s : Storage) (path : Text) (v : Value) : Prop where
  /-- A value without a wire form is refused, and everything is as it was. -/
  refused : ∀ fault, Wire.ofValue v = .error fault → s.save path v = (.error fault, s)
  /-- Where saving succeeds, the file holds the wire form, and no other file has changed. -/
  saved : ∀ form t left, Wire.ofValue v = .ok form → s.save path v = (.ok t, left) →
    left.loadJson path = .ok form ∧ WritesOnly s left path (Utf8.encode t)
  /-- A wire form can fail to be saved for reasons of the path only, and then no file has
  changed. -/
  failed : ∀ form fault left, Wire.ofValue v = .ok form → s.save path v = (.error fault, left) →
    IsStorage fault ∧ s.prepare path = (.error fault, left) ∧ ∀ place, KeptAt s left place

/-- **A value is refused with nothing touched, or its wire form comes back**, unless the path is in
the way. -/
theorem savesOrRefuses (s : Storage) (path : Text) (v : Value) : SavesOrRefuses s path v := by
  have hsave {form : Value} (hform : Wire.ofValue v = .ok form) :
      s.save path v = s.saveJson path form := by
    rw [save, hform]
  refine ⟨fun fault hfault => ?_, fun form t left hform hleft => ?_,
    fun form fault left hform hleft => ?_⟩
  · rw [save, hfault]
  · rw [hsave hform] at hleft
    rcases hprepare : s.prepare path with ⟨fault | place, made⟩
    · rw [saveJson_of_prepare_error hprepare] at hleft
      cases hleft
    · obtain ⟨t', left', hsaved, hload, hwrites⟩ :=
        saveJson_of_roundTrips ((Wire.ofValue_meets v).of_ok hform) hprepare
      rw [hsaved] at hleft
      cases hleft
      exact ⟨hload, hwrites⟩
  · rw [hsave hform] at hleft
    rcases hprepare : s.prepare path with ⟨fault' | place, made⟩
    · have hstorage := prepare_meets s path
      have hkept := keptAt_prepare s path
      rw [hprepare] at hstorage hkept
      rw [saveJson_of_prepare_error hprepare] at hleft
      cases hleft
      exact ⟨hstorage, rfl, hkept⟩
    · obtain ⟨t', left', hsaved, -, -⟩ :=
        saveJson_of_roundTrips ((Wire.ofValue_meets v).of_ok hform) hprepare
      rw [hsaved] at hleft
      cases hleft

/-- A directory with a file in it that is no text. -/
def occupied : Storage :=
  (empty.put [[0x6B]] .directory).put [[0x6B], [0x61]] (.file [0xFF])

/-- The file of the private key that is the number one. -/
def savedKey : Text := Text.of "\x7b\n  \"x\": \"AQ==\"\n\x7d"

/-- The directory with this file in place of the one that is no text. -/
def rewritten : Storage := occupied.put [[0x6B], [0x61]] (.file (Utf8.encode savedKey))

/-- A number is refused and the file stays as it is; a key is saved in its place. -/
theorem savesOrRefuses_occupied :
    occupied.save (Text.of "k/a") (.int 5)
        = (.error (.wire (.noEncoding (Text.of "int"))), occupied)
      ∧ occupied.save (Text.of "k/a") (PrivateKey.toValue ⟨1⟩) = (.ok savedKey, rewritten)
      ∧ rewritten.loadJson (Text.of "k/a") = .ok (.dict [Wire.field "x" (Text.of "AQ==")])
      ∧ WritesOnly occupied rewritten (Text.of "k/a") (Utf8.encode savedKey) := by
  have hform : Wire.ofValue (PrivateKey.toValue ⟨1⟩)
      = .ok (.dict [Wire.field "x" (Text.of "AQ==")]) := rfl
  have hsave : occupied.save (Text.of "k/a") (PrivateKey.toValue ⟨1⟩)
      = (.ok savedKey, rewritten) := rfl
  refine ⟨(savesOrRefuses occupied _ (.int 5)).refused _ rfl, hsave, ?_⟩
  exact (savesOrRefuses occupied _ _).saved _ _ _ hform hsave

/-! ## Data of any shape -/

/-- How data comes back from under a path, in a tree with the directories above it. -/
structure ComesBack (s made : Storage) (path : Text) (v : Value) : Prop where
  /-- Where the path leads to no directory, the same data is read that was written. -/
  read : ∀ place, made.filePlace path = .ok place →
    ∃ t left, s.saveJson path v = (.ok t, left) ∧ left.loadJson path = .ok v
      ∧ WritesOnly s left path (Utf8.encode t)
  /-- Otherwise nothing is written, and it is the end of the path that is to blame: a directory
  stands there, or the path is made of no names, or of names that are too long. -/
  refused : ∀ fault, made.filePlace path = .error fault →
    IsFinalFault made path fault ∧ s.saveJson path v = (.error fault, made)

/-- **Data comes back from its file**, from every path whose directories can be made, whatever was
in the file before. -/
theorem comesBack {s made : Storage} {path : Text} {v : Value} (hv : Json.IsData v)
    (hparents : MakesParents s path made) : ComesBack s made path v := by
  have hprepare := hparents.prepare
  refine ⟨fun place hplace => ?_, fun fault hfault => ?_⟩
  · rw [hplace] at hprepare
    exact saveJson_of_roundTrips (Json.roundTrips_of_isData hv) hprepare
  · rw [hfault] at hprepare
    exact ⟨(filePlace_meets hparents).of_error hfault, saveJson_of_prepare_error hprepare v⟩

/-- Data with a character of two escapes, signs that are escaped, and nesting. -/
def nestedData : List (Text × Value) :=
  [(Text.of "k\u00E9", .list [.null, .bool true, .int (-30), .text (Text.of "\"\\\n\t\u0001𝄞")]),
    (Text.of "", .dict (Value.ofEntries [(Text.of "x", .list [])]))]

theorem isData_nestedData : Json.IsData (.dict (Value.ofEntries nestedData)) := by
  have hinner : Json.IsData (.dict (Value.ofEntries [(Text.of "x", .list [])])) := by
    refine .dict (fun e he => ?_) (by decide) fun e he => ?_
    · rw [List.mem_singleton.mp he]
      exact ⟨_, rfl⟩
    · rw [List.mem_singleton.mp he]
      exact .list fun v hv => absurd hv List.not_mem_nil
  refine .dict (fun e he => ?_) (by decide) fun e he => ?_
  · rcases List.mem_pair.mp he with rfl | rfl <;> exact ⟨_, rfl⟩
  · rcases List.mem_pair.mp he with rfl | rfl
    · refine .list fun v hv => ?_
      simp only [List.mem_cons, List.not_mem_nil, or_false] at hv
      rcases hv with rfl | rfl | rfl | rfl
      · exact .null
      · exact .bool true
      · exact .int (-30)
      · exact .text _
    · exact hinner

theorem makesParents_occupied : MakesParents occupied (Text.of "k/a") occupied :=
  ⟨[[0x6B]], rfl, rfl⟩

/-- The data is read again from the file that was no text. -/
theorem comesBack_nestedData :
    Json.IsData (.dict (Value.ofEntries nestedData))
      ∧ MakesParents occupied (Text.of "k/a") occupied
      ∧ ComesBack occupied occupied (Text.of "k/a") (.dict (Value.ofEntries nestedData))
      ∧ occupied.filePlace (Text.of "k/a") = .ok [[0x6B], [0x61]]
      ∧ ∃ t left,
        occupied.saveJson (Text.of "k/a") (.dict (Value.ofEntries nestedData)) = (.ok t, left)
          ∧ left.loadJson (Text.of "k/a") = .ok (.dict (Value.ofEntries nestedData))
          ∧ WritesOnly occupied left (Text.of "k/a") (Utf8.encode t) := by
  have hcomes : ComesBack occupied occupied (Text.of "k/a") (.dict (Value.ofEntries nestedData)) :=
    comesBack isData_nestedData makesParents_occupied
  have hplace : occupied.filePlace (Text.of "k/a") = .ok [[0x6B], [0x61]] := rfl
  exact ⟨isData_nestedData, makesParents_occupied, hcomes, hplace, hcomes.read _ hplace⟩

end Storage
end VerifiableEscrow
