import VerifiableEscrow.Proofs.Directories

/-!
# Writing that stops halfway

A JSON file is emptied before its value is written, and the value is written piece by piece.  So a
value that JSON has no form for, anywhere in the data, does not leave the file as it was: the text
up to this value stands in it.  No other file is touched.

Which values have no form is said apart from the writer (`HoldsForeign`), and the text that stands
in the file is compared with that of any data in which they were replaced (`Mends`).

* `stopped_draft`: the writer gets stuck exactly at data that holds such a value;
* `Mends.begins`: what is written up to there is how the replaced data is written too;
* `leavesBeginning`: **a failed writing leaves the beginning of the text**, and nothing else.
-/

namespace VerifiableEscrow
namespace Json

/-! ## Values without a form -/

/-- A value that JSON has no form for. -/
def IsForeign : Value → Prop
  | .bytes _ | .mark _ | .record _ _ | .parcel _ => True
  | _ => False

/-- A key that JSON has no form for.  Lists and mappings are none either. -/
def IsForeignKey : Value → Prop
  | .list _ | .dict _ => True
  | k => IsForeign k

/-- Data that holds a value without a form, at any depth. -/
inductive HoldsForeign : Value → Prop
  | here {v : Value} (h : IsForeign v) : HoldsForeign v
  | item {vs : List Value} {v : Value} (hmem : v ∈ vs) (h : HoldsForeign v) :
      HoldsForeign (.list vs)
  | key {es : List (Value × Value)} {e : Value × Value} (hmem : e ∈ es) (h : IsForeignKey e.1) :
      HoldsForeign (.dict es)
  | content {es : List (Value × Value)} {e : Value × Value} (hmem : e ∈ es)
      (h : HoldsForeign e.2) : HoldsForeign (.dict es)

theorem holdsForeign_list {vs : List Value} :
    HoldsForeign (.list vs) ↔ ∃ v ∈ vs, HoldsForeign v := by
  constructor
  · intro h
    cases h with
    | here h => exact h.elim
    | item hmem h => exact ⟨_, hmem, h⟩
  · rintro ⟨v, hmem, h⟩
    exact .item hmem h

theorem holdsForeign_dict {es : List (Value × Value)} :
    HoldsForeign (.dict es) ↔ ∃ e ∈ es, IsForeignKey e.1 ∨ HoldsForeign e.2 := by
  constructor
  · intro h
    cases h with
    | here h => exact h.elim
    | key hmem h => exact ⟨_, hmem, .inl h⟩
    | content hmem h => exact ⟨_, hmem, .inr h⟩
  · rintro ⟨e, hmem, h | h⟩
    · exact .key hmem h
    · exact .content hmem h

/-- A value without parts holds no other. -/
theorem holdsForeign_leaf {v : Value} (hlist : ∀ vs, v ≠ .list vs) (hdict : ∀ es, v ≠ .dict es) :
    HoldsForeign v ↔ IsForeign v := by
  refine ⟨fun h => ?_, .here⟩
  cases h with
  | here h => exact h
  | item _ _ => exact absurd rfl (hlist _)
  | key _ _ => exact absurd rfl (hdict _)
  | content _ _ => exact absurd rfl (hdict _)

theorem keyText?_eq_none_iff {k : Value} : keyText? k = none ↔ IsForeignKey k := by
  cases k with
  | bool b => cases b <;> simp [keyText?, scalarText?, IsForeignKey, IsForeign]
  | _ => simp [keyText?, scalarText?, IsForeignKey, IsForeign]

/-! ## Where writing stops -/

namespace Draft

theorem append_of_complete {a : Draft} (h : a.complete = true) (b : Draft) :
    a ++ b = ⟨a.text ++ b.text, b.complete⟩ := if_pos h

theorem append_of_stopped {a : Draft} (h : a.complete = false) (b : Draft) : a ++ b = a :=
  if_neg (by rw [h]; exact Bool.false_ne_true)

/-- What is put together stops where one of its parts does. -/
theorem stopped_append {a b : Draft} :
    (a ++ b).complete = false ↔ a.complete = false ∨ b.complete = false := by
  cases h : a.complete with
  | true => simp [append_of_complete h]
  | false => simp [append_of_stopped h, h]

theorem stopped_piece {t : Text} : (piece t).complete = false ↔ False := by simp [piece]

/-- The other draft is the same, or this one stops and the other one goes on from there. -/
def Begins (a b : Draft) : Prop := b = a ∨ a.complete = false ∧ a.text <+: b.text

theorem Begins.refl (a : Draft) : a.Begins a := .inl rfl

theorem stuck_begins (a : Draft) : stuck.Begins a := .inr ⟨rfl, List.nil_prefix⟩

theorem Begins.isPrefix {a b : Draft} (h : a.Begins b) : a.text <+: b.text := by
  rcases h with rfl | ⟨-, h⟩
  · exact List.prefix_refl _
  · exact h

theorem prefix_append (a b : Draft) : a.text <+: (a ++ b).text := by
  cases h : a.complete with
  | true =>
    rw [append_of_complete h]
    exact List.prefix_append a.text b.text
  | false => simp only [append_of_stopped h, List.prefix_refl]

theorem Begins.append {a a' b b' : Draft} (ha : a.Begins a') (hb : b.Begins b') :
    (a ++ b).Begins (a' ++ b') := by
  cases hcomplete : a.complete with
  | false =>
    rw [append_of_stopped hcomplete]
    exact .inr ⟨hcomplete, ha.isPrefix.trans (prefix_append a' b')⟩
  | true =>
    have hsame : a' = a := by
      rcases ha with ha | ⟨hstopped, -⟩
      · exact ha
      · cases hcomplete.symm.trans hstopped
    subst hsame
    rw [append_of_complete hcomplete, append_of_complete hcomplete]
    rcases hb with rfl | ⟨hstopped, hb⟩
    · exact .inl rfl
    · exact .inr ⟨hstopped, (List.prefix_append_right_inj a'.text).mpr hb⟩

end Draft

theorem stopped_draftKey {k : Value} : (draftKey k).complete = false ↔ IsForeignKey k := by
  rw [← keyText?_eq_none_iff, draftKey]
  cases keyText? k <;> simp [Draft.piece, Draft.stuck]

/-- The separator in front of a key is written where the key is. -/
theorem stopped_separator {k : Value} {t : Text} :
    (if (keyText? k).isSome then Draft.piece t else .stuck).complete = false ↔ IsForeignKey k := by
  rw [← keyText?_eq_none_iff]
  cases keyText? k <;> simp [Draft.piece, Draft.stuck]

theorem stopped_leaf {layout : Layout} {depth : Nat} {v : Value} (hlist : ∀ vs, v ≠ .list vs)
    (hdict : ∀ es, v ≠ .dict es) : (draft layout depth v).complete = false ↔ HoldsForeign v := by
  rw [holdsForeign_leaf hlist hdict]
  cases v with
  | list vs => exact absurd rfl (hlist vs)
  | dict es => exact absurd rfl (hdict es)
  | bool b => cases b <;> simp [draft, scalarText?, Draft.piece, IsForeign]
  | _ => simp [draft, scalarText?, Draft.piece, Draft.stuck, IsForeign]

mutual

/-- **The writer gets stuck exactly at data that holds a value without a form.** -/
theorem stopped_draft (layout : Layout) (depth : Nat) :
    ∀ v : Value, (draft layout depth v).complete = false ↔ HoldsForeign v
  | .list [] => by simp [holdsForeign_list, draft, Draft.stopped_piece]
  | .list (v :: vs) => by
    rw [holdsForeign_list, List.exists_mem_cons_iff, draft]
    simp only [Draft.stopped_append, Draft.stopped_piece, stopped_draft layout (depth + 1) v,
      stopped_draftItems layout (depth + 1) vs, false_or, or_false]
  | .dict [] => by simp [holdsForeign_dict, draft, Draft.stopped_piece]
  | .dict ((k, v) :: es) => by
    rw [holdsForeign_dict, List.exists_mem_cons_iff, draft]
    simp only [Draft.stopped_append, Draft.stopped_piece, stopped_draft layout (depth + 1) v,
      stopped_draftEntries layout (depth + 1) es, stopped_draftKey, false_or, or_false]
  | .null | .bool _ | .int _ | .float _ _ | .bytes _ | .text _ | .mark _ | .record _ _
  | .parcel _ => stopped_leaf nofun nofun

theorem stopped_draftItems (layout : Layout) (depth : Nat) :
    ∀ vs : List Value, (draftItems layout depth vs).complete = false ↔ ∃ v ∈ vs, HoldsForeign v
  | [] => by simp [draftItems, Draft.empty]
  | v :: vs => by
    rw [List.exists_mem_cons_iff, draftItems]
    simp only [Draft.stopped_append, Draft.stopped_piece, stopped_draft layout depth v,
      stopped_draftItems layout depth vs, false_or]

theorem stopped_draftEntries (layout : Layout) (depth : Nat) :
    ∀ es : List (Value × Value), (draftEntries layout depth es).complete = false
      ↔ ∃ e ∈ es, IsForeignKey e.1 ∨ HoldsForeign e.2
  | [] => by simp [draftEntries, Draft.empty]
  | (k, v) :: es => by
    rw [List.exists_mem_cons_iff, draftEntries]
    simp only [Draft.stopped_append, stopped_draft layout depth v, stopped_separator,
      stopped_draftEntries layout depth es, stopped_draftKey, or_self]

end

/-! ## The text up to there -/

mutual

/-- Data in which values without a form may have been replaced, by anything. -/
inductive Mends : Value → Value → Prop
  | same (v : Value) : Mends v v
  | replaced {v : Value} (h : IsForeign v) (w : Value) : Mends v w
  | list {vs ws : List Value} (h : MendsItems vs ws) : Mends (.list vs) (.list ws)
  | dict {es fs : List (Value × Value)} (h : MendsEntries es fs) : Mends (.dict es) (.dict fs)

/-- The same for the items of a list, one by one. -/
inductive MendsItems : List Value → List Value → Prop
  | nil : MendsItems [] []
  | cons {v w : Value} {vs ws : List Value} (h : Mends v w) (hs : MendsItems vs ws) :
      MendsItems (v :: vs) (w :: ws)

/-- The same for the entries of a mapping, with their keys. -/
inductive MendsEntries : List (Value × Value) → List (Value × Value) → Prop
  | nil : MendsEntries [] []
  | cons {k k' v w : Value} {es fs : List (Value × Value)} (hk : k' = k ∨ IsForeignKey k)
      (h : Mends v w) (hs : MendsEntries es fs) : MendsEntries ((k, v) :: es) ((k', w) :: fs)

end

theorem begins_draftKey {k k' : Value} (h : k' = k ∨ IsForeignKey k) :
    (draftKey k).Begins (draftKey k') := by
  rcases h with rfl | h
  · exact Draft.Begins.refl _
  · rw [draftKey, keyText?_eq_none_iff.mpr h]
    exact Draft.stuck_begins _

theorem begins_separator {k k' : Value} (h : k' = k ∨ IsForeignKey k) (t : Text) :
    Draft.Begins (if (keyText? k).isSome then .piece t else .stuck)
      (if (keyText? k').isSome then .piece t else .stuck) := by
  rcases h with rfl | h
  · exact Draft.Begins.refl _
  · rw [keyText?_eq_none_iff.mpr h]
    exact Draft.stuck_begins _

theorem begins_of_isForeign {v : Value} (h : IsForeign v) (layout : Layout) (depth : Nat)
    (d : Draft) : (draft layout depth v).Begins d := by
  cases v with
  | bytes _ | mark _ | record _ _ | parcel _ => exact Draft.stuck_begins d
  | _ => exact h.elim

mutual

/-- **What is written of data up to a value without a form begins the text of any data in which such
values were replaced.** -/
theorem Mends.begins (layout : Layout) (depth : Nat) {v w : Value} :
    Mends v w → (draft layout depth v).Begins (draft layout depth w)
  | .same v => Draft.Begins.refl _
  | .replaced h w => begins_of_isForeign h layout depth _
  | .list .nil => Draft.Begins.refl _
  | .list (.cons h hs) => by
    rw [draft, draft]
    exact (((Draft.Begins.refl _).append (h.begins layout (depth + 1))).append
      (hs.begins layout (depth + 1))).append (Draft.Begins.refl _)
  | .dict .nil => Draft.Begins.refl _
  | .dict (.cons hk h hs) => by
    rw [draft, draft]
    exact ((((Draft.Begins.refl _).append (begins_draftKey hk)).append
      (h.begins layout (depth + 1))).append (hs.begins layout (depth + 1))).append
        (Draft.Begins.refl _)

theorem MendsItems.begins (layout : Layout) (depth : Nat) {vs ws : List Value} :
    MendsItems vs ws → (draftItems layout depth vs).Begins (draftItems layout depth ws)
  | .nil => Draft.Begins.refl _
  | .cons h hs => by
    rw [draftItems, draftItems]
    exact ((Draft.Begins.refl _).append (h.begins layout depth)).append (hs.begins layout depth)

theorem MendsEntries.begins (layout : Layout) (depth : Nat) {es fs : List (Value × Value)} :
    MendsEntries es fs → (draftEntries layout depth es).Begins (draftEntries layout depth fs)
  | .nil => Draft.Begins.refl _
  | .cons hk h hs => by
    rw [draftEntries, draftEntries]
    exact (((begins_separator hk _).append (begins_draftKey hk)).append
      (h.begins layout depth)).append (hs.begins layout depth)

end

end Json

/-! ## The file -/

namespace Storage

theorem saveJson_eq_wrongKind {s left : Storage} {path : Text} {v : Value}
    (h : s.saveJson path v = (.error .wrongKind, left)) :
    (Json.draft .indented 0 v).complete = false
      ∧ ∃ place made, s.prepare path = (.ok place, made)
        ∧ left = made.put place (.file (Utf8.encode (Json.draft .indented 0 v).text)) := by
  rcases hprepare : s.prepare path with ⟨fault | place, made⟩
  · have hstorage := prepare_meets s path
    rw [hprepare] at hstorage
    rw [saveJson_of_prepare_error hprepare] at h
    cases h
    obtain ⟨why, hwhy⟩ := hstorage
    cases hwhy
  · rw [saveJson_of_prepare hprepare] at h
    obtain ⟨hfault, hleft⟩ := Prod.mk.inj h
    refine ⟨?_, place, made, rfl, hleft.symm⟩
    cases hcomplete : (Json.draft .indented 0 v).complete with
    | true =>
      rw [if_pos hcomplete] at hfault
      cases hfault
    | false => rfl

/-- What a failed writing leaves. -/
structure LeavesBeginning (s left : Storage) (path : Text) (v : Value) : Prop where
  /-- The data holds a value that JSON has no form for. -/
  foreign : Json.HoldsForeign v
  /-- The file holds what was written so far, and no other file has changed. -/
  written : WritesOnly s left path (Utf8.encode (Json.draft .indented 0 v).text)
  /-- What was written begins the text of any data in which such values were replaced. -/
  beginning : ∀ w t, Json.Mends v w → Json.write? .indented w = some t →
    (Json.draft .indented 0 v).text <+: t

/-- **A failed writing leaves the beginning of the text in its file**, whatever was there before,
and touches no other file. -/
theorem leavesBeginning {s left : Storage} {path : Text} {v : Value}
    (h : s.saveJson path v = (.error .wrongKind, left)) : LeavesBeginning s left path v := by
  obtain ⟨hstopped, place, made, hprepare, rfl⟩ := saveJson_eq_wrongKind h
  refine ⟨(Json.stopped_draft .indented 0 v).mp hstopped, writesOnly_of_prepare hprepare _,
    fun w t hmends hwrite => ?_⟩
  have hbegins := (hmends.begins .indented 0).isPrefix
  rw [Json.write?] at hwrite
  split_ifs at hwrite
  cases hwrite
  exact hbegins

/-- The text of a stored key. -/
def keyText : Text := Text.of "\x7b\n  \"H\": \"abc\"\n\x7d"

/-- A directory with a stored key in it. -/
def keyring : Storage := empty.put [Utf8.encode (Text.of "k.json")] (.file (Utf8.encode keyText))

/-- A key that is still bytes. -/
def rawKey : Value := .dict [(.text (Text.of "H"), .bytes [0])]

/-- The directory after a key that is still bytes was to be written to the same file. -/
def spoilt : Storage :=
  keyring.put [Utf8.encode (Text.of "k.json")] (.file (Utf8.encode (Text.of "\x7b\n  \"H\": ")))

theorem prepare_keyring : keyring.prepare (Text.of "k.json")
    = (.ok [Utf8.encode (Text.of "k.json")], keyring) := rfl

theorem saveJson_rawKey :
    keyring.saveJson (Text.of "k.json") rawKey = (.error .wrongKind, spoilt) :=
  saveJson_of_prepare prepare_keyring rawKey

theorem leavesBeginning_rawKey :
    keyring.saveJson (Text.of "k.json") rawKey = (.error .wrongKind, spoilt)
      ∧ LeavesBeginning keyring spoilt (Text.of "k.json") rawKey :=
  ⟨saveJson_rawKey, leavesBeginning saveJson_rawKey⟩

/-- The key that was stored is gone after a failed writing. -/
theorem readFile_spoilt :
    Json.HoldsForeign rawKey
      ∧ keyring.saveJson (Text.of "k.json") rawKey = (.error .wrongKind, spoilt)
      ∧ keyring.readFile (Text.of "k.json") = .ok (Utf8.encode keyText)
      ∧ spoilt.readFile (Text.of "k.json") ≠ .ok (Utf8.encode keyText) := by
  have hspoilt : spoilt.readFile (Text.of "k.json")
      = .ok (Utf8.encode (Text.of "\x7b\n  \"H\": ")) :=
    readFile_put (filePlace_of_prepare prepare_keyring) _
  refine ⟨.content (List.mem_singleton_self _) (.here trivial), saveJson_rawKey,
    readFile_put (s := empty) rfl (Utf8.encode keyText), ?_⟩
  rw [hspoilt]
  decide

end Storage
end VerifiableEscrow
