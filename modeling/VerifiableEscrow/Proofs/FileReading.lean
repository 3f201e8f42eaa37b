import VerifiableEscrow.Proofs.FileRoundTrip
import VerifiableEscrow.Proofs.LineEnds
import VerifiableEscrow.Proofs.SafeReading

/-!
# Reading a file and reading its text

A parcel can come as JSON text or in a JSON file.  The two ways differ in two places.  The line
ends of a file are unified on the way, which JSON does not mind.  And a text that is no JSON at all
is a fault of the wire form where it comes as text, but a fault of the file where it comes in one.

* `loadJson_of_text`: the value in a file is the value of its text;
* `loadsLikeText`: **parcels are the same on both ways**, and so are the faults, up to this one
  difference.
-/

namespace VerifiableEscrow
namespace Storage

open Wire (Form IsWire packJson readJson)

/-- The target that names a form. -/
def targetOf (form : Form) : Wire.Target := some (Text.of form.name)

/-- **The value in a file is the value of its text**, whatever line ends it has. -/
theorem loadJson_of_text {s : Storage} {path t : Text} {content : Bytes}
    (hfile : s.readFile path = .ok content) (htext : Utf8.decode? content = some t) :
    s.loadJson path = (Json.read? t).elim (.error (.notJson (t := Text.unifyLineEnds t))) .ok := by
  rw [loadJson, Except.bind_of_ok hfile, htext]
  dsimp only
  rw [Json.read?_unifyLineEnds]
  cases Json.read? t <;> rfl

/-- How a file with a text is packed, compared with the text itself. -/
structure LoadsLikeText (s : Storage) (path t : Text) (form : Form) : Prop where
  /-- There is a parcel on both ways or on none, and it is the same one. -/
  parcel : ∀ p, packJson (targetOf form) (.text t) = .ok p ↔ s.load path (targetOf form) = .ok p
  /-- What is JSON is refused with the same fault, which blames the wire form. -/
  fault : ∀ v, Json.read? t = some v → ∀ fault, packJson (targetOf form) (.text t) = .error fault →
    IsWire fault ∧ s.load path (targetOf form) = .error fault
  /-- What is no JSON blames the wire form as text, and does not as a file, where the text that was
  read is to blame. -/
  notJson : Json.read? t = none →
    packJson (targetOf form) (.text t) = .error (.wire (.notJson (Text.of form.name)))
      ∧ s.load path (targetOf form) = .error (.notJson (t := Text.unifyLineEnds t))

/-- **Parcels are the same from a file as from its text**, and so are the faults of what is JSON. -/
theorem loadsLikeText {s : Storage} {path t : Text} {content : Bytes} (form : Form)
    (hfile : s.readFile path = .ok content) (htext : Utf8.decode? content = some t) :
    LoadsLikeText s path t form := by
  have hload : s.load path (targetOf form)
      = ((Json.read? t).elim (.error (.notJson (t := Text.unifyLineEnds t))) .ok :
          Except Fault Value).bind (Wire.pack (targetOf form)) := by
    rw [load, loadJson_of_text hfile htext]
    rfl
  have htextual : packJson (targetOf form) (.text t)
      = ((Json.read? t).elim (.error (.wire (.notJson (Text.of form.name)))) .ok :
          Except Fault Value).bind (Wire.pack (targetOf form)) := by
    rw [packJson, readJson, readJson.read]
    cases Json.read? t <;> rfl
  cases hread : Json.read? t with
  | none =>
    rw [hread] at hload htextual
    refine ⟨fun p => ?_, fun v hv => ?_, fun _ => ⟨htextual, hload⟩⟩
    · rw [htextual, hload]
      constructor <;> intro h <;> cases h
    · cases hread.symm.trans hv
  | some v =>
    rw [hread] at hload htextual
    have hsame : s.load path (targetOf form) = packJson (targetOf form) (.text t) :=
      hload.trans htextual.symm
    refine ⟨fun p => by rw [hsame], fun _ _ fault hfault => ?_, fun h => ?_⟩
    · exact ⟨(Wire.packJson_meets form t).of_error hfault, hsame.trans hfault⟩
    · cases hread.symm.trans h

/-- A text that is no JSON. -/
def garbage : Text := Text.of "\x7bnot json"

/-- The directory with a file in it that is no JSON. -/
def unreadable : Storage :=
  empty.put [Utf8.encode (Text.of "a.json")] (.file (Utf8.encode garbage))

theorem readFile_unreadable :
    unreadable.readFile (Text.of "a.json") = .ok (Utf8.encode garbage) :=
  readFile_put (s := empty) rfl (Utf8.encode garbage)

theorem decode?_garbage : Utf8.decode? (Utf8.encode garbage) = some garbage := by decide

theorem read?_garbage : Json.read? garbage = none := rfl

theorem loadsLikeText_unreadable :
    unreadable.readFile (Text.of "a.json") = .ok (Utf8.encode garbage)
      ∧ Utf8.decode? (Utf8.encode garbage) = some garbage
      ∧ LoadsLikeText unreadable (Text.of "a.json") garbage .privateKey :=
  ⟨readFile_unreadable, decode?_garbage,
    loadsLikeText .privateKey readFile_unreadable decode?_garbage⟩

/-- A file that is refused without blaming the wire form, where its text is refused blaming it. -/
theorem load_unreadable :
    unreadable.readFile (Text.of "a.json") = .ok (Utf8.encode garbage)
      ∧ Utf8.decode? (Utf8.encode garbage) = some garbage
      ∧ (∃ fault, packJson (targetOf .privateKey) (.text garbage) = .error fault ∧ IsWire fault)
      ∧ ∃ fault, unreadable.load (Text.of "a.json") (targetOf .privateKey) = .error fault
        ∧ ¬IsWire fault := by
  have hjson : unreadable.loadJson (Text.of "a.json")
      = .error (.notJson (t := Text.unifyLineEnds garbage)) := by
    rw [loadJson_of_text readFile_unreadable decode?_garbage, read?_garbage]
    rfl
  have htextual : packJson (targetOf .privateKey) (.text garbage)
      = .error (.wire (.notJson (Text.of Form.privateKey.name))) := by
    rw [packJson, readJson, readJson.read, read?_garbage]
    rfl
  refine ⟨readFile_unreadable, decode?_garbage, ⟨_, htextual, _, rfl⟩,
    .notJson (t := Text.unifyLineEnds garbage), ?_, ?_⟩
  · rw [load, hjson]
    rfl
  · rintro ⟨why, hwhy⟩
    cases hwhy

end Storage
end VerifiableEscrow
