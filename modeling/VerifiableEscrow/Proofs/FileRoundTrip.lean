import VerifiableEscrow.Proofs.JsonRoundTrip
import VerifiableEscrow.Proofs.Success
import VerifiableEscrow.Storage

/-!
# Files read back

Writing a file puts it at a place where there is no directory.  A path is followed through
directories only, so it leads to the same place afterwards, the path of the file itself
included (`walk_put`), and that is where reading looks.

* `readFile_put`: the bytes that were written are read;
* `exists_saveJson`: the value that was written as JSON is read, if JSON gives it back.
-/

namespace VerifiableEscrow
namespace Storage

theorem requireDirectory_eq_ok {s : Storage} {place : Place} :
    s.requireDirectory place = .ok () ↔ s.find? place = some .directory := by
  rw [requireDirectory]
  cases s.find? place with
  | none => simp
  | some entry => cases entry <;> simp

/-- Where a path leads does not change when something is put at a place without a directory. -/
theorem walk_put {s : Storage} {place : Place} (entry : Entry)
    (h : s.find? place ≠ some .directory) {start target : Place} {names : List Name}
    (hwalk : s.walk start names = .ok target) :
    (s.put place entry).walk start names = .ok target := by
  induction names generalizing start with
  | nil => exact hwalk
  | cons name names ih =>
    rw [walk, Except.bind_eq_ok] at hwalk ⊢
    obtain ⟨_, hdirectory, hnext⟩ := hwalk
    obtain ⟨hlength, hrest⟩ := Except.guard_eq_ok.mp hnext
    -- A place that is stepped through is a directory, so it is not the one that is written.
    have hne : place ≠ start := by
      rintro rfl
      exact h (requireDirectory_eq_ok.mp hdirectory)
    refine ⟨(), ?_, Except.guard_eq_ok.mpr ⟨hlength, ih hrest⟩⟩
    rw [requireDirectory_eq_ok, find?_put_ne s entry hne]
    exact requireDirectory_eq_ok.mp hdirectory

theorem filePlace_eq_ok {s : Storage} {path : Text} {place : Place} :
    s.filePlace path = .ok place ↔ ∃ names, Path.names (Path.steps path) = .ok names
      ∧ s.walk [] names = .ok place ∧ s.find? place ≠ some .directory := by
  rw [filePlace, Except.bind_eq_ok]
  constructor
  · rintro ⟨names, hnames, h⟩
    obtain ⟨place', hwalk, h⟩ := Except.bind_eq_ok.mp h
    obtain ⟨hfile, hpure⟩ := Except.guard_eq_ok.mp h
    cases hpure
    exact ⟨names, hnames, hwalk, hfile⟩
  · rintro ⟨names, hnames, hwalk, hfile⟩
    exact ⟨names, hnames,
      Except.bind_eq_ok.mpr ⟨place, hwalk, Except.guard_eq_ok.mpr ⟨hfile, rfl⟩⟩⟩

/-- The place that was made ready is where the path leads. -/
theorem filePlace_of_prepare {s made : Storage} {path : Text} {place : Place}
    (h : s.prepare path = (.ok place, made)) : made.filePlace path = .ok place := by
  unfold prepare at h
  split at h
  · cases (Prod.mk.inj h).1
  · split at h
    · cases (Prod.mk.inj h).1
    · obtain ⟨hplace, rfl⟩ := Prod.mk.inj h
      exact hplace

/-- No file is at the root. -/
theorem ne_nil_of_filePlace {s : Storage} {path : Text} {place : Place}
    (h : s.filePlace path = .ok place) : place ≠ [] := by
  obtain ⟨names, -, -, hfile⟩ := filePlace_eq_ok.mp h
  rintro rfl
  exact hfile rfl

/-- **The content that is put where a path leads is what is read there.** -/
theorem readFile_put {s : Storage} {path : Text} {place : Place}
    (h : s.filePlace path = .ok place) (content : Bytes) :
    (s.put place (.file content)).readFile path = .ok content := by
  obtain ⟨names, hnames, hwalk, hfile⟩ := filePlace_eq_ok.mp h
  have hlead := walk_put (.file content) hfile hwalk
  refine Except.bind_eq_ok.mpr ⟨names, hnames, Except.bind_eq_ok.mpr ⟨place, hlead, ?_⟩⟩
  rw [find?_put_self s place (.file content) (ne_nil_of_filePlace h)]
  rfl

/-- The path of a file leads there still when the file is written. -/
theorem filePlace_put {s : Storage} {path : Text} {place : Place}
    (h : s.filePlace path = .ok place) (content : Bytes) :
    (s.put place (.file content)).filePlace path = .ok place := by
  obtain ⟨names, hnames, hwalk, hfile⟩ := filePlace_eq_ok.mp h
  refine filePlace_eq_ok.mpr ⟨names, hnames, walk_put (.file content) hfile hwalk, ?_⟩
  rw [find?_put_self s place (.file content) (ne_nil_of_filePlace h)]
  exact nofun

/-- Writing puts the text at the place that was made ready, complete or not. -/
theorem saveJson_of_prepare {s made : Storage} {path : Text} {place : Place}
    (h : s.prepare path = (.ok place, made)) (v : Value) : s.saveJson path v
      = (if (Json.draft .indented 0 v).complete then .ok (Json.draft .indented 0 v).text
          else .error .wrongKind,
        made.put place (.file (Utf8.encode (Json.draft .indented 0 v).text))) := by
  rw [saveJson, writeFile, h]

/-- What cannot be made ready is not written. -/
theorem saveJson_of_prepare_error {s made : Storage} {path : Text} {fault : Fault}
    (h : s.prepare path = (.error fault, made)) (v : Value) :
    s.saveJson path v = (.error fault, made) := by
  rw [saveJson, writeFile, h]

/-- **A value that is written as a JSON file is read again**, at every path that a file can be
written to. -/
theorem exists_saveJson {s made : Storage} {path : Text} {place : Place} {v : Value} {t : Text}
    (hv : Json.Carries .indented 0 v t) (h : s.prepare path = (.ok place, made)) :
    ∃ written, s.saveJson path v = (.ok t, written) ∧ written.loadJson path = .ok v := by
  have hread := readFile_put (filePlace_of_prepare h) (Utf8.encode t)
  refine ⟨made.put place (.file (Utf8.encode t)), ?_, Except.bind_eq_ok.mpr ⟨_, hread, ?_⟩⟩
  · rw [saveJson_of_prepare h, hv.drafted]
    rfl
  · rw [hv.fileSafe.decode?_encode]
    dsimp only
    rw [hv.fileSafe.unifyLineEnds_eq, Json.read?_of_carries hv]
    rfl

end Storage
end VerifiableEscrow
