import VerifiableEscrow.Proofs.FileRoundTrip

/-!
# The directories above a file

Before a file is written, the directories above it are made, and then its place is looked up.
Directories are made one by one and stay when a later one fails.  So there are two things to say of
each step, whether it succeeds or not: what it leaves where something was before (`KeptAt`), and
that a fault is one of the path.

* `KeptAt.file_iff`: a place that is kept has the file that it had;
* `keptAt_prepare`: nothing is changed on the way to a file, and only directories are new;
* `prepare_meets`: what fails on this way fails for reasons of the path;
* `names_meets`: steps without names have a code point that is in no name, or too many bytes;
* `filePlace_meets`: where the directories above it are made, a path can only fail by its end, and
  `IsFinalFault` says what each fault tells of it.
-/

namespace VerifiableEscrow
namespace Storage

/-- A fault of a path. -/
def IsStorage (fault : Fault) : Prop := ∃ why, fault = .storage why

/-- Where a tree was changed into another one, this place has what it had, or it was free and has
become a directory. -/
def KeptAt (s left : Storage) (place : Place) : Prop :=
  left.find? place = s.find? place ∨ s.find? place = none ∧ left.find? place = some .directory

namespace KeptAt

variable {s between left : Storage} {place : Place}

theorem refl (s : Storage) (place : Place) : KeptAt s s place := .inl rfl

theorem trans (h : KeptAt s between place) (h' : KeptAt between left place) :
    KeptAt s left place := by
  rcases h with h | ⟨hfree, hdirectory⟩
  · rcases h' with h' | ⟨hfree, hdirectory⟩
    · exact .inl (h'.trans h)
    · exact .inr ⟨h.symm.trans hfree, hdirectory⟩
  · rcases h' with h' | ⟨hfree', -⟩
    · exact .inr ⟨hfree, h'.trans hdirectory⟩
    · cases hdirectory.symm.trans hfree'

/-- Where there was something, it is still there. -/
theorem find?_eq_some (h : KeptAt s left place) {entry : Entry} (he : s.find? place = some entry) :
    left.find? place = some entry := by
  rcases h with h | ⟨hfree, -⟩
  · exact h.trans he
  · cases hfree.symm.trans he

/-- The files are the same. -/
theorem file_iff (h : KeptAt s left place) {content : Bytes} :
    left.find? place = some (.file content) ↔ s.find? place = some (.file content) := by
  refine ⟨fun hfile => ?_, h.find?_eq_some⟩
  rcases h with h | ⟨-, hdirectory⟩
  · exact h.symm.trans hfile
  · cases hdirectory.symm.trans hfile

end KeptAt

theorem keptAt_put {s : Storage} {place other : Place} (entry : Entry) (h : other ≠ place) :
    KeptAt s (s.put place entry) other :=
  .inl (find?_put_ne s entry h.symm)

/-- A directory that is put at a free place changes nothing else. -/
theorem keptAt_put_directory {s : Storage} {place : Place} (h : s.find? place = none)
    (other : Place) : KeptAt s (s.put place .directory) other := by
  by_cases hother : other = place
  · subst hother
    have hroot : other ≠ [] := by
      rintro rfl
      cases h
    exact .inr ⟨h, find?_put_self s other .directory hroot⟩
  · exact keptAt_put .directory hother

/-! ## Following paths -/

theorem walk_append (s : Storage) (start : Place) (names names' : List Name) :
    s.walk start (names ++ names') = s.walk start names >>= fun place => s.walk place names' := by
  induction names generalizing start with
  | nil => rfl
  | cons name names ih =>
    rw [List.cons_append, walk, walk]
    cases s.requireDirectory start with
    | error fault => rfl
    | ok u =>
      rw [Except.bind_of_ok rfl, Except.bind_of_ok rfl]
      split_ifs
      · rfl
      · exact ih (step start name)

theorem walk_meets (s : Storage) (start : Place) (names : List Name) :
    Except.Meets (s.walk start names) (fun _ => True) IsStorage := by
  induction names generalizing start with
  | nil => exact trivial
  | cons name names ih =>
    have hrequire : Except.Meets (s.requireDirectory start) (fun _ => True) IsStorage := by
      rw [requireDirectory]
      cases s.find? start with
      | none => exact ⟨_, rfl⟩
      | some entry =>
        cases entry with
        | directory => exact trivial
        | file content => exact ⟨_, rfl⟩
    exact hrequire.bind fun _ _ => Except.Meets.guard (fun _ => ⟨_, rfl⟩) fun _ => ih _

theorem isDirectory_iff {s : Storage} {names : List Name} : s.isDirectory names = true
    ↔ ∃ place, s.walk [] names = .ok place ∧ s.find? place = some .directory := by
  rw [isDirectory]
  cases s.walk [] names with
  | error fault => simp
  | ok place => simp

/-- Below a directory, one name more can only fail by being too long. -/
theorem walk_concat_error {s : Storage} {above : List Name} {name : Name} {fault : Fault}
    (h : s.isDirectory above = true) (hfault : s.walk [] (above ++ [name]) = .error fault) :
    nameLimit < name.length ∧ fault = .storage .nameTooLong := by
  obtain ⟨parent, hparent, hdirectory⟩ := isDirectory_iff.mp h
  rw [walk_append, Except.bind_of_ok hparent, walk,
    Except.bind_of_ok (requireDirectory_eq_ok.mpr hdirectory)] at hfault
  by_cases hlong : nameLimit < name.length
  · rw [if_pos hlong] at hfault
    exact ⟨hlong, (Except.error.inj hfault).symm⟩
  · rw [if_neg hlong] at hfault
    cases hfault

/-! ## Names -/

/-- Why steps have no names, or names that are of no use. -/
inductive LacksNames (steps : List Text) : Fault → Prop
  /-- Some code point is in no name. -/
  | notPath {step : Text} {p : CodePoint} (hstep : step ∈ steps) (hp : p ∈ step)
      (h : Path.nameBytes? p = none) : LacksNames steps (.storage .notPath)
  /-- All names are there, but they are too long for a path. -/
  | tooLong {names : List Name} (hnames : steps.mapM Path.name? = some names)
      (h : Path.lengthLimit < (Path.bytes names).length) :
      LacksNames steps (.storage .nameTooLong)

theorem LacksNames.isStorage {steps : List Text} {fault : Fault} (h : LacksNames steps fault) :
    IsStorage fault := by
  cases h <;> exact ⟨_, rfl⟩

/-- A list that has no list of results has an item without a result. -/
theorem exists_of_mapM_eq_none {α β : Type} {f : α → Option β} {as : List α}
    (h : as.mapM f = none) : ∃ a ∈ as, f a = none := by
  induction as with
  | nil => cases h
  | cons a as ih =>
    cases ha : f a with
    | none => exact ⟨a, List.mem_cons_self, ha⟩
    | some b =>
      rw [List.mapM_cons, ha] at h
      cases hrest : as.mapM f with
      | none =>
        obtain ⟨a', hmem, ha'⟩ := ih hrest
        exact ⟨a', List.mem_cons_of_mem a hmem, ha'⟩
      | some bs =>
        rw [hrest] at h
        cases h

theorem names_meets (steps : List Text) :
    Except.Meets (Path.names steps) (fun names => steps.mapM Path.name? = some names)
      (LacksNames steps) := by
  unfold Path.names
  split
  next hnone =>
    obtain ⟨step, hstep, hname⟩ := exists_of_mapM_eq_none hnone
    obtain ⟨p, hp, hbytes⟩ := exists_of_mapM_eq_none (Option.map_eq_none_iff.mp hname)
    exact .notPath hstep hp hbytes
  next names hnames =>
    split_ifs with hlength
    · exact .tooLong hnames hlength
    · exact hnames

/-- The names of steps are those of the steps before the last one, and one more. -/
theorem exists_names_append {front : List Text} {last : Text} {above names : List Name}
    (habove : front.mapM Path.name? = some above)
    (hnames : (front ++ [last]).mapM Path.name? = some names) :
    ∃ name, names = above ++ [name] := by
  rw [List.mapM_append, habove] at hnames
  cases hlast : Path.name? last with
  | none => simp [hlast] at hnames
  | some name => exact ⟨name, by simpa [hlast] using hnames.symm⟩

/-! ## Making directories -/

/-- What making a directory gives, with those above it, whether it succeeds or not. -/
structure Makes (s : Storage) (names : List Name) (result : Except Fault Unit × Storage) :
    Prop where
  kept : ∀ place, KeptAt s result.2 place
  outcome : Except.Meets result.1 (fun _ => result.2.isDirectory names = true) IsStorage

/-- Making directories goes on where others were made. -/
theorem Makes.after {s made : Storage} {names : List Name} {result : Except Fault Unit × Storage}
    (h : Makes made names result) (hmade : ∀ place, KeptAt s made place) : Makes s names result :=
  ⟨fun place => (hmade place).trans (h.kept place), h.outcome⟩

theorem makes_accept (s : Storage) (names : List Name) {fault : Fault} (h : IsStorage fault) :
    Makes s names (s.accept names fault) := by
  rw [accept]
  split_ifs with hdirectory
  · exact ⟨KeptAt.refl s, hdirectory⟩
  · exact ⟨KeptAt.refl s, h⟩

theorem makeDirectory_meets (s : Storage) (above : List Name) (name : Name) :
    Except.Meets (s.makeDirectory above name) (fun made => Makes s (above ++ [name]) (.ok (), made))
      IsStorage := by
  cases hmake : s.makeDirectory above name with
  | error fault =>
    have hmeets : Except.Meets (s.makeDirectory above name) (fun _ => True) IsStorage :=
      (walk_meets s [] above).bind fun parent _ => (walk_meets s parent [name]).bind fun place _ =>
        Except.Meets.guard (fun _ => ⟨_, rfl⟩) fun _ => trivial
    exact hmeets.of_error hmake
  | ok made =>
    obtain ⟨parent, hparent, hmake⟩ := Except.bind_eq_ok.mp hmake
    obtain ⟨place, hplace, hmake⟩ := Except.bind_eq_ok.mp hmake
    obtain ⟨hfree, hput⟩ := Except.guard_eq_ok.mp hmake
    cases hput
    rw [not_or, Bool.not_eq_true, Option.isSome_eq_false_iff, Option.isNone_iff_eq_none] at hfree
    have hroot : place ≠ [] := by
      rintro rfl
      cases hfree.2
    have hlead : s.walk [] (above ++ [name]) = .ok place := by
      rw [walk_append]
      exact (Except.bind_of_ok hparent).trans hplace
    have hnone : s.find? place ≠ some .directory := by
      rw [hfree.2]
      exact nofun
    exact ⟨keptAt_put_directory hfree.2, isDirectory_iff.mpr
      ⟨place, walk_put .directory hnone hlead, find?_put_self s place .directory hroot⟩⟩

/-- **Making directories leaves what is there**, and where it succeeds there is a directory with
these names. -/
theorem makes_makeDirectories (s : Storage) (names : List Name) :
    Makes s names.reverse (s.makeDirectories names) := by
  induction names with
  | nil => exact ⟨KeptAt.refl s, rfl⟩
  | cons name above ih =>
    rw [makeDirectories, List.reverse_cons]
    have hfirst := makeDirectory_meets s above.reverse name
    cases hmake : s.makeDirectory above.reverse name with
    | ok made => exact hfirst.of_ok hmake
    | error fault =>
      show Makes s (above.reverse ++ [name]) (ite _ _ _)
      split_ifs
      · exact makes_accept s _ (hfirst.of_error hmake)
      · rcases hrest : s.makeDirectories above with ⟨fault | _, made⟩
        · rw [hrest] at ih
          exact ⟨ih.kept, ih.outcome⟩
        · rw [hrest] at ih
          have hagain := makeDirectory_meets made above.reverse name
          dsimp only
          cases hmake' : made.makeDirectory above.reverse name with
          | ok made' => exact (hagain.of_ok hmake').after ih.kept
          | error fault' => exact (makes_accept made _ (hagain.of_error hmake')).after ih.kept

/-! ## The way to a file -/

/-- The directories above a path could be made, and this is the tree with them. -/
def MakesParents (s : Storage) (path : Text) (made : Storage) : Prop :=
  ∃ above, Path.names (Path.steps path).dropLast = .ok above
    ∧ s.makeDirectories above.reverse = (.ok (), made)

theorem MakesParents.prepare {s made : Storage} {path : Text} (h : MakesParents s path made) :
    s.prepare path = (made.filePlace path, made) := by
  obtain ⟨above, hnames, hmade⟩ := h
  rw [Storage.prepare, hnames]
  dsimp only
  rw [hmade]

theorem keptAt_prepare (s : Storage) (path : Text) (place : Place) :
    KeptAt s (s.prepare path).2 place := by
  unfold prepare
  split
  next => exact KeptAt.refl s place
  next above _ =>
    have hkept := (makes_makeDirectories s above.reverse).kept place
    split <;>
    next hmade =>
      rw [hmade] at hkept
      exact hkept

theorem filePlace_meets_isStorage (s : Storage) (path : Text) :
    Except.Meets (s.filePlace path) (fun _ => True) IsStorage := by
  refine ((names_meets _).weaken fun _ => LacksNames.isStorage).bind fun names _ => ?_
  refine (walk_meets s [] names).bind fun place _ => ?_
  exact Except.Meets.guard (fun _ => ⟨_, rfl⟩) fun _ => trivial

/-- What fails on the way to a file fails for reasons of the path. -/
theorem prepare_meets (s : Storage) (path : Text) :
    Except.Meets (s.prepare path).1 (fun _ => True) IsStorage := by
  unfold prepare
  split
  next fault hnames => exact ((names_meets _).of_error hnames).isStorage
  next above _ =>
    have hmakes := (makes_makeDirectories s above.reverse).outcome
    split
    next fault made hmade =>
      rw [hmade] at hmakes
      exact hmakes
    next made _ => exact filePlace_meets_isStorage made path

/-- Why a path has no file at its end, in a tree with the directories above it. -/
inductive IsFinalFault (s : Storage) (path : Text) : Fault → Prop
  /-- Its steps have no names that a path can have. -/
  | unnamed {fault : Fault} (h : LacksNames (Path.steps path) fault) : IsFinalFault s path fault
  /-- The last name is too long for a file. -/
  | nameTooLong {above : List Name} {name : Name}
      (hnames : (Path.steps path).mapM Path.name? = some (above ++ [name]))
      (h : nameLimit < name.length) : IsFinalFault s path (.storage .nameTooLong)
  /-- A directory stands where it leads. -/
  | isDirectory {names : List Name} {place : Place}
      (hnames : (Path.steps path).mapM Path.name? = some names)
      (hwalk : s.walk [] names = .ok place) (h : s.find? place = some .directory) :
      IsFinalFault s path (.storage .isDirectory)

/-- **Where the directories above it are made, a path can only fail by its end**: by leading to a
directory, or by a name that no file can have. -/
theorem filePlace_meets {s made : Storage} {path : Text} (h : MakesParents s path made) :
    Except.Meets (made.filePlace path) (fun _ => True) (IsFinalFault made path) := by
  obtain ⟨above, habove, hmade⟩ := h
  have hparents := (makes_makeDirectories s above.reverse).outcome
  rw [hmade, List.reverse_reverse] at hparents
  refine ((names_meets _).weaken fun _ => .unnamed).bind fun names hnames => ?_
  have hwalk : Except.Meets (made.walk [] names) (fun place => made.walk [] names = .ok place)
      (IsFinalFault made path) := by
    refine Except.Meets.of_forall_error fun fault hfault => ?_
    rcases List.eq_nil_or_concat (Path.steps path) with hsteps | ⟨front, last, hsteps⟩
    · rw [hsteps] at hnames
      cases hnames
      cases hfault
    · rw [List.concat_eq_append] at hsteps
      rw [hsteps, List.dropLast_concat] at habove
      obtain ⟨name, rfl⟩ :=
        exists_names_append ((names_meets _).of_ok habove) (hsteps ▸ hnames)
      obtain ⟨hlong, rfl⟩ := walk_concat_error hparents hfault
      exact .nameTooLong hnames hlong
  refine hwalk.bind fun place hplace => ?_
  exact Except.Meets.guard (.isDirectory hnames hplace) fun _ => trivial

/-! ## The file itself -/

/-- Something was written to the file of a path, and to no other place. -/
structure WritesOnly (s left : Storage) (path : Text) (content : Bytes) : Prop where
  content : left.readFile path = .ok content
  others : ∀ place, left.filePlace path ≠ .ok place → KeptAt s left place

theorem writesOnly_of_prepare {s made : Storage} {path : Text} {place : Place}
    (h : s.prepare path = (.ok place, made)) (content : Bytes) :
    WritesOnly s (made.put place (.file content)) path content := by
  have hplace := filePlace_of_prepare h
  refine ⟨readFile_put hplace content, fun other hother => ?_⟩
  have hne : other ≠ place := by
    rintro rfl
    exact hother (filePlace_put hplace content)
  have hkept := keptAt_prepare s path other
  rw [h] at hkept
  exact hkept.trans (keptAt_put (.file content) hne)

end Storage
end VerifiableEscrow
