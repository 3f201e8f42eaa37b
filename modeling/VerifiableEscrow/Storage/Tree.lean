import VerifiableEscrow.Storage.Path

/-!
# Directory trees

A directory tree is kept flat: a list of places with what stands there, of which the first entry
for a place, the newest, is the one that counts.  The root is a directory and has no entry.
Permissions, links and the room on the disk are left out: a file that a path leads to can be read
and replaced by any other.

Paths are followed step by step, two dots being a step like any other, so a path leads only
through directories that exist.  `makeDirectories` makes those that a path needs, one after
another, and what it has made stays where it fails further on.
-/

namespace VerifiableEscrow

/-- Where a file or a directory stands: the names from the root down. -/
abbrev Place := List Name

/-- What stands at a place. -/
inductive Entry where
  | directory
  | file (content : Bytes)
  deriving DecidableEq

/-- A directory tree. -/
structure Storage where
  entries : List (Place × Entry)

namespace Storage

/-- The empty directory. -/
def empty : Storage := ⟨[]⟩

/-- What stands at a place. -/
def find? (s : Storage) (place : Place) : Option Entry :=
  if place.isEmpty then some .directory
  else (s.entries.find? fun e => e.1 = place).map Prod.snd

/-- The tree with something put at a place. -/
def put (s : Storage) (place : Place) (entry : Entry) : Storage :=
  ⟨(place, entry) :: s.entries⟩

theorem find?_put_self (s : Storage) (place : Place) (entry : Entry) (h : place ≠ []) :
    (s.put place entry).find? place = some entry := by
  simp [find?, put, h]

theorem find?_put_ne (s : Storage) {place other : Place} (entry : Entry) (h : place ≠ other) :
    (s.put place entry).find? other = s.find? other := by
  simp [find?, put, h]

/-! ## Following paths -/

/-- No name is longer than this. -/
def nameLimit : Nat := 255

/-- One step from a directory: two dots lead up, and the root is above itself. -/
def step (place : Place) (name : Name) : Place :=
  if name = Path.up then place.dropLast else place ++ [name]

/-- Fails unless there is a directory at a place. -/
def requireDirectory (s : Storage) (place : Place) : Except Fault Unit :=
  match s.find? place with
  | some .directory => .ok ()
  | some (.file _) => .error (.storage .notDirectory)
  | none => .error (.storage .notFound)

/-- Follows names from a place.  Whatever is stepped through has to be a directory; what the
last name leads to need not exist. -/
def walk (s : Storage) : Place → List Name → Except Fault Place
  | place, [] => .ok place
  | place, name :: names => do
      s.requireDirectory place
      if nameLimit < name.length then throw (.storage .nameTooLong)
      walk s (step place name) names

/-- Whether names lead from the root to a directory. -/
def isDirectory (s : Storage) (names : List Name) : Bool :=
  match s.walk [] names with
  | .ok place => s.find? place = some .directory
  | .error _ => false

/-! ## Making directories -/

/-- Makes the directory of a name below others, which have to exist. -/
def makeDirectory (s : Storage) (above : List Name) (name : Name) : Except Fault Storage := do
  let parent ← s.walk [] above
  let place ← s.walk parent [name]
  if name = Path.up ∨ (s.find? place).isSome then throw (.storage .occupied)
  return s.put place .directory

/-- A directory that could not be made will do if it is there already. -/
def accept (s : Storage) (names : List Name) (fault : Fault) : Except Fault Unit × Storage :=
  if s.isDirectory names then (.ok (), s) else (.error fault, s)

/-- Makes a directory with those above it, given by its names from the last to the first. -/
def makeDirectories (s : Storage) : List Name → Except Fault Unit × Storage
  | [] => (.ok (), s)
  | name :: above =>
      match s.makeDirectory above.reverse name with
      | .ok made => (.ok (), made)
      | .error fault =>
          if fault ≠ .storage .notFound then s.accept (above.reverse ++ [name]) fault
          else match makeDirectories s above with
            | (.error fault, made) => (.error fault, made)
            | (.ok (), made) =>
                match made.makeDirectory above.reverse name with
                | .ok made => (.ok (), made)
                | .error fault => made.accept (above.reverse ++ [name]) fault

/-! ## Files -/

/-- The content of the file that a path leads to. -/
def readFile (s : Storage) (path : Text) : Except Fault Bytes := do
  let place ← s.walk [] (← Path.names (Path.steps path))
  match s.find? place with
  | some (.file content) => return content
  | some .directory => throw (.storage .isDirectory)
  | none => throw (.storage .notFound)

/-- Where a path leads, unless it leads to a directory. -/
def filePlace (s : Storage) (path : Text) : Except Fault Place := do
  let place ← s.walk [] (← Path.names (Path.steps path))
  if s.find? place = some .directory then throw (.storage .isDirectory)
  return place

/-- Makes the directories above a path, and finds the place of a file there. -/
def prepare (s : Storage) (path : Text) : Except Fault Place × Storage :=
  match Path.names (Path.steps path).dropLast with
  | .error fault => (.error fault, s)
  | .ok above =>
      match s.makeDirectories above.reverse with
      | (.error fault, made) => (.error fault, made)
      | (.ok (), made) => (made.filePlace path, made)

/-- Puts a file at a path, with the directories above it. -/
def writeFile (s : Storage) (path : Text) (content : Bytes) : Except Fault Unit × Storage :=
  match s.prepare path with
  | (.error fault, made) => (.error fault, made)
  | (.ok place, made) => (.ok (), made.put place (.file content))

end Storage
end VerifiableEscrow
