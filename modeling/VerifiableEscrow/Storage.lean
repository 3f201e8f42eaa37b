import VerifiableEscrow.Json.Reader
import VerifiableEscrow.Json.Writer
import VerifiableEscrow.Storage.Tree
import VerifiableEscrow.Wire.Carrier

/-!
# JSON files

Writing a JSON file makes the directories above it, empties the file, and then writes piece
by piece; a value that JSON has no form for leaves the pieces before it behind.  Reading
takes strict UTF-8 with any kind of line end.
-/

namespace VerifiableEscrow
namespace Storage

/-- Writes a value as a JSON file.  The tree is what writing leaves behind, complete or not. -/
def saveJson (s : Storage) (path : Text) (v : Value) : Except Fault Text × Storage :=
  let draft := Json.draft .indented 0 v
  match s.writeFile path (Utf8.encode draft.text) with
  | (.error fault, made) => (.error fault, made)
  | (.ok (), written) =>
      (if draft.complete then .ok draft.text else .error .wrongKind, written)

/-- Reads the value in a JSON file. -/
def loadJson (s : Storage) (path : Text) : Except Fault Value := do
  let content ← s.readFile path
  match Utf8.decode? content with
  | none => throw .notUtf8
  | some t =>
      match Json.read? (Text.unifyLineEnds t) with
      | some v => return v
      | none => throw (.notJson (t := Text.unifyLineEnds t))

/-- Writes the wire form of a value as a JSON file.  A value without one is refused before
anything is touched. -/
def save (s : Storage) (path : Text) (v : Value) : Except Fault Text × Storage :=
  match Wire.ofValue v with
  | .error fault => (.error fault, s)
  | .ok form => s.saveJson path form

/-- Packs the value in a JSON file. -/
def load (s : Storage) (path : Text) (target : Wire.Target) : Except Fault Wire.Parcel := do
  Wire.pack target (← s.loadJson path)

end Storage
end VerifiableEscrow
