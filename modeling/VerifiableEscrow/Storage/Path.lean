import VerifiableEscrow.Fault
import VerifiableEscrow.Text.Utf8

/-!
# Paths

A path is a text with slashes between its steps.  Directories know names as bytes: a text
stands for its UTF-8 bytes, and each byte that is part of no UTF-8 has a half of a surrogate
pair to stand for it, so that every name can be written as text.  Other halves and the
character number zero are in no name.
-/

namespace VerifiableEscrow

/-- A name as a directory knows it. -/
abbrev Name := Bytes

namespace Path

/-- The pieces of a text between slashes. -/
def pieces : Text → List Text
  | [] => [[]]
  | p :: t =>
      if p = .char '/' then [] :: pieces t
      else match pieces t with
        | [] => [[p]]
        | piece :: rest => (p :: piece) :: rest

/-- The steps of a path.  Empty pieces and single dots lead nowhere. -/
def steps (path : Text) : List Text :=
  (pieces path).filter fun piece => !piece.isEmpty && piece ≠ Text.of "."

/-- The step that leads up. -/
def up : Name := [0x2E, 0x2E]

/-- The bytes of a code point in a name, if it can be in one. -/
def nameBytes? : CodePoint → Option Bytes
  | .char c => if c.toNat = 0 then none else some (Utf8.encodePoint (.char c))
  | .half s =>
      let n := 0xD800 + s.val
      if 0xDC80 ≤ n ∧ n ≤ 0xDCFF then some [UInt8.ofNat (n - 0xDC00)] else none

/-- The name of a step. -/
def name? (step : Text) : Option Name := (step.mapM nameBytes?).map List.flatten

/-- No path is longer than this.  The system takes 4095 bytes for a whole path.  Paths here are what
stands below the root of the tree, and 16 bytes are set aside for the path of that root. -/
def lengthLimit : Nat := 4079

/-- The bytes of a path: its names with a slash in front of each. -/
def bytes (names : List Name) : Bytes := names.flatMap fun name => 0x2F :: name

/-- The names of steps. -/
def names (steps : List Text) : Except Fault (List Name) :=
  match steps.mapM name? with
  | none => .error (.storage .notPath)
  | some names =>
      if lengthLimit < (bytes names).length then .error (.storage .nameTooLong)
      else .ok names

end Path
end VerifiableEscrow
