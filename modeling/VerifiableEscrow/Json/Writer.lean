import VerifiableEscrow.Number.Binary64.Shortest
import VerifiableEscrow.Value

/-!
# Writing JSON

Only ASCII is written: what lies beyond, and what is not printable, stands as an escape of
four digits, as a pair of two where one does not reach.  Two layouts are in use, one on a
single line and one that gives each item a line of its own.

A value that JSON has no form for ends the writing where it stands.  The text before it has
been written by then, so writing answers with a `Draft`: a text, and whether it is complete.
-/

namespace VerifiableEscrow
namespace Json

/-- What has been written, and whether it is all. -/
structure Draft where
  text : Text
  complete : Bool

namespace Draft

/-- Nothing yet, and nothing missing. -/
def empty : Draft := ⟨[], true⟩

/-- A finished piece. -/
def piece (t : Text) : Draft := ⟨t, true⟩

/-- The end of what can be written. -/
def stuck : Draft := ⟨[], false⟩

/-- One draft behind another; nothing follows an incomplete one. -/
def append (a b : Draft) : Draft := if a.complete then ⟨a.text ++ b.text, b.complete⟩ else a

instance : Append Draft := ⟨append⟩

end Draft

/-- How the items of lists and mappings are set apart. -/
inductive Layout where
  | line
  | indented
  deriving DecidableEq

namespace Layout

/-- What stands in front of the first item, inside a given number of brackets. -/
def lead : Layout → Nat → Text
  | line, _ => []
  | indented, depth => .char '\n' :: List.replicate (2 * depth) (.char ' ')

/-- What stands between two items. -/
def separator (layout : Layout) (depth : Nat) : Text :=
  match layout with
  | line => Text.of ", "
  | indented => .char ',' :: layout.lead depth

end Layout

/-- The escape of a number below `2 ^ 16`. -/
def escape (n : Nat) : Text := Text.ofChars ('\\' :: 'u' :: Text.digits 16 4 n)

/-- How a code point stands in a string. -/
def escaped (p : CodePoint) : Text :=
  let n := p.toNat
  if p = .char '"' ∨ p = .char '\\' then [.char '\\', p]
  else if p = .char '\n' then Text.of "\\n"
  else if p = .char '\r' then Text.of "\\r"
  else if p = .char '\t' then Text.of "\\t"
  else if n = 8 then Text.of "\\b"
  else if n = 12 then Text.of "\\f"
  else if 32 ≤ n ∧ n ≤ 126 then [p]
  else if n < 0x10000 then escape n
  else escape (0xD800 + (n - 0x10000) / 0x400) ++ escape (0xDC00 + (n - 0x10000) % 0x400)

/-- A string between its quotes. -/
def quoted (t : Text) : Text := .char '"' :: t.flatMap escaped ++ [.char '"']

/-- How numbers with a fraction are written. -/
def floatLayout : Binary64.Layout := ⟨-4, 16, "NaN", "Infinity"⟩

/-- The text of a value that has no parts of its own, where JSON has a form for it. -/
def scalarText? : Value → Option Text
  | .null => some (Text.of "null")
  | .bool true => some (Text.of "true")
  | .bool false => some (Text.of "false")
  | .int n => some (Text.ofInt n)
  | .float x _ => some (Text.of (x.shortest floatLayout))
  | _ => none

/-- The string that a key is written as: numbers and the three words become text. -/
def keyText? : Value → Option Text
  | .text t => some t
  | v => scalarText? v

mutual

/-- Writes a value that stands inside a given number of brackets. -/
def draft (layout : Layout) (depth : Nat) : Value → Draft
  | .text t => .piece (quoted t)
  | .list [] => .piece (Text.of "[]")
  | .list (v :: vs) =>
      .piece (.char '[' :: layout.lead (depth + 1)) ++ draft layout (depth + 1) v
        ++ draftItems layout (depth + 1) vs
        ++ .piece (layout.lead depth ++ Text.of "]")
  | .dict [] => .piece (Text.of "\x7b\x7d")
  | .dict ((k, v) :: entries) =>
      .piece (.char '\x7b' :: layout.lead (depth + 1)) ++ draftKey k
        ++ draft layout (depth + 1) v
        ++ draftEntries layout (depth + 1) entries
        ++ .piece (layout.lead depth ++ Text.of "\x7d")
  | v =>
      match scalarText? v with
      | some t => .piece t
      | none => .stuck

/-- Writes the items of a list behind the first one. -/
def draftItems (layout : Layout) (depth : Nat) : List Value → Draft
  | [] => .empty
  | v :: vs =>
      .piece (layout.separator depth) ++ draft layout depth v ++ draftItems layout depth vs

/-- Writes the entries of a mapping behind the first one.  A key that cannot be written leaves
no separator behind. -/
def draftEntries (layout : Layout) (depth : Nat) : List (Value × Value) → Draft
  | [] => .empty
  | (k, v) :: entries =>
      (if (keyText? k).isSome then .piece (layout.separator depth) else .stuck) ++ draftKey k
        ++ draft layout depth v ++ draftEntries layout depth entries

/-- Writes a key and the colon behind it. -/
def draftKey (k : Value) : Draft :=
  match keyText? k with
  | some t => .piece (quoted t ++ Text.of ": ")
  | none => .stuck

end

/-- The text of a value in a layout, where all of it can be written. -/
def write? (layout : Layout) (v : Value) : Option Text :=
  let d := draft layout 0 v
  if d.complete then some d.text else none

end Json
end VerifiableEscrow
