import VerifiableEscrow.Number.BigEndian
import VerifiableEscrow.Text.Utf8
import VerifiableEscrow.Value.Equality

/-!
# Reading CBOR

Every item begins with a byte of a major type and a size, and the size may take up to eight
bytes more or be left open.  Sizes need not be the shortest.  An open item ends at a break,
which may stand nowhere else.

The reader takes one item and does not look at what follows it.  Lists, mappings and tags may
stand inside one another up to `depthLimit` deep.

A tag for big integers gives the integer.  Three tags say nothing about the content itself and are
passed over: the mark of the format, that of an item that others may refer to (28), and that of an
item with a table of strings (256).  Any other tag stands in front of its content as a list of two.
This leaves out what some of them mean: references to such items and strings (25 and 29) are not
followed, and dates (0, 1, 100, 1004), fractions (4, 5, 30), patterns and messages (35, 36),
identifiers and addresses (37, 260, 261), sets (258) and complex numbers (43000) are neither built
nor checked.
-/

namespace VerifiableEscrow
namespace Cbor

/-- A given number of bytes from the front. -/
def take? (n : Nat) (bs : Bytes) : Option (Bytes × Bytes) :=
  if n ≤ bs.length then some (bs.take n, bs.drop n) else none

/-- The size in the first byte of an item. -/
inductive Size where
  | given (n : Nat)
  | still
  deriving DecidableEq

/-- The size that the low five bits of a first byte give, with the bytes behind it. -/
def size? (low : Nat) (bs : Bytes) : Option (Size × Bytes) :=
  let longer (width : Nat) : Option (Size × Bytes) := do
    let (digits, rest) ← take? width bs
    some (.given (BigEndian.toNat digits), rest)
  match low with
  | 24 => longer 1
  | 25 => longer 2
  | 26 => longer 4
  | 27 => longer 8
  | 31 => some (.still, bs)
  | n => if n < 24 then some (.given n, bs) else none

/-- The byte that ends an open item. -/
def breakByte : UInt8 := 0xFF

/-- Reads the pieces of an open string up to the break.  Each is a string of the same major
type with a size. -/
def pieces? (major : Nat) : Nat → Bytes → Option (List Bytes × Bytes)
  | 0, _ => none
  | _ + 1, [] => none
  | fuel + 1, b :: bs =>
      if b = breakByte then some ([], bs)
      else if b.toNat / 32 ≠ major then none
      else do
        match ← size? (b.toNat % 32) bs with
        | (.still, _) => none
        | (.given n, bs) =>
            let (p, bs) ← take? n bs
            let (ps, rest) ← pieces? major fuel bs
            some (p :: ps, rest)

/-- Reads the pieces of a string: one with a size, any number without. -/
def string? (major : Nat) (size : Size) (bs : Bytes) : Option (List Bytes × Bytes) :=
  match size with
  | .given n => do
      let (p, rest) ← take? n bs
      some ([p], rest)
  | .still => pieces? major (bs.length + 1) bs

/-- Reads an item of the last major type: words, marks and numbers with a fraction. -/
def simple? (low : Nat) (bs : Bytes) : Option (Value × Bytes) := do
  match low with
  | 20 => some (.bool false, bs)
  | 21 => some (.bool true, bs)
  | 22 => some (.null, bs)
  | 24 =>
      let (digits, rest) ← take? 1 bs
      let n := BigEndian.toNat digits
      if n < 32 then none else some (.mark n, rest)
  | 25 =>
      let (digits, rest) ← take? 2 bs
      some (.readDouble (Binary64.ofBinary16 (BigEndian.toNat digits)), rest)
  | 26 =>
      let (digits, rest) ← take? 4 bs
      some (.readDouble (Binary64.ofBinary32 (BigEndian.toNat digits)), rest)
  | 27 =>
      let (digits, rest) ← take? 8 bs
      some (.readDouble ⟨UInt64.ofNat (BigEndian.toNat digits)⟩, rest)
  | n => if n < 24 then some (.mark n, bs) else none

/-- The value of a tagged item. -/
def tagged? (tag : Nat) (content : Value) : Option Value :=
  match tag, content with
  | 55799, v | 28, v | 256, v => some v
  | 2, .bytes bs => some (.int (BigEndian.toNat bs))
  | 3, .bytes bs => some (.int (-1 - BigEndian.toNat bs))
  | 2, _ => none
  | 3, _ => none
  | n, v => some (.list [.int n, v])

/-- How many lists, mappings and tags may stand inside one another. -/
def depthLimit : Nat := 400

mutual

/-- Reads one item, with room for some lists, mappings and tags inside one another. -/
def item? : Nat → Nat → Bytes → Option (Value × Bytes)
  | 0, _, _ => none
  | _ + 1, _, [] => none
  | fuel + 1, room, b :: bs =>
      let major := b.toNat / 32
      let low := b.toNat % 32
      if major = 7 then simple? low bs
      else do
        let (size, bs) ← size? low bs
        match major, size, room with
        | 0, .given n, _ => some (.int n, bs)
        | 1, .given n, _ => some (.int (-1 - (n : Int)), bs)
        | 2, size, _ =>
            let (ps, rest) ← string? 2 size bs
            some (.bytes ps.flatten, rest)
        | 3, size, _ =>
            let (ps, rest) ← string? 3 size bs
            let ts ← ps.mapM Utf8.decode?
            some (.text ts.flatten, rest)
        | 4, .given n, room + 1 =>
            let (vs, rest) ← items? fuel room n bs
            some (.list vs, rest)
        | 4, .still, room + 1 =>
            let (vs, rest) ← openItems? fuel room bs
            some (.list vs, rest)
        | 5, .given n, room + 1 =>
            let (es, rest) ← entries? fuel room n [] bs
            some (.dict es, rest)
        | 5, .still, room + 1 =>
            let (es, rest) ← openEntries? fuel room [] bs
            some (.dict es, rest)
        | 6, .given n, room + 1 =>
            let (v, rest) ← item? fuel room bs
            let v ← tagged? n v
            some (v, rest)
        | _, _, _ => none

/-- Reads a given number of items. -/
def items? : Nat → Nat → Nat → Bytes → Option (List Value × Bytes)
  | _, _, 0, bs => some ([], bs)
  | 0, _, _ + 1, _ => none
  | fuel + 1, room, n + 1, bs => do
      let (v, bs) ← item? fuel room bs
      let (vs, rest) ← items? fuel room n bs
      some (v :: vs, rest)

/-- Reads items up to the break. -/
def openItems? : Nat → Nat → Bytes → Option (List Value × Bytes)
  | 0, _, _ => none
  | _ + 1, _, [] => none
  | fuel + 1, room, b :: bs =>
      if b = breakByte then some ([], bs)
      else do
        let (v, bs) ← item? fuel room (b :: bs)
        let (vs, rest) ← openItems? fuel room bs
        some (v :: vs, rest)

/-- Reads a given number of entries behind those read before. -/
def entries? : Nat → Nat → Nat → List (Value × Value) → Bytes →
    Option (List (Value × Value) × Bytes)
  | _, _, 0, es, bs => some (es, bs)
  | 0, _, _ + 1, _, _ => none
  | fuel + 1, room, n + 1, es, bs => do
      let (k, bs) ← item? fuel room bs
      let (v, bs) ← item? fuel room bs
      entries? fuel room n (Value.insert es k v) bs

/-- Reads entries up to the break, behind those read before. -/
def openEntries? : Nat → Nat → List (Value × Value) → Bytes →
    Option (List (Value × Value) × Bytes)
  | 0, _, _, _ => none
  | _ + 1, _, _, [] => none
  | fuel + 1, room, es, b :: bs =>
      if b = breakByte then some (es, bs)
      else do
        let (k, bs) ← item? fuel room (b :: bs)
        let (v, bs) ← item? fuel room bs
        openEntries? fuel room (Value.insert es k v) bs

end

/-- Reads the item at the front of a byte string. -/
def read? (bs : Bytes) : Option Value :=
  (item? (2 * bs.length + 2) depthLimit bs).map Prod.fst

end Cbor
end VerifiableEscrow
