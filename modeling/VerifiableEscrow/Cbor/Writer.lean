import VerifiableEscrow.Number.BigEndian
import VerifiableEscrow.Text.Utf8
import VerifiableEscrow.Value

/-!
# Writing canonical CBOR

One form for each value: shortest sizes, and the entries of a mapping in the order of their
encoded keys, the shorter first and then byte by byte.
-/

namespace VerifiableEscrow
namespace Cbor

/-- The first bytes of an item: its major type and its size in the fewest bytes. -/
def head (major n : Nat) : Bytes :=
  let first (low : Nat) : UInt8 := UInt8.ofNat (major * 32 + low)
  if n < 24 then [first n]
  else if n < BigEndian.capacity 1 then first 24 :: BigEndian.fixed 1 n
  else if n < BigEndian.capacity 2 then first 25 :: BigEndian.fixed 2 n
  else if n < BigEndian.capacity 4 then first 26 :: BigEndian.fixed 4 n
  else first 27 :: BigEndian.fixed 8 n

/-- The order of encoded keys: by length, then byte by byte. -/
def keyBefore (a b : Bytes) : Bool :=
  a.length < b.length || (a.length = b.length && BigEndian.toNat a ≤ BigEndian.toNat b)

/-- Puts an entry in front of the first one with a later key. -/
def placeEntry (entry : Bytes × Bytes) : List (Bytes × Bytes) → List (Bytes × Bytes)
  | [] => [entry]
  | other :: rest =>
      if keyBefore entry.1 other.1 then entry :: other :: rest
      else other :: placeEntry entry rest

/-- Encoded entries in the order of their keys. -/
def sortEntries (entries : List (Bytes × Bytes)) : List (Bytes × Bytes) :=
  entries.foldr placeEntry []

/-- An integer, with a tag where eight bytes do not hold it. -/
def integer : Int → Bytes
  | .ofNat n =>
      if n < BigEndian.capacity 8 then head 0 n
      else head 6 2 ++ head 2 (BigEndian.byteLength n) ++ BigEndian.minimal n
  | .negSucc n =>
      if n < BigEndian.capacity 8 then head 1 n
      else head 6 3 ++ head 2 (BigEndian.byteLength n) ++ BigEndian.minimal n

mutual

/-- The encoding of a value, where it has one. -/
def write? : Value → Option Bytes
  | .null => some [0xF6]
  | .bool b => some [if b then 0xF5 else 0xF4]
  | .int n => some (integer n)
  | .float x _ => some (0xFB :: BigEndian.fixed 8 x.bits.toNat)
  | .bytes bs => some (head 2 bs.length ++ bs)
  | .text t =>
      let bs := Utf8.encode t
      some (head 3 bs.length ++ bs)
  | .list vs => do
      let items ← writeItems? vs
      some (head 4 vs.length ++ items.flatten)
  | .dict es => do
      let entries ← writeEntries? es
      some (head 5 es.length ++ (sortEntries entries).flatMap fun e => e.1 ++ e.2)
  | .mark 23 => some [0xF7]
  | _ => none

/-- The encodings of the items of a list. -/
def writeItems? : List Value → Option (List Bytes)
  | [] => some []
  | v :: vs => do
      let v ← write? v
      let vs ← writeItems? vs
      some (v :: vs)

/-- The encodings of the keys and contents of a mapping. -/
def writeEntries? : List (Value × Value) → Option (List (Bytes × Bytes))
  | [] => some []
  | (k, v) :: es => do
      let k ← write? k
      let v ← write? v
      let es ← writeEntries? es
      some ((k, v) :: es)

end

end Cbor
end VerifiableEscrow
