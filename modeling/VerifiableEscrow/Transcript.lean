import VerifiableEscrow.Digest
import VerifiableEscrow.Fault
import VerifiableEscrow.Text.Hex
import VerifiableEscrow.Value.Description

/-!
# Transcripts

What is hashed is a tag followed by *framed* items: four bytes with the length of the item,
then the item.  Framing keeps neighbours apart whose lengths vary, and the three tags keep
apart the three kinds of transcript.  A missing item is framed like an empty one.
-/

namespace VerifiableEscrow
namespace Transcript

/-- The bytes of an ASCII string. -/
def ascii (s : String) : Bytes := s.toList.map fun c => UInt8.ofNat c.toNat

/-- The tag of a challenge. -/
def challengeTag : Bytes := ascii "ESCROW|PROOF|v1|"

/-- The tag of a token identifier. -/
def tokenTag : Bytes := ascii "TOKEN|To|ID|v1|"

/-- The tag of an attribute's exponent. -/
def attributeTag : Bytes := ascii "ATTRIBUTE|To|Int|v1|"

/-- An item behind its length. -/
def frame (item : Bytes) : Except Fault Bytes :=
  if item.length < BigEndian.capacity 4 then .ok (BigEndian.fixed 4 item.length ++ item)
  else .error .oversized

/-- The bytes of an item that may be missing. -/
def item : Value → Except Fault Bytes
  | .null => .ok []
  | .bytes bs => .ok bs
  | _ => .error .wrongKind

/-- An item that may be missing, behind its length. -/
def framed (v : Value) : Except Fault Bytes := do frame (← item v)

/-- The digits of a framed item. -/
def framedDigits (v : Value) : Except Fault Text := do return Hex.encode (← framed v)

/-- A tag followed by framed items. -/
def build (tag : Bytes) (items : List Value) : Except Fault Bytes := do
  return tag ++ (← items.mapM framed).flatten

/-- The hash function that a value names. -/
def hashFunction (name : Value) : Except Fault HashFunction :=
  let found := match name with
    | .text t => HashFunction.ofName? t
    | _ => none
  match found with
  | some f => .ok f
  | none => .error (.issuer (.hashFunction name.shown))

/-- The bytes of digits that stand without blanks.  Bytes are taken as the ASCII text they
spell. -/
def strictBytes : Value → Except Fault Bytes
  | .text t => read t
  | .bytes bs => read (Text.ofBytes bs)
  | _ => .error .wrongKind
where
  read (t : Text) : Except Fault Bytes :=
    match Hex.decode? t with
    | some bs => .ok bs
    | none => .error (.notHex (t := t))

/-- The bytes of digits that blanks may separate. -/
def spacedBytes : Value → Except Fault Bytes
  | .text t =>
      match Hex.decodeSpaced? t with
      | some bs => .ok bs
      | none => .error (.notHex (t := t))
  | _ => .error .wrongKind

/-- The digest of the bytes that digits spell.  The hash function is looked up first. -/
def digestOfDigits (input name : Value) : Except Fault Text := do
  let f ← hashFunction name
  let message ← strictBytes input
  return Hex.encode (f.digest message)

end Transcript
end VerifiableEscrow
