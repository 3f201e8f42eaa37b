import VerifiableEscrow.Ciphertext
import VerifiableEscrow.Curve.ScalarCodec
import VerifiableEscrow.Issuer
import VerifiableEscrow.Keys
import VerifiableEscrow.Text.Base64

/-!
# Wire forms

Five kinds of object travel.  On the wire each is a mapping from field names to Base64 text,
in a fixed order of fields; a ciphertext has its proof nested in it.  Elements are written as
their bytes and exponents as big-endian bytes without a leading zero byte.

A ciphertext without a label has the word `NULL` in place of one.  The three bytes whose
Base64 text is that word cannot be told apart from no label.
-/

namespace VerifiableEscrow
namespace Wire

/-- The kinds of object that have a wire form. -/
inductive Form where
  | domainParameters
  | publicKey
  | privateKey
  | ciphertext
  | proof
  deriving DecidableEq

namespace Form

/-- All forms. -/
def all : List Form := [domainParameters, publicKey, privateKey, ciphertext, proof]

/-- The name of a form. -/
def name : Form → String
  | domainParameters => "DomainParameters"
  | publicKey => "PublicKey"
  | privateKey => "PrivateKey"
  | ciphertext => "Ciphertext"
  | proof => "Proof"

/-- The form of a name. -/
def ofName? (t : Text) : Option Form := all.find? fun f => Text.of f.name = t

/-- The names of the fields, in the order in which they are written. -/
def fieldNames : Form → List String
  | domainParameters => ["uidp", "ge"]
  | publicKey => ["H"]
  | privateKey => ["x"]
  | ciphertext => ["E1", "E2", "info", "ieproof"]
  | proof => ["c", "rXb", "rR", "rOb"]

end Form

/-- What stands in place of a missing label. -/
def noLabel : Text := Text.of "NULL"

/-- A field of a mapping. -/
def field (name : String) (content : Text) : Value × Value :=
  (.text (Text.of name), .text content)

/-- The wire text of an element. -/
def elementText (v : Value) : Except Fault Text := do
  return Base64.encode (← Transcript.spacedBytes v)

/-- The wire text of an exponent. -/
def scalarText (v : Value) : Except Fault Text := do
  return Base64.encode (← integerBytes v)

/-- The wire text of a label. -/
def labelText : Option Bytes → Text
  | none => noLabel
  | some bs => Base64.encode bs

/-- The wire form of a domain. -/
def ofDomain (d : Domain) : Except Fault Value := do
  return .dict [field "uidp" (Base64.encode d.uid), field "ge" (← elementText (.text d.ge))]

/-- The wire form of a proof. -/
def ofProof (p : Proof) : Except Fault Value := do
  let c ← scalarText p.c
  let rXb ← scalarText p.rXb
  let rR ← scalarText p.rR
  let rOb ← scalarText p.rOb
  return .dict [field "c" c, field "rXb" rXb, field "rR" rR, field "rOb" rOb]

/-- The wire form of a value that is no ciphertext. -/
def ofPlain (v : Value) : Except Fault Value :=
  match Domain.ofValue? v, PublicKey.ofValue? v, PrivateKey.ofValue? v, Proof.ofValue? v with
  | some d, _, _, _ => ofDomain d
  | _, some k, _, _ => do return .dict [field "H" (← elementText (.text k.h))]
  | _, _, some k, _ => do return .dict [field "x" (← scalarText (.int k.x.toInt))]
  | _, _, _, some p => ofProof p
  | _, _, _, _ => .error (.wire (.noEncoding (Text.of v.kindName)))

/-- The wire form of a value.  What a ciphertext has in place of its proof is encoded as
whatever it is. -/
def ofValue : Value → Except Fault Value
  | .record .ciphertext [e1, e2, proof, label] => do
      let label ← (match label with
        | .null => .ok none
        | .bytes bs => .ok (some bs)
        | _ => .error .wrongKind : Except Fault (Option Bytes))
      let e1 ← elementText e1
      let e2 ← elementText e2
      let proof ← ofValue proof
      return .dict
        [field "E1" e1, field "E2" e2, field "info" (labelText label),
          (.text (Text.of "ieproof"), proof)]
  | v => ofPlain v

end Wire
end VerifiableEscrow
