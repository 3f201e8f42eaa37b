import VerifiableEscrow.Number.Binary64.Digits
import VerifiableEscrow.Run
import VerifiableEscrow.Value.Equality
import VerifiableEscrow.Wire.Parcel

/-!
# Opening parcels

The second phase of reading decodes a parcel against the parameters of an issuer.  A parcel
can be opened once: the first attempt uses it up, whether it succeeds or not, and the attempt
on a ciphertext uses up the proof inside as soon as it gets there.

`openWith` answers with everything that an attempt leaves behind, which is the parcel as it is
afterwards, what is reported, and the outcome.  `opened_openWith` says that every attempt uses
its parcel up, `openWith_of_opened` that a second one changes nothing and fails.
-/

namespace VerifiableEscrow
namespace Wire

/-- What an attempt to open a parcel leaves behind. -/
structure Attempt (σ α : Type) where
  left : σ
  events : List Event
  outcome : Except Fault α

/-- Turns a failure to read an element into a fault of its field. -/
def element (t : Text) (name : String) : Except Fault Text := do
  let digits := Hex.encode (← fieldBytes t name)
  if Element.isElement (.text digits) then return digits
  else throw (.wire (.notElement name))

/-- The exponent in a field. -/
def scalar (t : Text) (name : String) : Except Fault Scalar := do
  let bs ← fieldBytes t name
  if bs.isEmpty then throw (.wire (.emptyScalar name))
  match Scalar.ofInt? (BigEndian.toNat bs) with
  | some x => return x
  | none => throw (.wire (.notScalar name))

/-- The exponent in a field, as a value. -/
def scalarValue (t : Text) (name : String) : Except Fault Value := do
  return .int (← scalar t name).toInt

/-- The proof in its fields. -/
def ProofFields.decode (p : ProofFields) : Except Fault Proof := do
  let c ← scalarValue p.c "c"
  let rXb ← scalarValue p.rXb "rXb"
  let rR ← scalarValue p.rR "rR"
  let rOb ← scalarValue p.rOb "rOb"
  return ⟨c, rXb, rR, rOb⟩

/-- The domain in its fields, which is the issuer's own or none. -/
def decodeDomain (issuer : Issuer) (uidp ge : Text) : Except Fault Domain := do
  let uid ← fieldBytes uidp "uidp"
  if !(Value.bytes uid).same issuer.uid then throw .foreignUid
  let d ← issuer.check.mapError fun why => .wire (.issuer why)
  if (← element ge "ge") ≠ d.ge then throw (.wire .foreignGenerator)
  return d

/-- The digits that an issuer's identifier is reported by. -/
def uidDigits : Value → Except Fault Text
  | .bytes uid => .ok (Hex.encode uid)
  | .float x _ => .ok (Text.of x.hexadecimal)
  | _ => .error .wrongKind

/-- What is reported of an opened parcel. -/
def report (form : Form) (issuer : Issuer) : Except Fault Event := do
  return .opened form.name (← uidDigits issuer.uid)

/-- Ends an attempt whose outcome is known: success is reported. -/
def finish {σ α : Type} (form : Form) (issuer : Issuer) (left : σ) (events : List Event)
    (outcome : Except Fault α) : Attempt σ α :=
  match outcome with
  | .error fault => ⟨left, events, .error fault⟩
  | .ok a =>
      match report form issuer with
      | .ok event => ⟨left, events ++ [event], .ok a⟩
      | .error fault => ⟨left, events, .error fault⟩

/-- Tries to open the fields of a proof, which may have been opened before. -/
def openProof (fields : ProofFields) (opened : Bool) (issuer : Issuer) :
    Attempt Bool Proof :=
  if opened then ⟨true, [], .error (.wire (.alreadyOpened Form.proof.name))⟩
  else finish .proof issuer true [] fields.decode

/-- Tries to open contents that have not been opened before. -/
def openContents (contents : Contents) (issuer : Issuer) : Attempt Contents Value :=
  match contents with
  | .domainParameters uidp ge =>
      finish .domainParameters issuer contents []
        ((decodeDomain issuer uidp ge).map Domain.toValue)
  | .publicKey h =>
      finish .publicKey issuer contents []
        ((element h "H").map fun h => PublicKey.toValue ⟨h⟩)
  | .privateKey x =>
      finish .privateKey issuer contents []
        ((scalar x "x").map fun x => PrivateKey.toValue ⟨x⟩)
  | .proof fields => finish .proof issuer contents [] (fields.decode.map Proof.toValue)
  | .ciphertext e1 e2 info label inner innerOpened =>
      let elements : Except Fault (Text × Text) := do
        let e1 ← element e1 "E1"
        let e2 ← element e2 "E2"
        return (e1, e2)
      match elements with
      | .error fault => ⟨contents, [], .error fault⟩
      | .ok (p1, p2) =>
          let attempt := openProof inner innerOpened issuer
          finish .ciphertext issuer (.ciphertext e1 e2 info label inner attempt.left)
            attempt.events
            (attempt.outcome.map fun proof =>
              Ciphertext.toValue ⟨.text p1, .text p2, proof.toValue, label⟩)

/-- Tries to open a parcel with what should be the parameters of an issuer. -/
def Parcel.openWith (p : Parcel) (v : Value) : Attempt Parcel Value :=
  if p.opened then ⟨p, [], .error (.wire (.alreadyOpened p.form.name))⟩
  else
    match Issuer.ofValue? v with
    | none => ⟨⟨p.contents, true⟩, [], .error (.wire .needsIssuer)⟩
    | some issuer =>
        let attempt := openContents p.contents issuer
        ⟨⟨attempt.left, true⟩, attempt.events, attempt.outcome⟩

theorem Parcel.opened_openWith (p : Parcel) (v : Value) : (p.openWith v).left.opened = true := by
  unfold openWith
  split
  · next h => exact h
  · split <;> rfl

theorem Parcel.openWith_of_opened {p : Parcel} (h : p.opened = true) (v : Value) :
    p.openWith v = ⟨p, [], .error (.wire (.alreadyOpened p.form.name))⟩ := by
  simp [openWith, h]

/-- Tries to open the parcel inside a parcel. -/
def Parcel.openInner (p : Parcel) (v : Value) : Attempt Parcel Value :=
  match p.contents with
  | .ciphertext e1 e2 info label inner innerOpened =>
      let attempt := Parcel.openWith ⟨.proof inner, innerOpened⟩ v
      ⟨⟨.ciphertext e1 e2 info label inner attempt.left.opened, p.opened⟩, attempt.events,
        attempt.outcome⟩
  | _ => ⟨p, [], .error .wrongKind⟩

end Wire
end VerifiableEscrow
