import VerifiableEscrow.Fault
import VerifiableEscrow.Value

/-!
# Ciphertexts and proofs

A ciphertext carries the two elements of an ElGamal encryption, the proof that it encrypts
the committed attribute, and a label that is bound to the proof but stands in the clear.
Nothing is known of the elements and of the proof's numbers until the proof is verified, so
they are kept as they came.
-/

namespace VerifiableEscrow

/-- The challenge and the three responses of an escrow proof. -/
structure Proof where
  c : Value
  rXb : Value
  rR : Value
  rOb : Value

/-- An encryption of a pseudonym with its proof. -/
structure Ciphertext where
  e1 : Value
  e2 : Value
  proof : Value
  label : Option Bytes

namespace Proof

/-- The proof that a value is. -/
def ofValue? : Value → Option Proof
  | .record .proof [c, rXb, rR, rOb] => some ⟨c, rXb, rR, rOb⟩
  | _ => none

/-- A proof as a value. -/
def toValue (p : Proof) : Value := .record .proof [p.c, p.rXb, p.rR, p.rOb]

@[simp] theorem ofValue?_toValue (p : Proof) : ofValue? p.toValue = some p := rfl

/-- The challenge and the responses, in the order in which they are checked. -/
def numbers (p : Proof) : List Value := [p.c, p.rXb, p.rR, p.rOb]

end Proof

namespace Ciphertext

/-- A label as a value. -/
def labelValue : Option Bytes → Value
  | none => .null
  | some bs => .bytes bs

/-- The ciphertext of four values: no part but the label may be missing, and the label is a
byte string. -/
def ofFields (e1 e2 proof label : Value) : Except Fault Ciphertext :=
  if e1.isNull || e2.isNull || proof.isNull then .error (.argument .ciphertextMissing)
  else match label with
    | .null => .ok ⟨e1, e2, proof, none⟩
    | .bytes bs => .ok ⟨e1, e2, proof, some bs⟩
    | _ => .error (.argument .ciphertextLabel)

/-- The ciphertext that a value is. -/
def ofValue? : Value → Option Ciphertext
  | .record .ciphertext [e1, e2, proof, label] => (ofFields e1 e2 proof label).toOption
  | _ => none

/-- A ciphertext as a value. -/
def toValue (ct : Ciphertext) : Value :=
  .record .ciphertext [ct.e1, ct.e2, ct.proof, labelValue ct.label]

end Ciphertext
end VerifiableEscrow
