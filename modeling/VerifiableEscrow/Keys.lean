import VerifiableEscrow.Issuer
import VerifiableEscrow.Run
import VerifiableEscrow.Slot

/-!
# The auditor's keys

The auditor decrypts with an exponent `x` and publishes `H = ge ^ x`.  A public key is only
known to be text when it is built; whether it is a member of the group other than the
identity, and whether it belongs to a private key, are questions with an answer.
-/

namespace VerifiableEscrow

/-- The auditor's decryption key. -/
structure PrivateKey where
  x : Scalar
  deriving DecidableEq

/-- The auditor's encryption key, as text. -/
structure PublicKey where
  h : Text
  deriving DecidableEq

/-- Something that stands where a private key belongs and has an exponent, checked or not. -/
structure RawPrivateKey where
  x : Value

namespace PrivateKey

/-- The private key of a value that should be an exponent in range. -/
def ofField (v : Value) : Except Fault PrivateKey :=
  match Element.scalar? v with
  | some x => .ok ⟨x⟩
  | none => .error (.argument .privateKey)

/-- The private key that a value is. -/
def ofValue? : Value → Option PrivateKey
  | .record .privateKey [v] => (ofField v).toOption
  | _ => none

/-- A private key as a value. -/
def toValue (k : PrivateKey) : Value := .record .privateKey [.int k.x.toInt]

@[simp] theorem ofValue?_toValue (k : PrivateKey) : ofValue? k.toValue = some k := by
  simp [ofValue?, toValue, ofField, Except.toOption]

/-- A private key as a key that need not have been checked. -/
def toRaw (k : PrivateKey) : RawPrivateKey := ⟨.int k.x.toInt⟩

/-- Draws a private key. -/
def generate (domain : Slot Domain) : Run PrivateKey := do
  if domain.isMissing then throw (.argument (.missing .keyGeneration))
  let x ← Run.draw
  ofField (.int x)

end PrivateKey

namespace RawPrivateKey

/-- The exponent that a value has as a key. -/
def ofValue? : Value → Option RawPrivateKey
  | .record .rawPrivateKey [v] => some ⟨v⟩
  | v => (PrivateKey.ofValue? v).map PrivateKey.toRaw

end RawPrivateKey

/-- Something that stands where a public key belongs and has an element, checked or not. -/
structure RawPublicKey where
  h : Value

namespace PublicKey

/-- The public key of a value that should be text. -/
def ofField : Value → Except Fault PublicKey
  | .text t => .ok ⟨t⟩
  | _ => .error (.argument .publicKey)

/-- The public key that a value is. -/
def ofValue? : Value → Option PublicKey
  | .record .publicKey [.text t] => some ⟨t⟩
  | _ => none

/-- A public key as a value. -/
def toValue (k : PublicKey) : Value := .record .publicKey [.text k.h]

@[simp] theorem ofValue?_toValue (k : PublicKey) : ofValue? k.toValue = some k := rfl

/-- A public key as a key that need not have been checked. -/
def toRaw (k : PublicKey) : RawPublicKey := ⟨.text k.h⟩

/-- The public key of a private one. -/
def derive (domain : Slot Domain) (key : Slot RawPrivateKey) : Except Fault PublicKey := do
  if domain.isMissing || key.isMissing then throw (.argument (.missing .keyDerivation))
  let d ← domain.get
  let k ← key.get
  return ⟨← Element.scale (.text d.ge) k.x⟩

/-- Whether a private key is in range and this is its public key, letter by letter. -/
def verifyConsistency (pk : PublicKey) (domain : Slot Domain) (key : Slot RawPrivateKey) :
    Except Fault Bool := do
  if domain.isMissing || key.isMissing then throw (.argument (.missing .keyConsistency))
  let k ← key.get
  if !Element.isScalar k.x then return false
  let d ← domain.get
  return (← Element.scale (.text d.ge) k.x) = pk.h

/-- Whether a public key is a member of the group that is not spelled like the identity. -/
def verifyWellFormed (pk : PublicKey) : Bool :=
  Element.isElement (.text pk.h) && pk.h ≠ Element.identity

end PublicKey

namespace RawPublicKey

/-- The element that a value has as a key.  A token has one too. -/
def ofValue? : Value → Option RawPublicKey
  | .record .token [_, h, _, _, _, _, _, _] => some ⟨h⟩
  | v => (PublicKey.ofValue? v).map PublicKey.toRaw

@[simp] theorem ofValue?_toValue (k : PublicKey) : ofValue? k.toValue = some k.toRaw := rfl

end RawPublicKey

namespace Issuer

/-- Draws the parameters of a new issuer.  Nobody knows the discrete logarithm of the second
base. -/
def generate (uid hashName : Value) : Run Issuer := do
  let x ← Run.draw
  let g1 ← Element.ofScalar (.int x)
  return ⟨uid, .text g1, hashName, .text Element.generator, .text group⟩

end Issuer
end VerifiableEscrow
