import VerifiableEscrow.Element
import VerifiableEscrow.Transcript

/-!
# Issuers

An `Issuer` is what a credential issuer publishes, as it arrives: an identifier, the name of
the group, two bases for commitments and the name of a hash function, none of them checked.
A `Domain` is an issuer whose parameters have passed the check, and it keeps what the check
has found: the bytes of the identifier, a second base that is a valid element and is not
spelled like the identity, and the hash function itself.  The first base and the group are
the same for all domains.

`Issuer.check` is the only way from one to the other, and `check_issuer` says that a domain
passes its own check.
-/

namespace VerifiableEscrow

/-- The parameters that an issuer publishes. -/
structure Issuer where
  uid : Value
  g1 : Value
  hashName : Value
  g : Value
  groupName : Value

/-- An issuer whose parameters have been checked. -/
structure Domain where
  uid : Bytes
  g1 : Text
  hash : HashFunction
  uid_ne_nil : uid ≠ []
  isElement_g1 : Element.isElement (.text g1) = true
  g1_ne_identity : g1 ≠ Element.identity

namespace Issuer

/-- The name of the group. -/
def group : Text := Text.of "bls12-381-g1"

/-- The hash function of an issuer that names none. -/
def defaultHash : HashFunction := .sha256

/-- The issuer that a value is. -/
def ofValue? : Value → Option Issuer
  | .record .issuerParameters [uid, g1, hashName, g, groupName] =>
      some ⟨uid, g1, hashName, g, groupName⟩
  | _ => none

/-- An issuer as a value. -/
def toValue (i : Issuer) : Value :=
  .record .issuerParameters [i.uid, i.g1, i.hashName, i.g, i.groupName]

@[simp] theorem ofValue?_toValue (i : Issuer) : ofValue? i.toValue = some i := rfl

/-- Whether a value is the given text. -/
def isText (v : Value) (t : Text) : Bool :=
  match v with
  | .text s => s = t
  | _ => false

/-- The identifier, if it is a byte string that is not empty. -/
def uid? (i : Issuer) : Option { bs : Bytes // bs ≠ [] } :=
  match i.uid with
  | .bytes bs => if h : bs ≠ [] then some ⟨bs, h⟩ else none
  | _ => none

/-- The second base, if it is a valid element that is not spelled like the identity. -/
def base? (i : Issuer) :
    Option { t : Text // Element.isElement (.text t) = true ∧ t ≠ Element.identity } :=
  match i.g1 with
  | .text t =>
      if h : Element.isElement (.text t) = true ∧ t ≠ Element.identity then some ⟨t, h⟩
      else none
  | _ => none

/-- The hash function, if its name is known. -/
def hash? (i : Issuer) : Option HashFunction :=
  match i.hashName with
  | .text t => HashFunction.ofName? t
  | _ => none

/-- Checks the parameters, in the order of their faults. -/
def check (i : Issuer) : Except IssuerFault Domain :=
  match i.uid? with
  | none => .error .uid
  | some uid =>
    if !isText i.groupName group then .error (.group i.groupName.shown)
    else if !isText i.g Element.generator then .error .generator
    else match i.base? with
      | none => .error .base
      | some base =>
        match i.hash? with
        | none => .error (.hashFunction i.hashName.shown)
        | some hash => .ok ⟨uid.1, base.1, hash, uid.2, base.2.1, base.2.2⟩

end Issuer

namespace Domain

/-- The issuer of a domain. -/
def issuer (d : Domain) : Issuer :=
  ⟨.bytes d.uid, .text d.g1, .text (Text.of d.hash.name), .text Element.generator,
    .text Issuer.group⟩

/-- The generator that ciphertexts are made with. -/
def ge (_ : Domain) : Text := Element.generator

/-- The first base of commitments. -/
def g (_ : Domain) : Text := Element.generator

/-- The domain of a value that should be an issuer. -/
def ofIssuer (v : Value) : Except Fault Domain :=
  match Issuer.ofValue? v with
  | none => .error (.argument .notIssuer)
  | some i => i.check.mapError fun why => .argument (.issuer why)

/-- The domain that a value is. -/
def ofValue? : Value → Option Domain
  | .record .domainParameters [v] => (ofIssuer v).toOption
  | _ => none

/-- A domain as a value. -/
def toValue (d : Domain) : Value := .record .domainParameters [d.issuer.toValue]

theorem hashFunction_ofName?_name (f : HashFunction) :
    HashFunction.ofName? (Text.of f.name) = some f := by
  cases f <;> decide

theorem check_issuer (d : Domain) : d.issuer.check = .ok d := by
  obtain ⟨uid, g1, hash, h1, h2, h3⟩ := d
  simp [issuer, Issuer.check, Issuer.uid?, Issuer.base?, Issuer.hash?, Issuer.isText, h1, h2,
    h3, hashFunction_ofName?_name]

@[simp] theorem ofValue?_toValue (d : Domain) : ofValue? d.toValue = some d := by
  have h : ofIssuer d.issuer.toValue = .ok d := by
    rw [ofIssuer, Issuer.ofValue?_toValue]
    show d.issuer.check.mapError _ = _
    rw [check_issuer]
    rfl
  simp [ofValue?, toValue, h, Except.toOption]

end Domain

namespace Issuer

/-- The issuer that a value is or has: a domain stands for its issuer. -/
def ofContext? (v : Value) : Option Issuer :=
  match ofValue? v with
  | some i => some i
  | none => (Domain.ofValue? v).map Domain.issuer

end Issuer
end VerifiableEscrow
