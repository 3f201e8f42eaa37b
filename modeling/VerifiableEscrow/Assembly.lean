import VerifiableEscrow.Presentation
import VerifiableEscrow.Wire.Form

/-!
# Building objects from their fields

An object is built from a kind and named fields.  Fields that are left out take the default
of their kind, where it has one; then the checks of the kind are run.  What has been built is
a value again, so that objects can stand inside one another.
-/

namespace VerifiableEscrow

/-- The value of a field that is left out. -/
def RecordKind.default? : RecordKind → String → Option Value
  | .issuerParameters, "hash_name" => some (.text (Text.of Issuer.defaultHash.name))
  | .issuerParameters, "g" => some (.text Element.generator)
  | .issuerParameters, "group_name" => some (.text Issuer.group)
  | .ciphertext, "label" => some .null
  | .token, "is_device_protected" => some (.bool false)
  | .presentationProof, "commitments" => some .null
  | .commitmentPrivateValues, "tilde_o" => some .null
  | _, _ => none

namespace Value

/-- The fields of a kind in order, out of those given and the defaults. -/
def arrange (kind : RecordKind) (given : List (String × Value)) : Except Fault (List Value) :=
  if given.any fun field => !kind.fieldNames.contains field.1 then .error .wrongKind
  else kind.fieldNames.mapM fun name =>
    match (given.lookup name).or (kind.default? name) with
    | some v => .ok v
    | none => .error .wrongKind

/-- Runs the checks of a kind on its fields. -/
def assemble (kind : RecordKind) (fields : List Value) : Run Value := do
  match kind, fields with
  | .domainParameters, [ip] => return (← Domain.ofIssuer ip).toValue
  | .privateKey, [x] => return (← PrivateKey.ofField x).toValue
  | .publicKey, [h] => return (← PublicKey.ofField h).toValue
  | .ciphertext, [e1, e2, proof, label] =>
      return (← Ciphertext.ofFields e1 e2 proof label).toValue
  | .randomnessBundle, [r, xbPrime, rPrime, obPrime] =>
      return (← Bundle.ofFields r xbPrime rPrime obPrime).toValue
  | .fixedRandomness, [bundle] => Source.buildFixed bundle
  | .systemRandomness, [] => Source.buildSystem
  | kind, fields => return .record kind fields

/-- Builds an object. -/
def build (kind : RecordKind) (given : List (String × Value)) : Run Value := do
  assemble kind (← arrange kind given)

/-- What an object answers when it is asked for one of its fields, or for what its kind tells
besides them. -/
def lookUp (v : Value) (name : String) : Option Value :=
  match v with
  | .record kind fields =>
      match (kind.fieldNames.zip fields).lookup name with
      | some content => some content
      | none => derived v name
  | _ => none
where
  /-- What the parameters of an issuer or a domain tell besides their fields. -/
  derived (v : Value) (name : String) : Option Value := do
    let issuer ← Issuer.ofContext? v
    match name, Domain.ofValue? v with
    | "zq", _ => some (.int groupOrder)
    | "ge", some d => some (.text d.ge)
    | "uid_p", some _ => some issuer.uid
    | "group_name", some _ => some issuer.groupName
    | "hash_name", some _ => some issuer.hashName
    | "g", some _ => some issuer.g
    | "g1", some _ => some issuer.g1
    | _, _ => none

end Value

/-- The constants of the scheme under their names. -/
def constants : List (String × Value) :=
  [("ESC_DOMAIN_TAG", .text (Hex.encode Transcript.challengeTag)),
    ("TID_DOMAIN_TAG", .text (Hex.encode Transcript.tokenTag)),
    ("XI_DOMAIN_TAG", .text (Hex.encode Transcript.attributeTag)),
    ("GROUP_NAME", .text Issuer.group),
    ("DEFAULT_HASH", .text (Text.of Issuer.defaultHash.name)),
    ("SUPPORTED_HASHES", .list (HashFunction.all.map fun f => .text (Text.of f.name))),
    ("NULL_SENTINEL", .text Wire.noLabel),
    ("g1_identity", .text Element.identity),
    ("g1_generator", .text Element.generator),
    ("curve_order", .int groupOrder),
    ("G1_HEX_LENGTH", .int Point.encodedLength)]

end VerifiableEscrow
