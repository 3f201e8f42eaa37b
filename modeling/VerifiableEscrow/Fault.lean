import VerifiableEscrow.Text

/-!
# What can go wrong

A fault names its cause.  The wording of each cause is given once, in the `message` of its
group.  The faults of plain reading (digits, numerals, the grammar of a file) have no wording of
their own, but they keep the text that could not be read, so that two of them are equal only if
they are about the same text.  It is an implicit part of the fault, since who sorts faults does
not look at it.  The faults left over, those of wrong kinds among them, only say what went wrong.
-/

namespace VerifiableEscrow

/-- Why a text is no element of the group. -/
inductive ElementFault where
  | length
  | notCompressed
  /-- The flag of the identity disagrees with the abscissa, which is zero or not. -/
  | identityFlag (abscissaZero : Bool)
  | signedIdentity
  | outOfField (abscissa : Nat)
  | noSuchPoint
  | offCurve
  | outsideSubgroup
  deriving DecidableEq

/-- Why issuer parameters are of no use. -/
inductive IssuerFault where
  | uid
  | group (shown : Text)
  | generator
  | base
  | hashFunction (shown : Text)
  deriving DecidableEq

/-- The operations that refuse a missing argument. -/
inductive Operation where
  | keyGeneration
  | keyDerivation
  | keyConsistency
  | encryption
  | verification
  | decryption
  | presentationEncryption
  | presentationVerification
  deriving DecidableEq

/-- Why an argument is refused. -/
inductive ArgumentFault where
  | missing (operation : Operation)
  | notIssuer
  | issuer (why : IssuerFault)
  | privateKey
  | publicKey
  | randomness
  | fixedSource
  | ciphertextMissing
  | ciphertextLabel
  | tokenIdMissing
  | tokenId
  | commitment
  | openings
  | label
  | ciphertextElements
  deriving DecidableEq

/-- Why a parcel or its encoding is refused. -/
inductive WireFault where
  | noEncoding (kind : Text)
  | notBase64 (field : String)
  | notElement (field : String)
  | emptyScalar (field : String)
  | notScalar (field : String)
  | notMapping (form : String)
  | missingField (form field : String)
  | notText (form field : String)
  | alreadyOpened (form : String)
  | needsIssuer
  | issuer (why : IssuerFault)
  | foreignGenerator
  | notJson (kind : Text)
  | notCbor (kind : Text)
  deriving DecidableEq

/-- Why a file cannot be reached. -/
inductive StorageFault where
  | notFound
  | occupied
  | notDirectory
  | isDirectory
  | nameTooLong
  /-- A path that no file can have. -/
  | notPath
  deriving DecidableEq

/-- What can go wrong. -/
inductive Fault where
  | element (why : ElementFault)
  | issuer (why : IssuerFault)
  /-- Elements and exponents that do not pair up. -/
  | unpaired
  /-- A text that is not made of pairs of hexadecimal digits. -/
  | notHex {t : Text}
  /-- A text that is no numeral, or the text of a double that is no number. -/
  | notNumeral {t : Text}
  | notTemplate
  /-- The text of a file that is no JSON. -/
  | notJson {t : Text}
  | notUtf8
  /-- A value of a kind that cannot be used where it stands.  Which kind it is found to be is not
  kept, only that no case of the operation is meant for it. -/
  | wrongKind
  /-- A mapping without the key that is looked up. -/
  | missingKey
  | negative
  /-- A number or an item beyond what fits into its place. -/
  | oversized
  /-- A text that would not fit into memory. -/
  | outOfMemory
  | argument (why : ArgumentFault)
  /-- A presentation that cannot be used for an operation. -/
  | artifact (operation : Operation)
  | wire (why : WireFault)
  | foreignUid
  | storage (why : StorageFault)
  deriving DecidableEq

namespace ElementFault

/-- The wording of the reason. -/
def message : ElementFault → Text
  | length => Text.of "compressed G1 point must be 96 hex characters"
  | notCompressed => Text.of "c_flag should be 1"
  | identityFlag true => Text.of "b_flag should be 1"
  | identityFlag false => Text.of "b_flag should be 0"
  | signedIdentity => Text.of "a point at infinity should have a_flag == 0"
  | outOfField x =>
      Text.of "Point value should be less than field modulus. Got " ++ Text.ofNat x
  | noSuchPoint => Text.of "The given point is not on G1: y**2 = x**3 + b"
  | offCurve => Text.of "point is not on the curve"
  | outsideSubgroup => Text.of "point is not in the prime order subgroup"

end ElementFault

namespace IssuerFault

/-- The wording of the reason. -/
def message : IssuerFault → Text
  | uid => Text.of "Issuer uid must be non-empty bytes"
  | group shown => Text.of "Unsupported group: " ++ shown
  | generator => Text.of "g must be the group generator"
  | base => Text.of "g1 must be a non-identity group element"
  | hashFunction shown => Text.of "Unsupported hash function: " ++ shown

end IssuerFault

namespace ArgumentFault

/-- The wording of the refusal. -/
def message : ArgumentFault → Text
  | missing .keyGeneration => Text.of "Null input to PrivateKey.generate"
  | missing .keyDerivation => Text.of "Null input to PublicKey.derive"
  | missing .keyConsistency => Text.of "Null input to PublicKey.verify_consistency"
  | missing .encryption => Text.of "Null input to verifiable_encrypt"
  | missing .verification => Text.of "Null input to verify"
  | missing .decryption => Text.of "Null input to decrypt"
  | missing .presentationEncryption =>
      Text.of "null input to presentation_verifiable_encrypt"
  | missing .presentationVerification => Text.of "null input to presentation_verify"
  | notIssuer => Text.of "DomainParameters needs IssuerParameters"
  | issuer why => Text.of "Invalid issuer parameters: " ++ why.message
  | privateKey => Text.of "private key must be an element of Zq"
  | publicKey => Text.of "public key must be a compressed group element"
  | randomness => Text.of "randomness must be elements of Zq"
  | fixedSource => Text.of "FixedRandomness needs a RandomnessBundle"
  | ciphertextMissing => Text.of "Null inputs to Ciphertext"
  | ciphertextLabel => Text.of "Ciphertext label must be bytes or None"
  | tokenIdMissing => Text.of "Null token id"
  | tokenId => Text.of "token id must be non-empty bytes"
  | commitment => Text.of "commitment must be a compressed group element"
  | openings => Text.of "x_b and o_b must be elements of Zq"
  | label => Text.of "label must be bytes or None"
  | ciphertextElements => Text.of "E1 or E2 is not a valid group element in decrypt"

end ArgumentFault

namespace WireFault

/-- The wording of the refusal. -/
def message : WireFault → Text
  | noEncoding kind => kind ++ Text.of " has no wire encoding"
  | notBase64 field => Text.of (field ++ " is not valid base64")
  | notElement field => Text.of (field ++ " is not an element of the issuer's group")
  | emptyScalar field => Text.of (field ++ " is empty")
  | notScalar field => Text.of (field ++ " is not an element of Zq")
  | notMapping form => Text.of (form ++ " must be a mapping")
  | missingField form field => Text.of (form ++ " is missing field " ++ field)
  | notText form field => Text.of (form ++ "." ++ field ++ " must be a string")
  | alreadyOpened form => Text.of (form ++ " was already finished")
  | needsIssuer => Text.of "finish needs IssuerParameters"
  | issuer why => (ArgumentFault.issuer why).message
  | foreignGenerator => Text.of "ge is not the generator of the issuer's group"
  | notJson kind => kind ++ Text.of " is not valid JSON"
  | notCbor kind => kind ++ Text.of " is not valid CBOR"

end WireFault

namespace Fault

/-- The wording of a fault, where it has one. -/
def message? : Fault → Option Text
  | element why => some why.message
  | issuer why => some why.message
  | unpaired => some (Text.of "multi_scale needs one scalar per element")
  | argument why => some why.message
  | artifact .presentationVerification =>
      some (Text.of "invalid inputs to presentation_verify")
  | artifact _ => some (Text.of "invalid inputs to presentation_verifiable_encrypt")
  | wire why => some why.message
  | foreignUid => some (Text.of "issuer uid does not match the serialized uid")
  | _ => none

end Fault
end VerifiableEscrow
