import VerifiableEscrow.Ciphertext
import VerifiableEscrow.Curve.ScalarCodec
import VerifiableEscrow.Keys
import VerifiableEscrow.Randomness

/-!
# The escrow engine

To escrow an attribute `x_b` that is committed to in `Cxb = g ^ x_b · g1 ^ o_b` means to
encrypt its pseudonym `ge ^ x_b` under the auditor's key `H` and to prove, without showing
`x_b`, that ciphertext and commitment hold the same attribute.

## Encryption

    E1 = ge ^ r                 E2 = H ^ r · ge ^ x_b
    Cxb' = g ^ xb' · g1 ^ ob'   E1' = ge ^ r'   E2' = ge ^ xb' · H ^ r'

The challenge `c` is the hash of a transcript of all of these, the issuer, the token, the key
and the label.  The responses are `xb' - c · x_b`, `r' - c · r` and `ob' - c · o_b`.

## Verification

The verifier computes the primed elements from the responses and accepts when they hash to
the challenge.  What is malformed makes the proof invalid and is no fault.

## Decryption

`E2 · E1 ^ (-x)` is the pseudonym.  The proof is not looked at.
-/

namespace VerifiableEscrow
namespace Escrow

/-- The transcript of a challenge.  The elements are given as text, and their digits are read
before any item is framed. -/
def challengeTranscript (uid tokenId : Value) (elements : List Value) (label : Value) :
    Except Fault Bytes := do
  let points ← elements.mapM Transcript.spacedBytes
  Transcript.build Transcript.challengeTag
    (uid :: tokenId :: points.map Value.bytes ++ [label])

/-- What a challenge takes from the parameters that it is made under: an identifier and the
name of a hash function, which not everything with an identifier has. -/
structure Context where
  uid : Value
  hashName? : Option Value

namespace Context

/-- The context of an issuer. -/
def ofIssuer (i : Issuer) : Context := ⟨i.uid, some i.hashName⟩

/-- The context that a value gives. -/
def ofValue? : Value → Option Context
  | .record .token (uid :: _) => some ⟨uid, none⟩
  | v => (Issuer.ofContext? v).map ofIssuer

/-- The hash function of a context. -/
def hashFunction (context : Context) : Except Fault HashFunction :=
  match context.hashName? with
  | some name => Transcript.hashFunction name
  | none => .error .wrongKind

end Context

/-- The digest that a challenge is made of.  The hash function is looked up last. -/
def challengeDigest (context : Context) (tokenId : Value) (elements : List Value)
    (label : Value) : Except Fault Bytes := do
  let transcript ← challengeTranscript context.uid tokenId elements label
  let f ← context.hashFunction
  return f.digest transcript

/-- The exponent that a digest stands for. -/
def scalarOfDigest (digest : Bytes) : Except Fault Scalar :=
  scalarOfNumeral (Hex.encode digest)

/-- The response `nonce - c · secret` to a challenge. -/
def response (nonce c secret : Int) : Scalar := Scalar.ofInt (nonce - c * secret)

/-- The response of any values.  Where one of them is a double, so is the response. -/
def respond (nonce c secret : Value) : Run Value := do
  let product ← Value.times c secret
  let difference ← Value.minus nonce product
  return Value.ofNumber (difference.remainder groupOrder) (← Run.newSerial)

/-- The response of integers is the exponent in range. -/
theorem outcome_respond_int (nonce c secret : Int) (draws : Draws) (trace : Trace) :
    Run.outcome (respond (.int nonce) (.int c) (.int secret)) draws trace
      = (.ok (.int (response nonce c secret).toInt),
          { trace with serials := trace.serials + 1 }) := by
  rw [response, Scalar.toInt_ofInt]
  rfl

/-- The identifier of a token: a byte string that is not empty. -/
def tokenId : Value → Except Fault Bytes
  | .null => .error (.argument .tokenIdMissing)
  | .bytes bs => if bs.isEmpty then .error (.argument .tokenId) else .ok bs
  | _ => .error (.argument .tokenId)

/-! ## Encryption -/

/-- What the proof is about: the commitment to the attribute, and the two opening values. -/
structure Opening where
  commitment : Text
  x : Scalar
  o : Scalar

/-- The ciphertext and the proof that a bundle of exponents gives. -/
def prove (domain : Domain) (key : Slot RawPublicKey) (token : Bytes) (opening : Opening)
    (label : Option Bytes) (bundle : Bundle) : Except Fault Ciphertext := do
  let ge := domain.ge
  let e1 ← Element.power ge bundle.r
  let h := (← key.get).h
  let e2 ← Element.product [(h, bundle.r), (.text ge, opening.x)]
  let cxbPrime ←
    Element.product [(.text domain.g, bundle.xbPrime), (.text domain.g1, bundle.obPrime)]
  let e1Prime ← Element.power ge bundle.rPrime
  let e2Prime ← Element.product [(.text ge, bundle.xbPrime), (h, bundle.rPrime)]
  let digest ← challengeDigest (Context.ofIssuer domain.issuer) (.bytes token)
    (h :: [opening.commitment, e1, e2, cxbPrime, e1Prime, e2Prime].map Value.text)
    (Ciphertext.labelValue label)
  let c ← scalarOfDigest digest
  let proof : Proof :=
    { c := .int c.toInt
      rXb := .int (response bundle.xbPrime.toInt c.toInt opening.x.toInt).toInt
      rR := .int (response bundle.rPrime.toInt c.toInt bundle.r.toInt).toInt
      rOb := .int (response bundle.obPrime.toInt c.toInt opening.o.toInt).toInt }
  return ⟨.text e1, .text e2, proof.toValue, label⟩

/-- Checks the opening of a commitment. -/
def checkOpening (cxb xb ob : Value) : Except Fault Opening :=
  match cxb with
  | .text commitment =>
      match Element.scalar? xb, Element.scalar? ob with
      | some x, some o => .ok ⟨commitment, x, o⟩
      | _, _ => .error (.argument .openings)
  | _ => .error (.argument .commitment)

/-- Checks a label. -/
def checkLabel : Value → Except Fault (Option Bytes)
  | .null => .ok none
  | .bytes bs => .ok (some bs)
  | _ => .error (.argument .label)

/-- The source in a place for one: the system's where none is given. -/
def sourceOf : Slot Source → Except Fault Source
  | .missing => .ok .system
  | source => source.get

/-- Encrypts the pseudonym of a committed attribute and proves it.  All arguments are checked
before the source is asked for a bundle. -/
def encrypt (domain : Slot Domain) (key : Slot RawPublicKey) (token cxb xb ob label : Value)
    (source : Slot Source) : Run Ciphertext := do
  if domain.isMissing || key.isMissing || cxb.isNull || xb.isNull || ob.isNull then
    throw (.argument (.missing .encryption))
  let token ← tokenId token
  let opening ← checkOpening cxb xb ob
  let label ← checkLabel label
  let source ← sourceOf source
  let bundle ← source.bundle
  let ct ← prove (← domain.get) key token opening label bundle
  Run.report (.encrypted token)
  return ct

/-! ## Verification -/

/-- The primed elements that the responses give: `g ^ rXb · g1 ^ rOb · Cxb ^ c`,
`ge ^ rR · E1 ^ c` and `ge ^ rXb · H ^ rR · E2 ^ c`. -/
def recompute (domain : Domain) (h cxb e1 e2 c rXb rR rOb : Value) :
    Except Fault (Text × Text × Text) := do
  let ge := Value.text domain.ge
  let cxbPrime ← Element.multiScale [.text domain.g, .text domain.g1, cxb] [rXb, rOb, c]
  let e1Prime ← Element.multiScale [ge, e1] [rR, c]
  let e2Prime ← Element.multiScale [ge, h, e2] [rXb, rR, c]
  return (cxbPrime, e1Prime, e2Prime)

/-- The challenge that a verifier computes from a proof. -/
def recomputeChallenge (domain : Domain) (ct : Ciphertext) (proof : Proof) (token : Bytes)
    (h cxb : Value) : Except Fault Scalar := do
  let (cxbPrime, e1Prime, e2Prime) ←
    recompute domain h cxb ct.e1 ct.e2 proof.c proof.rXb proof.rR proof.rOb
  let digest ← challengeDigest (Context.ofIssuer domain.issuer) (.bytes token)
    [h, cxb, ct.e1, ct.e2, .text cxbPrime, .text e1Prime, .text e2Prime]
    (Ciphertext.labelValue ct.label)
  scalarOfDigest digest

/-- Rejects a proof. -/
def reject (why : Rejection) : Run Bool := do
  Run.report (.rejected why)
  return false

/-- The proof of a ciphertext, where it is one. -/
def proofOf (ct : Ciphertext) : Except Fault Proof :=
  match Proof.ofValue? ct.proof with
  | some proof => .ok proof
  | none => .error .wrongKind

/-- Whether a ciphertext encrypts the attribute that is committed to in `cxb`. -/
def verify (domain : Slot Domain) (ciphertext : Slot Ciphertext) (token : Value)
    (key : Slot RawPublicKey) (cxb : Value) : Run Bool := do
  if domain.isMissing || ciphertext.isMissing || key.isMissing || cxb.isNull then
    throw (.argument (.missing .verification))
  let token ← tokenId token
  let ct ← ciphertext.get
  let h := (← key.get).h
  if !([ct.e1, ct.e2, cxb, h].all Element.isElement) then reject .groupElement
  else
    let proof ← proofOf ct
    if !proof.numbers.all Element.isScalar then reject .fieldElement
    else
      let c ← recomputeChallenge (← domain.get) ct proof token h cxb
      if proof.c.integer? ≠ some c.toInt then reject .challenge else return true

/-! ## Decryption -/

/-- The pseudonym in a ciphertext. -/
def decrypt (domain : Slot Domain) (ciphertext : Slot Ciphertext)
    (key : Slot RawPrivateKey) : Except Fault Text := do
  if domain.isMissing || ciphertext.isMissing || key.isMissing then
    throw (.argument (.missing .decryption))
  let ct ← ciphertext.get
  if !Element.isElement ct.e1 || !Element.isElement ct.e2 then
    throw (.argument .ciphertextElements)
  let k ← key.get
  let mask ← Element.scale ct.e1 (← k.x.negated)
  Element.combine ct.e2 (.text mask)

end Escrow
end VerifiableEscrow
