import VerifiableEscrow.Escrow

/-!
# Presentations

A holder shows a token and, with it, commitments to some of its attributes.  Escrow takes
the first of them.  This module says how a token is identified, how an attribute becomes an
exponent, how commitments are made, and how the engine is run on a presentation.
-/

namespace VerifiableEscrow

/-- The public fields of an issued token that its identifier depends on. -/
structure Token where
  h : Value
  sigmaZ : Value
  sigmaC : Value
  sigmaR : Value

namespace Token

/-- The token that a value is. -/
def ofValue? : Value → Option Token
  | .record .token [_, h, _, _, sigmaZ, sigmaC, sigmaR, _] => some ⟨h, sigmaZ, sigmaC, sigmaR⟩
  | _ => none

/-- The transcript that identifies a token.  The two integers are written out before any
digits are read. -/
def transcript (token : Token) : Except Fault Bytes := do
  let c ← integerBytes token.sigmaC
  let r ← integerBytes token.sigmaR
  let h ← Transcript.framed (.bytes (← Transcript.spacedBytes token.h))
  let z ← Transcript.framed (.bytes (← Transcript.spacedBytes token.sigmaZ))
  let c ← Transcript.framed (.bytes c)
  let r ← Transcript.framed (.bytes r)
  return Transcript.tokenTag ++ [h, z, c, r].flatten

/-- The identifier of a token under an issuer. -/
def identifier (issuer : Slot Issuer) (token : Slot Token) : Except Fault Bytes := do
  let message ← (← token.get).transcript
  let f ← Transcript.hashFunction (← issuer.get).hashName
  return f.digest message

end Token

namespace Attribute

/-- The transcript of an attribute. -/
def transcript (content : Value) : Except Fault Bytes :=
  Transcript.build Transcript.attributeTag [content]

/-- The exponent of an attribute under an issuer. -/
def scalar (issuer : Slot Issuer) (content : Value) : Except Fault Scalar := do
  let message ← transcript content
  let f ← Transcript.hashFunction (← issuer.get).hashName
  Escrow.scalarOfDigest (f.digest message)

/-- The commitment `g ^ x · g1 ^ o` over the bases of an issuer. -/
def commit (issuer : Slot Issuer) (x o : Value) : Except Fault Text := do
  let i ← issuer.get
  Element.multiScale [i.g, i.g1] [x, o]

end Attribute

/-- A presentation's commitments to attributes. -/
structure Presentation where
  commitments : Value

/-- The openings of a presentation's commitments. -/
structure Openings where
  values : Value

namespace Presentation

/-- The presentation that a value is. -/
def ofValue? : Value → Option Presentation
  | .record .presentationProof [v] => some ⟨v⟩
  | _ => none

/-- What a value has at a position that is not negative: the item of a list, or the content of
a mapping under the number, which need not be an integer. -/
def itemAt (v : Value) (position : Number) : Except Fault Value :=
  match v with
  | .dict entries =>
      match entries.find? fun entry => entry.1.number?.any position.same with
      | some entry => .ok entry.2
      | none => .error .missingKey
  | v =>
      match v.items?, position with
      | some items, .int n =>
          match items[n.toNat]? with
          | some item => .ok item
          | none => .error .wrongKind
      | _, _ => .error .wrongKind

/-- The first commitment of a presentation. -/
def firstCommitment (p : Presentation) : Except Fault Value := do
  match ← itemAt p.commitments (.int 0) with
  | .record .committedAttribute [c] => return c
  | _ => throw .wrongKind

end Presentation

namespace Openings

/-- The openings that a value is. -/
def ofValue? : Value → Option Openings
  | .record .commitmentPrivateValues [v] => some ⟨v⟩
  | _ => none

end Openings

namespace Presentation

/-- Whether an index that counts from one points at an attribute.  Comparing it comes before
counting the attributes. -/
def indexFits (index attributes : Value) : Except Fault Bool := do
  let i ← index.number
  if i.belowInt 1 then return false
  match attributes.items? with
  | none => throw .wrongKind
  | some items => return !(i.aboveInt items.length)

/-- The attribute at an index that counts from one. -/
def attributeAt (index attributes : Value) : Except Fault Value := do
  itemAt attributes (← Value.minus index (.int 1))

/-- Escrows the first committed attribute of a presentation, which the index picks out of the
token's attributes. -/
def encrypt (domain : Slot Domain) (key : Slot RawPublicKey) (token : Slot Token) (label : Value)
    (presentation : Slot Presentation) (openings : Slot Openings) (index attributes : Value)
    (source : Slot Source) : Run Ciphertext := do
  if domain.isMissing || key.isMissing || token.isMissing || presentation.isMissing
      || openings.isMissing then
    throw (.argument (.missing .presentationEncryption))
  let p ← presentation.get
  if p.commitments.isEmpty then throw (.artifact .presentationEncryption)
  let o ← openings.get
  if o.values.isEmpty || attributes.isNull then throw (.artifact .presentationEncryption)
  if !(← indexFits index attributes) then throw (.artifact .presentationEncryption)
  let issuer := Slot.given (← domain.get).issuer
  let identifier ← Token.identifier issuer token
  let cxb ← p.firstCommitment
  let x ← Attribute.scalar issuer (← attributeAt index attributes)
  let opening ← itemAt o.values (.int 0)
  Escrow.encrypt domain key (.bytes identifier) cxb (.int x.toInt) opening label source

/-- Whether a ciphertext encrypts the first committed attribute of a presentation. -/
def verify (domain : Slot Domain) (ciphertext : Slot Ciphertext)
    (presentation : Slot Presentation) (token : Slot Token) (key : Slot RawPublicKey) :
    Run Bool := do
  if domain.isMissing || ciphertext.isMissing || presentation.isMissing || token.isMissing
      || key.isMissing then
    throw (.argument (.missing .presentationVerification))
  let p ← presentation.get
  if p.commitments.isEmpty then throw (.artifact .presentationVerification)
  let cxb ← p.firstCommitment
  let issuer := Slot.given (← domain.get).issuer
  let identifier ← Token.identifier issuer token
  Escrow.verify domain ciphertext (.bytes identifier) key cxb

end Presentation
end VerifiableEscrow
