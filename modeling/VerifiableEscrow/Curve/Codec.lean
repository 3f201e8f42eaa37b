import VerifiableEscrow.Curve.Point
import VerifiableEscrow.Fault
import VerifiableEscrow.Number.BigEndian
import VerifiableEscrow.Text.Hex

/-!
# Compressed points

A point is written in 48 bytes: the abscissa in the low 381 bits, and three flags above it.
The top flag says that the form is the compressed one, the next that the point is the
identity, and the third which of the two roots the ordinate is.

Reading checks the flags, the range of the abscissa and that a root exists, in this order.
Points with abscissa zero lie on the curve but cannot be told apart from the identity by
their abscissa, and the reader gives that abscissa to the identity alone.
-/

namespace VerifiableEscrow
namespace Point

-- Powers are the ones of `Nat`, whatever other powers are in scope.
attribute [local instance (2000)] instPowNat

/-- The number of hexadecimal digits of an encoded point. -/
def encodedLength : Nat := 96

/-- The bit that marks the compressed form. -/
def compressedPlace : Nat := 383

/-- The bit that marks the identity. -/
def identityPlace : Nat := 382

/-- The bit that tells the two roots apart; the abscissa stands below it. -/
def upperPlace : Nat := 381

/-- The number that encodes a point. -/
def toCode : Point → Nat
  | identity => 2 ^ compressedPlace + 2 ^ identityPlace
  | affine x y => 2 ^ compressedPlace + (if y.isUpper then 2 ^ upperPlace else 0) + x.val

/-- The text of a point: 96 lowercase digits. -/
def compress (P : Point) : Text := Hex.encode (BigEndian.fixed 48 P.toCode)

/-- The point of an encoding number. -/
def ofCode (code : Nat) : Except ElementFault Point :=
  let abscissa := code % 2 ^ upperPlace
  let identityFlag := code.testBit identityPlace
  let upperFlag := code.testBit upperPlace
  if !code.testBit compressedPlace then .error .notCompressed
  else if identityFlag ≠ (abscissa = 0) then .error (.identityFlag (abscissa = 0))
  else if abscissa = 0 then
    if upperFlag then .error .signedIdentity else .ok .identity
  else if fieldPrime ≤ abscissa then .error (.outOfField abscissa)
  else
    let x := Fp.ofNat abscissa
    match (x * x * x + curveConstant).root? with
    | none => .error .noSuchPoint
    | some y => .ok (.affine x (if y.isUpper = upperFlag then y else -y))

/-- Reads a compressed point.  The text has 96 code points; blanks between pairs count among
them, so that such a text is too short for the top flag. -/
def uncompress (t : Text) : Except Fault Point :=
  if t.length ≠ encodedLength then .error (.element .length)
  else match Hex.decodeSpaced? t with
    | none => .error (.notHex (t := t))
    | some bs => (ofCode (BigEndian.toNat bs)).mapError Fault.element

@[simp] theorem length_compress (P : Point) : P.compress.length = encodedLength := by
  simp [compress, encodedLength]

end Point
end VerifiableEscrow
