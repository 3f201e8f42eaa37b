import VerifiableEscrow.Curve.Codec
import VerifiableEscrow.Text.Template
import VerifiableEscrow.Value.Arithmetic

/-!
# Elements as text

The scheme keeps group elements as text and decodes them where it computes.  An element is
*valid* when it decodes to a point of the subgroup of prime order; decoding alone does not
check the subgroup, since sums and multiples are right for every point of the curve.

Arguments come unchecked: what is not text is no element, and what is not a number is no
exponent.
-/

namespace VerifiableEscrow
namespace Element

/-- The text of the identity. -/
def identity : Text := Point.identity.compress

/-- The text of the generator. -/
def generator : Text := Point.generator.compress

/-- The point that a value encodes. -/
def uncompress : Value → Except Fault Point
  | .text t => Point.uncompress t
  | _ => .error (.element .length)

/-- The point that a value encodes, where it belongs to the subgroup of prime order. -/
def validate (v : Value) : Except Fault Point := do
  let P ← uncompress v
  if !P.onCurve then throw (.element .offCurve)
  if !P.inSubgroup then throw (.element .outsideSubgroup)
  return P

/-- Whether a value is a valid element. -/
def isElement (v : Value) : Bool :=
  match validate v with
  | .ok _ => true
  | .error _ => false

/-- The exponent that a number acts as: an integer of any size through its residue, a double as
the whole number that it comes to. -/
def exponentOfNumber : Number → Except Fault Scalar
  | .int n => .ok (Scalar.ofInt n)
  | .double x =>
      match x.multiplier? groupOrder with
      | some n => .ok (Scalar.ofInt n)
      | none => .error (.notNumeral (t := Text.of x.hexadecimal))

/-- Refuses a text in place of an exponent.  To reduce it means to fill the group order into it
as into a template, and to ask for the parity of what comes out means to fill in two.  The
outcome is no exponent in any case, but the first of these steps that fails gives the fault. -/
def refuseTemplate (medium : Template.Medium) (t : Text) : Except Fault Scalar := do
  let reduced ← Template.fill medium groupOrder t
  let _ ← Template.fill medium 2 reduced
  throw .wrongKind

/-- The exponent that a value acts as. -/
def exponent : Value → Except Fault Scalar
  | .text t => refuseTemplate .text t
  | .bytes bs => refuseTemplate .bytes (Text.ofBytes bs)
  | v => do exponentOfNumber (← v.number)

@[simp] theorem exponent_int (n : Int) : exponent (.int n) = .ok (Scalar.ofInt n) := rfl

/-- The exponent that a value *is*: an integer in range, and not a truth value. -/
def scalar? : Value → Option Scalar
  | .int n => Scalar.ofInt? n
  | _ => none

@[simp] theorem scalar?_int (n : Int) : scalar? (.int n) = Scalar.ofInt? n := rfl

/-- Whether a value is an exponent in range. -/
def isScalar (v : Value) : Bool := (scalar? v).isSome

/-- The generator raised to an exponent. -/
def ofScalar (exponentValue : Value) : Except Fault Text := do
  let x ← exponent exponentValue
  return (Point.generator.scale x).compress

/-- An element raised to an exponent. -/
def scale (element exponentValue : Value) : Except Fault Text := do
  let P ← uncompress element
  let x ← exponent exponentValue
  return (P.scale x).compress

/-- The sum of two elements. -/
def combine (left right : Value) : Except Fault Text := do
  let P ← uncompress left
  let Q ← uncompress right
  return (P.add Q).compress

/-- The point of an element and the exponent for it. -/
def term (pair : Value × Value) : Except Fault (Point × Scalar) := do
  let P ← uncompress pair.1
  let x ← exponent pair.2
  return (P, x)

/-- The sum of elements, each raised to its exponent.  The two lists are counted before any
item of theirs is looked at. -/
def multiScale (elements exponents : List Value) : Except Fault Text := do
  if elements.length ≠ exponents.length then throw .unpaired
  let terms ← (elements.zip exponents).mapM term
  return (Point.combination terms).compress

/-- An element's text raised to an exponent in range. -/
def power (t : Text) (x : Scalar) : Except Fault Text := scale (.text t) (.int x.toInt)

/-- The sum of elements, each raised to an exponent in range. -/
def product (terms : List (Value × Scalar)) : Except Fault Text :=
  multiScale (terms.map Prod.fst) (terms.map fun term => .int term.2.toInt)

end Element
end VerifiableEscrow
