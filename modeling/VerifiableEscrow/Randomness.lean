import VerifiableEscrow.Element
import VerifiableEscrow.Run

/-!
# Where the exponents of a proof come from

A proof takes four random exponents, its *bundle*.  A source hands out bundles: the system's
draws four fresh numbers at each call, a fixed one hands out the same bundle again and again
and is reported when it is built, since two proofs from one bundle give the secrets away.
-/

namespace VerifiableEscrow

/-- The four random exponents of a proof. -/
structure Bundle where
  r : Scalar
  xbPrime : Scalar
  rPrime : Scalar
  obPrime : Scalar
  deriving DecidableEq

/-- A source of bundles. -/
inductive Source where
  | system
  | fixed (bundle : Bundle)

namespace Bundle

/-- The bundle of four values that should be exponents in range. -/
def ofFields (r xbPrime rPrime obPrime : Value) : Except Fault Bundle :=
  match Element.scalar? r, Element.scalar? xbPrime, Element.scalar? rPrime,
      Element.scalar? obPrime with
  | some r, some xbPrime, some rPrime, some obPrime => .ok ⟨r, xbPrime, rPrime, obPrime⟩
  | _, _, _, _ => .error (.argument .randomness)

/-- The bundle that a value is. -/
def ofValue? : Value → Option Bundle
  | .record .randomnessBundle [r, xbPrime, rPrime, obPrime] =>
      (ofFields r xbPrime rPrime obPrime).toOption
  | _ => none

/-- A bundle as a value. -/
def toValue (b : Bundle) : Value :=
  .record .randomnessBundle
    [.int b.r.toInt, .int b.xbPrime.toInt, .int b.rPrime.toInt, .int b.obPrime.toInt]

@[simp] theorem ofValue?_toValue (b : Bundle) : ofValue? b.toValue = some b := by
  simp [ofValue?, toValue, ofFields, Except.toOption]

/-- Draws a fresh bundle. -/
def generate : Run Bundle := do
  let r ← Run.draw
  let xbPrime ← Run.draw
  let rPrime ← Run.draw
  let obPrime ← Run.draw
  ofFields (.int r) (.int xbPrime) (.int rPrime) (.int obPrime)

end Bundle

namespace Source

/-- The next bundle of a source. -/
def bundle : Source → Run Bundle
  | system => Bundle.generate
  | fixed b => return b

/-- Builds the source that always hands out the bundle that a value should be.  A source is
known by its number, which it carries behind its fields. -/
def buildFixed (v : Value) : Run Value := do
  match Bundle.ofValue? v with
  | none => throw (.argument .fixedSource)
  | some b =>
      let number ← Run.newSerial
      Run.report .fixedSource
      return .record .fixedRandomness [b.toValue, .int number]

/-- Builds the system's source. -/
def buildSystem : Run Value := do
  let number ← Run.newSerial
  return .record .systemRandomness [.int number]

/-- The source that a value is. -/
def ofValue? : Value → Option Source
  | .record .fixedRandomness [b, _] => (Bundle.ofValue? b).map fixed
  | .record .systemRandomness _ => some system
  | _ => none

end Source
end VerifiableEscrow
