import VerifiableEscrow.Number.Binary64

/-!
# Arithmetic of doubles

Every operation is exact on ratios and then rounded once.  A non-number is handed on, the
first of two, and an operation without a value gives `invalid`.

A double can also act as a whole number, as an exponent does in doubling and adding
(`multiplier?`).
-/

namespace VerifiableEscrow

-- Powers are the ones of `Nat`, whatever other powers are in scope.
attribute [local instance (2000)] instPowNat

namespace Binary64

/-- What an operation without a value gives. -/
def invalid : Binary64 := ⟨0xFFF8000000000000⟩

/-- A non-number as operations hand it on: with the first bit of its fraction set. -/
def quiet (x : Binary64) : Binary64 := ⟨x.bits ||| 0x0008000000000000⟩

/-- A finite double as a numerator with its sign over a denominator. -/
def signedRatio (x : Binary64) : Int × Nat :=
  let (a, b) := x.ratio
  (if x.isNegative then -(a : Int) else a, b)

/-- The difference of two doubles.  Equal ones differ by zero without a sign, except that
negative zero stays what it is when zero is taken from it. -/
def minus (x y : Binary64) : Binary64 :=
  if x.isNaN then x.quiet
  else if y.isNaN then y.quiet
  else if x.isFinite && y.isFinite then
    let (a, b) := x.signedRatio
    let (c, d) := y.signedRatio
    let difference := a * d - c * b
    if difference = 0 then ofMagnitude (x.isNegative && !y.isNegative) 0
    else ofMagnitude (decide (difference < 0)) (magnitudeOfRatio (difference.natAbs, b * d))
  else if x.isFinite then y.negated
  else if y.isFinite || x.isNegative != y.isNegative then x
  else invalid

/-- The product of two doubles. -/
def times (x y : Binary64) : Binary64 :=
  let negative := x.isNegative != y.isNegative
  if x.isNaN then x.quiet
  else if y.isNaN then y.quiet
  else if x.isFinite && y.isFinite then
    let (a, b) := x.ratio
    let (c, d) := y.ratio
    ofMagnitude negative (magnitudeOfRatio (a * c, b * d))
  else if x.isZero || y.isZero then invalid
  else ofMagnitude negative infinityBits

/-- The remainder of a double by the double nearest to a natural number that is not zero.  It
is never negative, and rounded where the double is. -/
def remainder (x : Binary64) (n : Nat) : Binary64 :=
  if x.isNaN then x.quiet
  else if !x.isFinite then invalid
  else
    let (a, b) := x.ratio
    let (c, d) := (ofNat n).ratio
    let rest := a * d % (c * b)
    ofMagnitude false
      (magnitudeOfRatio (if x.isNegative ∧ rest ≠ 0 then c * b - rest else rest, b * d))

/-- The whole number that a double acts as in doubling and adding: its remainder, where what is
left over from halving counts as odd when it is not even. -/
def multiplier? (x : Binary64) (n : Nat) : Option Nat :=
  if x.isFinite then
    let (a, b) := (x.remainder n).ratio
    some (if a % b = 0 then a / b else 2 * (a / (2 * b)) + 1)
  else none

end Binary64
end VerifiableEscrow
