/-!
# Floating-point numbers of sixty-four bits

A number with a fraction is kept as its bits.  What they mean is exact arithmetic on natural
numbers: a finite magnitude is `m · 2 ^ q`, and `magnitudeOfRatio` rounds any ratio to the
nearest magnitude, an exact tie to the even neighbour.
-/

namespace VerifiableEscrow

-- Powers are the ones of `Nat`, whatever other powers are in scope.
attribute [local instance (2000)] instPowNat

/-- A double, known by its bits. -/
structure Binary64 where
  bits : UInt64
  deriving DecidableEq

namespace Binary64

/-- The number of bits of the fraction. -/
def fractionWidth : Nat := 52

/-- The number of bits of the exponent. -/
def exponentWidth : Nat := 11

/-- The bit of the sign, above the exponent and the fraction. -/
def signPlace : Nat := 63

/-- Whether the sign bit is set. -/
def isNegative (x : Binary64) : Bool := x.bits.toNat.testBit signPlace

/-- The bits of the exponent. -/
def exponentBits (x : Binary64) : Nat := x.bits.toNat / 2 ^ fractionWidth % 2 ^ exponentWidth

/-- The bits of the fraction. -/
def fractionBits (x : Binary64) : Nat := x.bits.toNat % 2 ^ fractionWidth

/-- Neither infinite nor a non-number. -/
def isFinite (x : Binary64) : Bool := x.exponentBits ≠ 2047

/-- Whether the bits stand for no number. -/
def isNaN (x : Binary64) : Bool := x.exponentBits = 2047 && x.fractionBits ≠ 0

/-- The integer `m` of a finite magnitude `m · 2 ^ q`. -/
def significand (x : Binary64) : Nat :=
  if x.exponentBits = 0 then x.fractionBits else 2 ^ fractionWidth + x.fractionBits

/-- The power `q` of a finite magnitude `m · 2 ^ q`. -/
def power (x : Binary64) : Int :=
  if x.exponentBits = 0 then -1074 else (x.exponentBits : Int) - 1075

/-- Zero of either sign. -/
def isZero (x : Binary64) : Bool := x.isFinite && x.significand = 0

/-- The double of a sign and the bits below it. -/
def ofMagnitude (negative : Bool) (magnitude : Nat) : Binary64 :=
  ⟨UInt64.ofNat ((if negative then 2 ^ signPlace else 0) + magnitude)⟩

/-- The double with the other sign. -/
def negated (x : Binary64) : Binary64 := ⟨x.bits ^^^ 0x8000000000000000⟩

/-- The bits of positive infinity. -/
def infinityBits : Nat := 0x7FF0000000000000

/-- Multiplies the numerator by a power of a base, or the denominator where it is negative. -/
def scaleRatio (base : Nat) (e : Int) (r : Nat × Nat) : Nat × Nat :=
  if 0 ≤ e then (r.1 * base ^ e.toNat, r.2) else (r.1, r.2 * base ^ (-e).toNat)

/-- The magnitude of a finite double as a ratio. -/
def ratio (x : Binary64) : Nat × Nat := scaleRatio 2 x.power (x.significand, 1)

/-- The integer nearest to a ratio, the even one of two. -/
def roundRatio (r : Nat × Nat) : Nat :=
  let quotient := r.1 / r.2
  let twice := 2 * (r.1 % r.2)
  if twice < r.2 then quotient
  else if r.2 < twice then quotient + 1
  else quotient + quotient % 2

/-- The largest `k` with `2 ^ k` not above a positive ratio. -/
def binaryExponent (r : Nat × Nat) : Int :=
  let k := (r.1.log2 : Int) - (r.2.log2 : Int)
  let scaled := scaleRatio 2 (-k) r
  if scaled.2 ≤ scaled.1 then k else k - 1

/-- The bits of the double nearest to a ratio, without the sign.  A carry out of the fraction
runs into the exponent, which is what rounding up to a power of two has to do. -/
def magnitudeOfRatio (r : Nat × Nat) : Nat :=
  if r.1 = 0 then 0
  else
    let q := max (-1074) (binaryExponent r - 52)
    let m := roundRatio (scaleRatio 2 (-q) r)
    min infinityBits ((q + 1074).toNat * 2 ^ fractionWidth + m)

/-- The double nearest to a natural number. -/
def ofNat (n : Nat) : Binary64 := ofMagnitude false (magnitudeOfRatio (n, 1))

/-- The double nearest to an integer, where the integer is not beyond all doubles. -/
def ofInt? (n : Int) : Option Binary64 :=
  let magnitude := magnitudeOfRatio (n.natAbs, 1)
  if magnitude < infinityBits then some (ofMagnitude (decide (n < 0)) magnitude) else none

/-- The double nearest to `m · 10 ^ e`. -/
def ofDecimal (negative : Bool) (m : Nat) (e : Int) : Binary64 :=
  let digits : Int := (toString m).length
  if m = 0 || digits + e < -400 then ofMagnitude negative 0
  else if 400 < digits + e then ofMagnitude negative infinityBits
  else ofMagnitude negative (magnitudeOfRatio (scaleRatio 10 e (m, 1)))

/-- The double of the value that a shorter number of the same build has: a sign, an exponent
of `exponentSize` bits and a fraction of `fractionSize` bits. -/
def ofNarrow (exponentSize fractionSize bits : Nat) : Binary64 :=
  let negative := bits.testBit (exponentSize + fractionSize)
  let exponent := bits / 2 ^ fractionSize % 2 ^ exponentSize
  let fraction := bits % 2 ^ fractionSize
  let bias := 2 ^ (exponentSize - 1) - 1
  let widened := fraction * 2 ^ (fractionWidth - fractionSize)
  if exponent = 2 ^ exponentSize - 1 then ofMagnitude negative (infinityBits + widened)
  else if exponent = 0 then
    ofMagnitude negative (magnitudeOfRatio (fraction, 2 ^ (bias - 1 + fractionSize)))
  else ofMagnitude negative ((exponent + 1023 - bias) * 2 ^ fractionWidth + widened)

/-- The double of the value that a single of thirty-two bits has. -/
def ofBinary32 (bits : Nat) : Binary64 := ofNarrow 8 23 bits

/-- The double of the value that a half of sixteen bits has. -/
def ofBinary16 (bits : Nat) : Binary64 := ofNarrow 5 10 bits

/-! ## Comparison -/

/-- Compares a finite double with an integer. -/
def compareInt (x : Binary64) (n : Int) : Ordering :=
  let signed : Int := if x.isNegative then -(x.significand : Int) else x.significand
  if 0 ≤ x.power then compare (signed * (2 ^ x.power.toNat : Nat)) n
  else compare signed (n * (2 ^ (-x.power).toNat : Nat))

/-- Whether a double has the value of an integer. -/
def equalsInt (x : Binary64) (n : Int) : Bool := x.isFinite && x.compareInt n = .eq

/-- Whether a double lies below an integer. -/
def belowInt (x : Binary64) (n : Int) : Bool :=
  if x.isFinite then x.compareInt n = .lt else x.isNegative && !x.isNaN

/-- Whether a double lies above an integer. -/
def aboveInt (x : Binary64) (n : Int) : Bool :=
  if x.isFinite then x.compareInt n = .gt else !x.isNegative && !x.isNaN

/-- Equality of values: the two zeros are equal, a non-number equals nothing. -/
def same (x y : Binary64) : Bool :=
  !x.isNaN && !y.isNaN && (x = y || (x.isZero && y.isZero))

end Binary64
end VerifiableEscrow
