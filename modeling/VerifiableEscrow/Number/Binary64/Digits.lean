import VerifiableEscrow.Number.Binary64
import VerifiableEscrow.Text

/-!
# Digits of a double

Two ways of writing a double that do not look for the shortest text.  `hexadecimal` shows all
of its bits.  The others show the magnitude with a given number of decimal digits: `fixed`
counts them behind the point, `scientific` behind the first digit, and `general` takes
whichever of the two suits the size.  The digits are those of the nearest decimal of the
grid, the even one of two.
-/

namespace VerifiableEscrow

-- Powers are the ones of `Nat`, whatever other powers are in scope.
attribute [local instance (2000)] instPowNat

namespace Binary64

/-- The text of an exponent: its sign, and its digits filled up to a width. -/
def exponentText (width : Nat) (e : Int) : List Char :=
  (if e < 0 then '-' else '+') :: Text.digits 10 width e.natAbs

/-- The double in hexadecimal digits, with the power of two behind them. -/
def hexadecimal (x : Binary64) : String :=
  let sign := if x.isNegative then "-" else ""
  if x.isNaN then "nan"
  else if !x.isFinite then sign ++ "inf"
  else if x.isZero then sign ++ "0x0.0p+0"
  else
    let isSmall := x.exponentBits = 0
    let exponent : Int := if isSmall then -1022 else (x.exponentBits : Int) - 1023
    sign ++ (if isSmall then "0x0." else "0x1.")
      ++ String.ofList (Text.digits 16 (fractionWidth / 4) x.fractionBits)
      ++ "p" ++ String.ofList (exponentText 1 exponent)

/-- The integer nearest to a finite magnitude in units of `10 ^ e`. -/
def decimalUnits (x : Binary64) (e : Int) : Nat := roundRatio (scaleRatio 10 (-e) x.ratio)

/-- The largest `k` with `10 ^ k` not above a positive ratio. -/
def decimalExponent (r : Nat × Nat) : Int :=
  let k : Int := (toString r.1).length - (toString r.2).length
  let scaled := scaleRatio 10 (-k) r
  if scaled.2 ≤ scaled.1 then k else k - 1

/-- The digits before the point and a given number of them behind it. -/
def fixedDigits (x : Binary64) (places : Nat) : List Char × List Char :=
  let all := Text.digits 10 (places + 1) (x.decimalUnits (-places))
  all.splitAt (all.length - places)

/-- The first digit, a given number of further ones, and the power of ten of the first. -/
def scientificDigits (x : Binary64) (places : Nat) : List Char × List Char × Int :=
  let k := if x.isZero then 0 else decimalExponent x.ratio
  let all := Text.digits 10 (places + 1) (x.decimalUnits (k - places))
  -- Rounding up to the next power of ten brings one digit more, a zero at the end.
  let carry := all.length - (places + 1)
  (all.take 1, (all.drop 1).take places, k + carry)

/-- Digits with a point between them, which may be left out where nothing follows. -/
def pointed (keepPoint : Bool) (whole fraction : List Char) : List Char :=
  if fraction.isEmpty && !keepPoint then whole else whole ++ '.' :: fraction

/-- Digits without the zeros at their end. -/
def withoutFinalZeros (ds : List Char) : List Char := (ds.reverse.dropWhile (· = '0')).reverse

/-- A magnitude with a given number of digits behind the point. -/
def fixed (keepPoint : Bool) (places : Nat) (x : Binary64) : List Char :=
  let (whole, fraction) := x.fixedDigits places
  pointed keepPoint whole fraction

/-- A magnitude with a given number of digits behind the first one and a power of ten. -/
def scientific (keepPoint : Bool) (places : Nat) (x : Binary64) : List Char :=
  let (whole, fraction, k) := x.scientificDigits places
  pointed keepPoint whole fraction ++ 'e' :: exponentText 2 k

/-- A magnitude with a given number of digits, one at least, with a power of ten where it is
below `10 ^ (-4)` or has fewer digits than its size needs.  Zeros at the end of the fraction
are left out, unless the point is kept. -/
def general (keepPoint : Bool) (precision : Nat) (x : Binary64) : List Char :=
  let count := max 1 precision
  let trimmed (ds : List Char) : List Char := if keepPoint then ds else withoutFinalZeros ds
  let (whole, fraction, k) := x.scientificDigits (count - 1)
  if -4 ≤ k ∧ k < count then
    let (whole, fraction) := x.fixedDigits (count - 1 - k).toNat
    pointed keepPoint whole (trimmed fraction)
  else pointed keepPoint whole (trimmed fraction) ++ 'e' :: exponentText 2 k

end Binary64
end VerifiableEscrow
