import VerifiableEscrow.Number.Binary64

/-!
# The shortest text of a double

`shortest` is the text with the fewest significant digits that reads back as the same double:
of two such the nearer, of two as near the one with the even last digit.  A decimal reads
back when it lies in the interval of the numbers that round to the double.
-/

namespace VerifiableEscrow

-- Powers are the ones of `Nat`, whatever other powers are in scope.
attribute [local instance (2000)] instPowNat

namespace Binary64

/-- What decides whether a decimal reads back as a double: the double's own value, the ends of
the interval that rounds to it, all over one denominator, and whether the ends belong. -/
structure Interval where
  value : Nat
  low : Nat
  high : Nat
  denominator : Nat
  closed : Bool

/-- The interval of a positive finite double. -/
def interval (x : Binary64) : Interval :=
  let m := x.significand
  let below := if m = 2 ^ fractionWidth ∧ -1074 < x.power then 1 else 2
  let scale := scaleRatio 2 (x.power - 2) (1, 1)
  ⟨4 * m * scale.1, (4 * m - below) * scale.1, (4 * m + 2) * scale.1, scale.2, m % 2 = 0⟩

/-- Whether the ratio of a numerator to the interval's denominator lies in it. -/
def Interval.contains (i : Interval) (n scale : Nat) : Bool :=
  if i.closed then i.low * scale ≤ n && n ≤ i.high * scale
  else i.low * scale < n && n < i.high * scale

/-- The better of the two neighbours of the value on the grid of multiples of `10 ^ e`, if one
of them reads back. -/
def Interval.onGrid? (i : Interval) (e : Int) : Option Nat :=
  -- A multiple `k` stands for `k · step / scale`, in units of `1 / denominator`.
  let (step, scale) := scaleRatio 10 e (i.denominator, 1)
  let target := i.value * scale
  let down := target / step
  let up := down + 1
  match i.contains (down * step) scale, i.contains (up * step) scale with
  | false, false => none
  | true, false => some down
  | false, true => some up
  | true, true =>
      let below := target - down * step
      let above := up * step - target
      if below < above then some down
      else if above < below then some up
      else some (down + down % 2)

/-- The largest `k` with `10 ^ k` not above the value of an interval. -/
def Interval.decimalExponent (i : Interval) : Int :=
  let k : Int := (toString i.value).length - (toString i.denominator).length
  let scaled := scaleRatio 10 (-k) (i.value, i.denominator)
  if scaled.2 ≤ scaled.1 then k else k - 1

/-- Tries grids of `digits`, `digits + 1`, … significant digits. -/
def Interval.search (i : Interval) (k : Int) : Nat → Nat → Nat × Int
  | 0, _ => (i.value / i.denominator, 0)
  | fuel + 1, digits =>
      let e := k - (digits : Int) + 1
      match i.onGrid? e with
      | some n => (n, e)
      | none => i.search k fuel (digits + 1)

/-- The digits and the power of ten of the shortest decimal that reads back as a positive
finite double; seventeen digits always do. -/
def shortestDecimal (x : Binary64) : Nat × Int :=
  let i := x.interval
  i.search i.decimalExponent 17 1

/-- How a double is laid out as text. -/
structure Layout where
  /-- Decimal exponents from this one … -/
  positionalFrom : Int
  /-- … to below this one are written without a power of ten. -/
  positionalBelow : Int
  notANumber : String
  infinite : String

/-- The zeros at the end of a numeral removed, and how many there were. -/
def stripZeros : Nat → Nat → Nat → Nat × Nat
  | 0, n, zeros => (n, zeros)
  | fuel + 1, n, zeros =>
      if n % 10 = 0 ∧ n ≠ 0 then stripZeros fuel (n / 10) (zeros + 1) else (n, zeros)

/-- The text of `n · 10 ^ e`.  Positional text always has a point with a digit behind it; an
exponent has a sign and at least two digits. -/
def Layout.decimal (layout : Layout) (n : Nat) (e : Int) : String :=
  let (n, zeros) := stripZeros 400 n 0
  let e := e + zeros
  let digits := (toString n).toList
  let exponent := (digits.length : Int) - 1 + e
  if layout.positionalFrom ≤ exponent ∧ exponent < layout.positionalBelow then
    if 0 ≤ e then String.ofList (digits ++ List.replicate e.toNat '0') ++ ".0"
    else if 0 ≤ exponent then
      String.ofList (digits.take (exponent.toNat + 1)) ++ "."
        ++ String.ofList (digits.drop (exponent.toNat + 1))
    else "0." ++ String.ofList (List.replicate (-exponent - 1).toNat '0' ++ digits)
  else
    let lead := String.ofList (digits.take 1)
    let tail := digits.drop 1
    let mantissa := if tail.isEmpty then lead else lead ++ "." ++ String.ofList tail
    let size := toString exponent.natAbs
    let padded := if size.length < 2 then "0" ++ size else size
    mantissa ++ (if exponent < 0 then "e-" else "e+") ++ padded

/-- The text of a double. -/
def shortest (layout : Layout) (x : Binary64) : String :=
  let sign := if x.isNegative then "-" else ""
  if x.isNaN then layout.notANumber
  else if !x.isFinite then sign ++ layout.infinite
  else if x.significand = 0 then sign ++ "0.0"
  else
    let (n, e) := x.shortestDecimal
    sign ++ layout.decimal n e

end Binary64
end VerifiableEscrow
