import VerifiableEscrow.Text.DecimalDigit
import VerifiableEscrow.Text.Hex

/-!
# Hexadecimal numerals

A digest reads as a number through a generous grammar: blanks around, a sign, a marker `0x`,
single underscores between digits and behind the marker, and decimal digits of every script
for the ten that have them.
-/

namespace VerifiableEscrow
namespace Numeral

/-- The ASCII character that a code point stands for in a numeral: itself in ASCII, a space
for a blank of any script, the digit of the same value for a decimal digit of any script. -/
def asciiChar? (p : CodePoint) : Option Char :=
  let n := p.toNat
  if n < 128 then some (Char.ofNat n)
  else if DecimalDigit.isBlank n then some ' '
  else (DecimalDigit.value? n).map fun d => Char.ofNat (48 + d)

/-- The blanks that may stand around a numeral. -/
def isBlank (c : Char) : Bool := c = ' ' || (9 ≤ c.toNat && c.toNat ≤ 13)

/-- A numeral without the blanks around it. -/
def trim (cs : List Char) : List Char :=
  (((cs.dropWhile isBlank).reverse).dropWhile isBlank).reverse

/-- Reads digits on top of `acc`.  An underscore needs something in front of it and a digit
behind, and `behind` says whether one may come next. -/
def digits? (acc : Nat) (behind : Bool) : List Char → Option Nat
  | [] => if behind then some acc else none
  | c :: cs =>
      if c = '_' then (if behind then digits? acc false cs else none)
      else match Hex.charValue? c with
        | some d => digits? (acc * 16 + d) true cs
        | none => none

/-- Reads a numeral that has lost its blanks and its sign. -/
def magnitude? : List Char → Option Nat
  | '0' :: 'x' :: c :: cs => digits? 0 true (c :: cs)
  | '0' :: 'X' :: c :: cs => digits? 0 true (c :: cs)
  | cs => digits? 0 false cs

/-- Reads a numeral that has lost its blanks. -/
def signed? : List Char → Option Int
  | '-' :: cs => (magnitude? cs).map fun n => -(n : Int)
  | '+' :: cs => (magnitude? cs).map Int.ofNat
  | cs => (magnitude? cs).map Int.ofNat

/-- The integer that a hexadecimal numeral writes. -/
def hexadecimal? (t : Text) : Option Int := do
  let cs ← t.mapM asciiChar?
  signed? (trim cs)

example : hexadecimal? (Text.of " -0x_1_F\n") = some (-31) := by decide

example : hexadecimal? (Text.of "1__0") = none ∧ hexadecimal? (Text.of "0x") = none := by decide

end Numeral
end VerifiableEscrow
