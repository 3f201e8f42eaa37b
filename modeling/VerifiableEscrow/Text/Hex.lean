import VerifiableEscrow.Text

/-!
# Hexadecimal

Two digits a byte, the high half first.  Writing uses the lower case only.  There are two
readers: `decode?` takes digits and nothing else, `decodeSpaced?` also lets ASCII blanks
stand between the pairs, in front and behind, but not inside a pair.

* `decode?_encode`, `decodeSpaced?_encode`: both read back what was written;
* `length_encode`: two digits a byte.
-/

namespace VerifiableEscrow
namespace Hex

/-- The digit of a value below sixteen. -/
def digit (n : Nat) : Char := if n < 10 then Char.ofNat (48 + n) else Char.ofNat (87 + n)

/-- The value of a digit, in either case. -/
def charValue? (c : Char) : Option Nat :=
  if '0' ≤ c ∧ c ≤ '9' then some (c.toNat - 48)
  else if 'a' ≤ c ∧ c ≤ 'f' then some (c.toNat - 87)
  else if 'A' ≤ c ∧ c ≤ 'F' then some (c.toNat - 55)
  else none

/-- The value of a code point that is a hexadecimal digit. -/
def value? : CodePoint → Option Nat
  | .char c => charValue? c
  | .half _ => none

/-- The two digits of a byte. -/
def pair (b : UInt8) : Text := [.char (digit (b.toNat / 16)), .char (digit (b.toNat % 16))]

/-- The digits of a byte string. -/
def encode : Bytes → Text
  | [] => []
  | b :: bs => pair b ++ encode bs

/-- The byte of two digits. -/
def byte? (high low : CodePoint) : Option UInt8 := do
  let h ← value? high
  let l ← value? low
  some (UInt8.ofNat (16 * h + l))

/-- Reads digits and nothing else. -/
def decode? : Text → Option Bytes
  | [] => some []
  | [_] => none
  | high :: low :: rest => do
      let b ← byte? high low
      let bs ← decode? rest
      some (b :: bs)

/-- Reads digits, passing over ASCII blanks that do not split a pair. -/
def decodeSpaced? : Text → Option Bytes
  | [] => some []
  | [p] => if Text.isAsciiBlank p then some [] else none
  | high :: low :: rest =>
      if Text.isAsciiBlank high then decodeSpaced? (low :: rest)
      else do
        let b ← byte? high low
        let bs ← decodeSpaced? rest
        some (b :: bs)

/-! ## What is written reads back -/

theorem charValue?_digit : ∀ n < 16, charValue? (digit n) = some n := by decide

theorem isAsciiBlank_digit : ∀ n < 16, Text.isAsciiBlank (.char (digit n)) = false := by decide

theorem byte?_pair (b : UInt8) :
    byte? (.char (digit (b.toNat / 16))) (.char (digit (b.toNat % 16))) = some b := by
  have hb := b.toNat_lt
  have hh := charValue?_digit (b.toNat / 16) (by omega)
  have hl := charValue?_digit (b.toNat % 16) (by omega)
  have hs : 16 * (b.toNat / 16) + b.toNat % 16 = b.toNat := by omega
  simp only [byte?, value?, hh, hl, Option.bind_eq_bind, Option.bind_some, hs, UInt8.ofNat_toNat]

@[simp] theorem encode_nil : encode [] = [] := rfl

@[simp] theorem length_encode (bs : Bytes) : (encode bs).length = 2 * bs.length := by
  induction bs with
  | nil => rfl
  | cons b bs ih => simp [encode, pair, ih]; omega

@[simp] theorem decode?_encode (bs : Bytes) : decode? (encode bs) = some bs := by
  induction bs with
  | nil => rfl
  | cons b bs ih => simp [encode, pair, decode?, byte?_pair, ih]

@[simp] theorem decodeSpaced?_encode (bs : Bytes) : decodeSpaced? (encode bs) = some bs := by
  induction bs with
  | nil => rfl
  | cons b bs ih =>
    have hb := b.toNat_lt
    have hd := isAsciiBlank_digit (b.toNat / 16) (by omega)
    simp [encode, pair, decodeSpaced?, byte?_pair, ih, hd]

end Hex
end VerifiableEscrow
