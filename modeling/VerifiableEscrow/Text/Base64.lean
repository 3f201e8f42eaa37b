import VerifiableEscrow.Text

/-!
# Base64

Three bytes make four letters of six bits each; one or two bytes at the end make two or
three letters and are filled up with `=`.

Reading is strict about *where* things stand: letters first, then padding, then nothing.  It
is lenient in two places.  The unused low bits of the last letter are dropped, and behind
complete groups of four any amount of padding passes, so that `AAAA=` reads like `AAAA`.
-/

namespace VerifiableEscrow
namespace Base64

/-- The letter of a value below sixty-four. -/
def letter (n : Nat) : Char :=
  if n < 26 then Char.ofNat (65 + n)
  else if n < 52 then Char.ofNat (71 + n)
  else if n < 62 then Char.ofNat (n - 4)
  else if n = 62 then '+' else '/'

/-- The value of a letter. -/
def charValue? (c : Char) : Option Nat :=
  if 'A' ≤ c ∧ c ≤ 'Z' then some (c.toNat - 65)
  else if 'a' ≤ c ∧ c ≤ 'z' then some (c.toNat - 71)
  else if '0' ≤ c ∧ c ≤ '9' then some (c.toNat + 4)
  else if c = '+' then some 62
  else if c = '/' then some 63
  else none

/-- The value of a code point that is a letter of the alphabet. -/
def value? : CodePoint → Option Nat
  | .char c => charValue? c
  | .half _ => none

/-- The letters and the padding of a byte string. -/
def encodeChars : Bytes → List Char
  | [] => []
  | [a] => [letter (a.toNat / 4), letter (a.toNat % 4 * 16), '=', '=']
  | [a, b] =>
      [letter (a.toNat / 4), letter (a.toNat % 4 * 16 + b.toNat / 16),
        letter (b.toNat % 16 * 4), '=']
  | a :: b :: c :: rest =>
      letter (a.toNat / 4) :: letter (a.toNat % 4 * 16 + b.toNat / 16) ::
        letter (b.toNat % 16 * 4 + c.toNat / 64) :: letter (c.toNat % 64) :: encodeChars rest

/-- The Base64 text of a byte string. -/
def encode (bs : Bytes) : Text := Text.ofChars (encodeChars bs)

/-- The bytes of a list of six-bit values.  Bits that fill no byte are dropped. -/
def pack : List Nat → Bytes
  | a :: b :: c :: d :: rest =>
      UInt8.ofNat (a * 4 + b / 16) :: UInt8.ofNat (b % 16 * 16 + c / 4) ::
        UInt8.ofNat (c % 4 * 64 + d) :: pack rest
  | [a, b, c] => [UInt8.ofNat (a * 4 + b / 16), UInt8.ofNat (b % 16 * 16 + c / 4)]
  | [a, b] => [UInt8.ofNat (a * 4 + b / 16)]
  | _ => []

/-- How much padding may follow a number of letters. -/
def paddingFits (letters padding : Nat) : Bool :=
  match letters % 4 with
  | 0 => letters ≠ 0 || padding = 0
  | 2 => padding = 2
  | 3 => padding = 1
  | _ => false

/-- Whether a code point is the padding sign. -/
def isPadding (p : CodePoint) : Bool := p = .char '='

/-- Reads letters, then the padding that fits them, then nothing. -/
def decode? (t : Text) : Option Bytes := do
  let letters := t.takeWhile fun p => !isPadding p
  let padding := t.drop letters.length
  let values ← letters.mapM value?
  if padding.all isPadding && paddingFits letters.length padding.length then
    some (pack values)
  else none

/-! ## What is written reads back -/

theorem charValue?_letter : ∀ n < 64, charValue? (letter n) = some n := by decide

theorem letter_ne_padding : ∀ n < 64, letter n ≠ '=' := by decide

end Base64
end VerifiableEscrow
