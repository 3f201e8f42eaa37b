import VerifiableEscrow.Text

/-!
# UTF-8

Strict reading: no surrogates, no sequence longer than its code point needs, nothing past
`U+10FFFF`, nothing cut short.  The reader carries the code point it is in the middle of:
how many bytes are still to come, the bits collected so far, and the least code point that
may be written at this length.  A lenient reader differs in one point, that it lets halves
of surrogate pairs pass.
-/

namespace VerifiableEscrow
namespace Utf8

/-- The code point of a finished sequence, refused where it could have been written shorter,
and where it is half of a pair unless these may pass. -/
def finish? (halves : Bool) (code least : Nat) : Option CodePoint :=
  if code < least then none
  else match CodePoint.ofNat? code with
    | some (.half s) => if halves then some (.half s) else none
    | p => p

/-- Reads on with `missing` bytes of a sequence still to come. -/
def decodeFrom? (halves : Bool) (missing code least : Nat) : Bytes → Option Text
  | [] => if missing = 0 then some [] else none
  | b :: bs =>
      let n := b.toNat
      match missing with
      | 0 =>
          if n < 0x80 then (decodeFrom? halves 0 0 0 bs).map (CodePoint.char (Char.ofNat n) :: ·)
          else if n < 0xC2 then none
          else if n < 0xE0 then decodeFrom? halves 1 (n - 0xC0) 0x80 bs
          else if n < 0xF0 then decodeFrom? halves 2 (n - 0xE0) 0x800 bs
          else if n < 0xF5 then decodeFrom? halves 3 (n - 0xF0) 0x10000 bs
          else none
      | missing + 1 =>
          if n < 0x80 || 0xC0 ≤ n then none
          else
            let code := code * 64 + (n - 0x80)
            match missing with
            | 0 => do
                let p ← finish? halves code least
                let t ← decodeFrom? halves 0 0 0 bs
                some (p :: t)
            | missing + 1 => decodeFrom? halves (missing + 1) code least bs

/-- Reads bytes as UTF-8. -/
def decode? (bs : Bytes) : Option Text := decodeFrom? false 0 0 0 bs

/-- Reads bytes as UTF-8 in which halves of surrogate pairs may stand. -/
def decodeLenient? (bs : Bytes) : Option Text := decodeFrom? true 0 0 0 bs

/-- The bytes of a code point.  A lone half of a surrogate pair gets the three bytes that its
number would have. -/
def encodePoint (p : CodePoint) : Bytes :=
  let n := p.toNat
  if n < 0x80 then [UInt8.ofNat n]
  else if n < 0x800 then [UInt8.ofNat (0xC0 + n / 64), UInt8.ofNat (0x80 + n % 64)]
  else if n < 0x10000 then
    [UInt8.ofNat (0xE0 + n / 4096), UInt8.ofNat (0x80 + n / 64 % 64), UInt8.ofNat (0x80 + n % 64)]
  else
    [UInt8.ofNat (0xF0 + n / 262144), UInt8.ofNat (0x80 + n / 4096 % 64),
      UInt8.ofNat (0x80 + n / 64 % 64), UInt8.ofNat (0x80 + n % 64)]

/-- The bytes of a text. -/
def encode (t : Text) : Bytes := t.flatMap encodePoint

end Utf8
end VerifiableEscrow
