import VerifiableEscrow.Text.Utf8

/-!
# Telling the encoding of a JSON text

A JSON text that comes as bytes may be in any of five encodings.  A byte order mark tells
which; without one the zero bytes among the first four do, because a JSON text begins with
ASCII.  Halves of surrogate pairs pass in all of them.
-/

namespace VerifiableEscrow

/-- An encoding of text. -/
inductive Encoding where
  | utf8
  | utf16 (big : Bool)
  | utf32 (big : Bool)
  deriving DecidableEq

namespace Encoding

/-- The number of two bytes in an order. -/
def unit16 (big : Bool) (a b : UInt8) : Nat :=
  if big then a.toNat * 256 + b.toNat else b.toNat * 256 + a.toNat

/-- Reads units of two bytes; a pair of halves is one character. -/
def decode16? (big : Bool) : Bytes → Option Text
  | [] => some []
  | [_] => none
  | a :: b :: rest => do
      let n := unit16 big a b
      let t ← decode16? big rest
      let p ← CodePoint.ofNat? n
      match p, t with
      | .half high, .half low :: t =>
          if high.val < 0x400 ∧ 0x400 ≤ low.val then
            let p ← CodePoint.ofNat? (0x10000 + high.val * 0x400 + (low.val - 0x400))
            some (p :: t)
          else some (p :: .half low :: t)
      | p, t => some (p :: t)

/-- Reads units of four bytes. -/
def decode32? (big : Bool) : Bytes → Option Text
  | [] => some []
  | a :: b :: c :: d :: rest => do
      let n :=
        if big then unit16 big a b * 65536 + unit16 big c d
        else unit16 big c d * 65536 + unit16 big a b
      let p ← CodePoint.ofNat? n
      let t ← decode32? big rest
      some (p :: t)
  | _ => none

/-- Reads bytes in an encoding. -/
def decode? : Encoding → Bytes → Option Text
  | utf8, bs => Utf8.decodeLenient? bs
  | utf16 big, bs => decode16? big bs
  | utf32 big, bs => decode32? big bs

/-- The encoding that zero bytes at the front of a JSON text tell. -/
def ofZeros : Bytes → Encoding
  | 0 :: 0 :: _ :: _ :: _ => utf32 true
  | 0 :: _ :: _ :: _ :: _ => utf16 true
  | _ :: 0 :: 0 :: 0 :: _ => utf32 false
  | _ :: 0 :: _ :: _ :: _ => utf16 false
  | [0, _] => utf16 true
  | [_, 0] => utf16 false
  | _ => utf8

/-- The encoding of a JSON text, and the bytes behind its byte order mark. -/
def detect : Bytes → Encoding × Bytes
  | 0x00 :: 0x00 :: 0xFE :: 0xFF :: rest => (utf32 true, rest)
  | 0xFF :: 0xFE :: 0x00 :: 0x00 :: rest => (utf32 false, rest)
  | 0xFE :: 0xFF :: rest => (utf16 true, rest)
  | 0xFF :: 0xFE :: rest => (utf16 false, rest)
  | 0xEF :: 0xBB :: 0xBF :: rest => (utf8, rest)
  | bs => (ofZeros bs, bs)

/-- Reads bytes in the encoding that they tell. -/
def decodeDetected? (bs : Bytes) : Option Text :=
  let (encoding, rest) := detect bs
  encoding.decode? rest

end Encoding
end VerifiableEscrow
