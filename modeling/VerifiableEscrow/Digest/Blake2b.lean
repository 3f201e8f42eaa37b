import VerifiableEscrow.Number.BigEndian

/-!
# BLAKE2b with a digest of 28 bytes

Unkeyed BLAKE2b: eight words of 64 bits, blocks of 128 bytes, twelve rounds of eight mixings.
Words are little-endian.  The first word of the state takes in the digest size, so this is a
hash function of its own and not a longer digest cut short.
-/

namespace VerifiableEscrow
namespace Blake2b

/-- How many bytes the digest has. -/
def digestLength : Nat := 28

/-- The constants of the first state, those of SHA-512. -/
def initial : Vector UInt64 8 :=
  #v[0x6a09e667f3bcc908, 0xbb67ae8584caa73b, 0x3c6ef372fe94f82b, 0xa54ff53a5f1d36f1,
    0x510e527fade682d1, 0x9b05688c2b3e6c1f, 0x1f83d9abfb41bd6b, 0x5be0cd19137e2179]

/-- Which message words the mixings of a round take. -/
def orders : List (List (Fin 16)) :=
  [[0, 1, 2, 3, 4, 5, 6, 7, 8, 9, 10, 11, 12, 13, 14, 15],
    [14, 10, 4, 8, 9, 15, 13, 6, 1, 12, 0, 2, 11, 7, 5, 3],
    [11, 8, 12, 0, 5, 2, 15, 13, 10, 14, 3, 6, 7, 1, 9, 4],
    [7, 9, 3, 1, 13, 12, 11, 14, 2, 6, 5, 10, 4, 0, 15, 8],
    [9, 0, 5, 7, 2, 4, 10, 15, 14, 1, 11, 12, 6, 8, 3, 13],
    [2, 12, 6, 10, 0, 11, 8, 3, 4, 13, 7, 5, 15, 14, 1, 9],
    [12, 5, 1, 15, 14, 13, 4, 10, 0, 7, 6, 3, 9, 2, 8, 11],
    [13, 11, 7, 14, 12, 1, 3, 9, 5, 0, 15, 4, 8, 6, 2, 10],
    [6, 15, 14, 9, 11, 3, 0, 8, 12, 2, 13, 7, 1, 4, 10, 5],
    [10, 2, 8, 4, 7, 6, 1, 5, 15, 11, 9, 14, 3, 12, 13, 0]]

/-- The orders of the twelve rounds: all ten, then the first two again. -/
def rounds : List (List (Fin 16)) := orders ++ orders.take 2

/-- Rotates a word to the right. -/
def rotr (x : UInt64) (n : UInt64) : UInt64 := (x >>> n) ||| (x <<< (64 - n))

/-- Mixes two message words into four words of the working vector. -/
def mix (v : Vector UInt64 16) (a b c d : Fin 16) (x y : UInt64) : Vector UInt64 16 :=
  let va := v.get a + v.get b + x
  let vd := rotr (v.get d ^^^ va) 32
  let vc := v.get c + vd
  let vb := rotr (v.get b ^^^ vc) 24
  let va := va + vb + y
  let vd := rotr (vd ^^^ va) 16
  let vc := vc + vd
  let vb := rotr (vb ^^^ vc) 63
  (((v.set a va).set b vb).set c vc).set d vd

/-- The words that the eight mixings of a round work on: the columns, then the diagonals. -/
def places : List (Fin 16 × Fin 16 × Fin 16 × Fin 16) :=
  [(0, 4, 8, 12), (1, 5, 9, 13), (2, 6, 10, 14), (3, 7, 11, 15),
    (0, 5, 10, 15), (1, 6, 11, 12), (2, 7, 8, 13), (3, 4, 9, 14)]

/-- One mixing after another, each with the next two words of the order. -/
def mixAll (m : Vector UInt64 16) :
    List (Fin 16 × Fin 16 × Fin 16 × Fin 16) → List (Fin 16) → Vector UInt64 16 → Vector UInt64 16
  | (a, b, c, d) :: ps, i :: j :: order, v =>
      mixAll m ps order (mix v a b c d (m.get i) (m.get j))
  | _, _, v => v

/-- The number that a list of bytes writes, the least significant first. -/
def littleEndian (bs : Bytes) : Nat := BigEndian.toNat bs.reverse

/-- The sixteen words of a block; bytes past its end count as zero. -/
def wordsOf (block : Bytes) : Vector UInt64 16 :=
  Vector.ofFn fun i => UInt64.ofNat (littleEndian ((block.drop (8 * i.val)).take 8))

/-- Takes in one block.  `count` is the number of message bytes up to its end. -/
def compress (h : Vector UInt64 8) (block : Bytes) (count : Nat) (last : Bool) :
    Vector UInt64 8 :=
  let v : Vector UInt64 16 := h ++ initial
  let v := v.set 12 (v.get 12 ^^^ UInt64.ofNat count)
  let v := v.set 13 (v.get 13 ^^^ UInt64.ofNat (count >>> 64))
  let v := if last then v.set 14 (~~~ v.get 14) else v
  let v := rounds.foldl (fun v order => mixAll (wordsOf block) places order v) v
  Vector.ofFn fun i => h.get i ^^^ v.get (i.castLE (by decide)) ^^^ v.get (i.natAdd 8)

/-- Takes in `n` whole blocks and then the rest of the message as the last block. -/
def absorb : Nat → Vector UInt64 8 → Nat → Bytes → Vector UInt64 8
  | 0, h, count, bs => compress h bs (count + bs.length) true
  | n + 1, h, count, bs =>
      absorb n (compress h (bs.take 128) (count + 128) false) (count + 128) (bs.drop 128)

/-- The digest of a message.  A message of whole blocks keeps its last one for the end. -/
def digest (message : Bytes) : Bytes :=
  let start := initial.set 0 (initial.get 0 ^^^ 0x01010000 ^^^ UInt64.ofNat digestLength)
  let words := absorb ((message.length - 1) / 128) start 0 message
  (words.toList.flatMap fun w => (BigEndian.fixed 8 w.toNat).reverse).take digestLength

@[simp] theorem length_digest (message : Bytes) : (digest message).length = 28 := by
  simp [digest, digestLength, List.length_flatMap, List.map_const']

end Blake2b
end VerifiableEscrow
