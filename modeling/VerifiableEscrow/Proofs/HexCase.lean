import Mathlib.Tactic.SplitIfs
import VerifiableEscrow.Proofs.PlainText
import VerifiableEscrow.Text.Hex

/-!
# Digits in either case

The writer of hexadecimal digits uses the lower case, the reader takes either, and blanks
between the pairs as well.  Blanks cost length: a text that is just long enough for its bytes
has none, and it differs from what the writer spells in the case of its letters only.

* `length_decodeSpaced?`: two code points a byte at least;
* `encode_of_decodeSpaced?`: a text without room for blanks is spelled like its bytes;
* `decodeSpaced?_lower`: the reader does not look at the case.
-/

namespace VerifiableEscrow
namespace Hex

/-- A character with a letter among the digits brought to the lower case. -/
def lowerChar (c : Char) : Char := if 'A' ≤ c ∧ c ≤ 'F' then Char.ofNat (c.toNat + 32) else c

/-- A code point with a letter among the digits brought to the lower case. -/
def lowerPoint : CodePoint → CodePoint
  | .char c => .char (lowerChar c)
  | .half s => .half s

/-- A text with the letters among its digits brought to the lower case. -/
def lower (t : Text) : Text := t.map lowerPoint

theorem toNat_lt_of_charValue? {c : Char} {n : Nat} (h : charValue? c = some n) :
    c.toNat < 103 := by
  unfold charValue? at h
  split_ifs at h with h1 h2 h3
  · exact Nat.lt_of_le_of_lt (Text.toNat_le_toNat h1.2) (by decide)
  · exact Nat.lt_of_le_of_lt (Text.toNat_le_toNat h2.2) (by decide)
  · exact Nat.lt_of_le_of_lt (Text.toNat_le_toNat h3.2) (by decide)

theorem lowerChar_ofNat : ∀ m < 103, ∀ n ∈ charValue? (Char.ofNat m),
    n < 16 ∧ lowerChar (Char.ofNat m) = digit n := by decide

/-- A digit in the lower case is the one that the writer spells for its value. -/
theorem lowerChar_of_charValue? {c : Char} {n : Nat} (h : charValue? c = some n) :
    n < 16 ∧ lowerChar c = digit n := by
  have hc := lowerChar_ofNat c.toNat (toNat_lt_of_charValue? h)
  rw [Char.ofNat_toNat] at hc
  exact hc n h

theorem lowerPoint_of_value? {p : CodePoint} {n : Nat} (h : value? p = some n) :
    n < 16 ∧ lowerPoint p = .char (digit n) := by
  cases p with
  | char c =>
    obtain ⟨hn, hdigit⟩ := lowerChar_of_charValue? h
    exact ⟨hn, congrArg CodePoint.char hdigit⟩
  | half s => cases h

/-- Two digits are those of a byte. -/
theorem pair_ofNat {m n : Nat} (hm : m < 16) (hn : n < 16) :
    pair (UInt8.ofNat (16 * m + n)) = [.char (digit m), .char (digit n)] := by
  have hb : (UInt8.ofNat (16 * m + n)).toNat = 16 * m + n := by
    rw [UInt8.toNat_ofNat']
    omega
  rw [pair, hb, show (16 * m + n) / 16 = m by omega, show (16 * m + n) % 16 = n by omega]

/-- The digits of a byte that is read are spelled again but for their case. -/
theorem pair_of_byte? {high low : CodePoint} {b : UInt8} (h : byte? high low = some b) :
    pair b = [lowerPoint high, lowerPoint low] := by
  simp only [byte?, Option.bind_eq_bind, Option.bind_eq_some_iff, Option.some.injEq] at h
  obtain ⟨m, hm, n, hn, rfl⟩ := h
  obtain ⟨hm16, hhigh⟩ := lowerPoint_of_value? hm
  obtain ⟨hn16, hlow⟩ := lowerPoint_of_value? hn
  rw [pair_ofNat hm16 hn16, hhigh, hlow]

/-! ## Length -/

theorem length_decodeSpaced? {t : Text} {bs : Bytes} (h : decodeSpaced? t = some bs) :
    2 * bs.length ≤ t.length := by
  fun_induction decodeSpaced? t generalizing bs with
  | case1 =>
    cases h
    simp
  | case2 p hblank =>
    cases h
    simp
  | case3 p hblank => cases h
  | case4 high low rest hblank ih =>
    have hrest := ih h
    simp only [List.length_cons] at hrest ⊢
    omega
  | case5 high low rest hblank ih =>
    simp only [Option.bind_eq_bind, Option.bind_eq_some_iff, Option.some.injEq] at h
    obtain ⟨b, hb, rest', hrest, rfl⟩ := h
    have := ih hrest
    simp only [List.length_cons]
    omega

/-- A text without room for blanks is spelled like its bytes. -/
theorem encode_of_decodeSpaced? {t : Text} {bs : Bytes} (h : decodeSpaced? t = some bs)
    (hlength : t.length = 2 * bs.length) : encode bs = lower t := by
  fun_induction decodeSpaced? t generalizing bs with
  | case1 =>
    cases h
    rfl
  | case2 p hblank =>
    cases h
    cases hlength
  | case3 p hblank => cases h
  | case4 high low rest hblank ih =>
    have hrest := length_decodeSpaced? h
    simp only [List.length_cons] at hrest hlength
    omega
  | case5 high low rest hblank ih =>
    simp only [Option.bind_eq_bind, Option.bind_eq_some_iff, Option.some.injEq] at h
    obtain ⟨b, hb, rest', hrest, rfl⟩ := h
    simp only [List.length_cons] at hlength
    rw [encode, pair_of_byte? hb, ih hrest (by omega)]
    rfl

/-! ## Case -/

theorem reads_letter : ∀ m < 71, 65 ≤ m →
    value? (.char (Char.ofNat (m + 32))) = value? (.char (Char.ofNat m))
      ∧ Text.isAsciiBlank (.char (Char.ofNat (m + 32)))
        = Text.isAsciiBlank (.char (Char.ofNat m)) := by decide

/-- A digit has the same value in the lower case, and what is no blank does not become one. -/
theorem reads_lowerPoint (p : CodePoint) :
    value? (lowerPoint p) = value? p
      ∧ Text.isAsciiBlank (lowerPoint p) = Text.isAsciiBlank p := by
  cases p with
  | half s => exact ⟨rfl, rfl⟩
  | char c =>
    rw [lowerPoint, lowerChar]
    split_ifs with hcase
    · have hlow : 65 ≤ c.toNat := Text.toNat_le_toNat hcase.1
      have hhigh : c.toNat ≤ 70 := Text.toNat_le_toNat hcase.2
      have hreads := reads_letter c.toNat (by omega) hlow
      rwa [Char.ofNat_toNat] at hreads
    · exact ⟨rfl, rfl⟩

theorem byte?_lowerPoint (high low : CodePoint) :
    byte? (lowerPoint high) (lowerPoint low) = byte? high low := by
  rw [byte?, byte?, (reads_lowerPoint high).1, (reads_lowerPoint low).1]

/-- The reader does not look at the case. -/
theorem decodeSpaced?_lower (t : Text) : decodeSpaced? (lower t) = decodeSpaced? t := by
  fun_induction decodeSpaced? t with
  | case1 => rfl
  | case2 p hblank =>
    simp only [lower, List.map_cons, List.map_nil, decodeSpaced?, reads_lowerPoint, hblank, if_true]
  | case3 p hblank =>
    simp only [lower, List.map_cons, List.map_nil, decodeSpaced?, reads_lowerPoint, hblank,
      Bool.false_eq_true, if_false]
  | case4 high low rest hblank ih =>
    rw [← ih]
    simp only [lower, List.map_cons, decodeSpaced?, reads_lowerPoint, hblank, if_true]
  | case5 high low rest hblank ih =>
    rw [← ih]
    simp only [lower, List.map_cons, decodeSpaced?, reads_lowerPoint, byte?_lowerPoint, hblank,
      Bool.false_eq_true, if_false]

/-- The writer uses the lower case. -/
theorem lower_encode (bs : Bytes) : lower (encode bs) = encode bs :=
  (encode_of_decodeSpaced? (decodeSpaced?_encode bs) (length_encode bs)).symm

end Hex
end VerifiableEscrow
