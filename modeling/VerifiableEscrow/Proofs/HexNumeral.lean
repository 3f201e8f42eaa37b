import Mathlib.Data.List.Basic
import VerifiableEscrow.Curve.ScalarCodec

/-!
# Digits that are read as a numeral

Digests become exponents by way of text: the digits that the writer spells are read back by the
generous reader of numerals.  Nothing of the generosity applies, since the writer spells neither
blanks nor signs nor markers, and the number that is read is the one of the bytes.

`hexadecimal?_encode` says so for the reader, `scalarOfNumeral_encode` for the exponent.
-/

namespace VerifiableEscrow

namespace Hex

/-- The characters of a byte string's digits. -/
def chars : Bytes → List Char
  | [] => []
  | b :: bs => digit (b.toNat / 16) :: digit (b.toNat % 16) :: chars bs

theorem encode_eq_ofChars (bs : Bytes) : encode bs = Text.ofChars (chars bs) := by
  induction bs with
  | nil => rfl
  | cons b bs ih => rw [encode, ih]; rfl

/-- A character is a digit of the writer. -/
def IsDigit (c : Char) : Prop := ∃ n < 16, digit n = c

theorem isDigit_high (b : UInt8) : IsDigit (digit (b.toNat / 16)) :=
  ⟨_, by have := b.toNat_lt; omega, rfl⟩

theorem isDigit_low (b : UInt8) : IsDigit (digit (b.toNat % 16)) := ⟨_, by omega, rfl⟩

theorem isDigit_of_mem_chars {bs : Bytes} {c : Char} (h : c ∈ chars bs) : IsDigit c := by
  induction bs with
  | nil => cases h
  | cons b bs ih =>
    rcases List.mem_cons.mp h with rfl | h
    · exact isDigit_high b
    rcases List.mem_cons.mp h with rfl | h
    · exact isDigit_low b
    · exact ih h

theorem exists_digit_of_mem_encode {bs : Bytes} {p : CodePoint} (h : p ∈ encode bs) :
    ∃ n < 16, .char (digit n) = p := by
  rw [encode_eq_ofChars, Text.ofChars, List.mem_map] at h
  obtain ⟨c, hc, rfl⟩ := h
  obtain ⟨n, hn, rfl⟩ := isDigit_of_mem_chars hc
  exact ⟨n, hn, rfl⟩

/-- No digit of the writer is a sign, an underscore or the letter of a marker. -/
theorem IsDigit.ne {c : Char} (h : IsDigit c) :
    c ≠ '-' ∧ c ≠ '+' ∧ c ≠ '_' ∧ c ≠ 'x' ∧ c ≠ 'X' := by
  obtain ⟨n, hn, rfl⟩ := h
  revert n
  decide

end Hex

namespace Numeral

open Hex

theorem asciiChar?_of_isDigit {c : Char} (h : IsDigit c) : asciiChar? (.char c) = some c := by
  obtain ⟨n, hn, rfl⟩ := h
  revert n
  decide

theorem isBlank_of_isDigit {c : Char} (h : IsDigit c) : isBlank c = false := by
  obtain ⟨n, hn, rfl⟩ := h
  revert n
  decide

theorem mapM_asciiChar? {cs : List Char} (h : ∀ c ∈ cs, IsDigit c) :
    (Text.ofChars cs).mapM asciiChar? = some cs := by
  induction cs with
  | nil => rfl
  | cons c cs ih =>
    obtain ⟨hc, hcs⟩ := List.forall_mem_cons.mp h
    simp only [Text.ofChars_cons, List.mapM_cons, asciiChar?_of_isDigit hc, ih hcs,
      Option.bind_eq_bind, Option.bind_some, Option.pure_def]

/-- Digits have no blanks around them. -/
theorem dropWhile_isBlank {cs : List Char} (h : ∀ c ∈ cs, IsDigit c) :
    cs.dropWhile isBlank = cs := by
  cases cs with
  | nil => rfl
  | cons c cs =>
    exact List.dropWhile_cons_of_neg (by simp [isBlank_of_isDigit (h c List.mem_cons_self)])

theorem trim_of_isDigit {cs : List Char} (h : ∀ c ∈ cs, IsDigit c) : trim cs = cs := by
  rw [trim, dropWhile_isBlank h, dropWhile_isBlank fun c hc => h c (List.mem_reverse.mp hc),
    List.reverse_reverse]

theorem digits?_cons {c : Char} {n : Nat} (hc : IsDigit c) (hn : charValue? c = some n)
    (acc : Nat) (behind : Bool) (cs : List Char) :
    digits? acc behind (c :: cs) = digits? (acc * 16 + n) true cs := by
  rw [digits?, if_neg hc.ne.2.2.1, hn]

/-- The two digits of a byte add it to the number read so far. -/
theorem digits?_chars (bs : Bytes) (acc : Nat) :
    digits? acc true (chars bs) = some (bs.foldl (fun n b => n * 256 + b.toNat) acc) := by
  induction bs generalizing acc with
  | nil => rfl
  | cons b bs ih =>
    have hb := b.toNat_lt
    have hsum : (acc * 16 + b.toNat / 16) * 16 + b.toNat % 16 = acc * 256 + b.toNat := by omega
    rw [chars, digits?_cons (isDigit_high b) (charValue?_digit _ (by omega)),
      digits?_cons (isDigit_low b) (charValue?_digit _ (by omega)), hsum, ih, List.foldl_cons]

theorem digits?_chars_start {bs : Bytes} (h : bs ≠ []) :
    digits? 0 false (chars bs) = some (BigEndian.toNat bs) := by
  cases bs with
  | nil => exact absurd rfl h
  | cons b bs =>
    have hb := b.toNat_lt
    have hread := digits?_chars (b :: bs) 0
    rw [chars, digits?_cons (isDigit_high b) (charValue?_digit _ (by omega))] at hread ⊢
    exact hread

theorem magnitude?_chars {bs : Bytes} (h : bs ≠ []) :
    magnitude? (chars bs) = some (BigEndian.toNat bs) := by
  rw [← digits?_chars_start h]
  unfold magnitude?
  split
  next heq =>
    have hx : 'x' ∈ chars bs := by simp [heq]
    exact absurd rfl (isDigit_of_mem_chars hx).ne.2.2.2.1
  next heq =>
    have hx : 'X' ∈ chars bs := by simp [heq]
    exact absurd rfl (isDigit_of_mem_chars hx).ne.2.2.2.2
  next => rfl

theorem signed?_chars {bs : Bytes} (h : bs ≠ []) :
    signed? (chars bs) = some (BigEndian.toNat bs : Int) := by
  unfold signed?
  split
  next heq =>
    have hsign : '-' ∈ chars bs := by simp [heq]
    exact absurd rfl (isDigit_of_mem_chars hsign).ne.1
  next heq =>
    have hsign : '+' ∈ chars bs := by simp [heq]
    exact absurd rfl (isDigit_of_mem_chars hsign).ne.2.1
  next =>
    rw [magnitude?_chars h]
    rfl

/-- What the writer spells is read as the number of the bytes. -/
theorem hexadecimal?_encode {bs : Bytes} (h : bs ≠ []) :
    hexadecimal? (encode bs) = some (BigEndian.toNat bs : Int) := by
  have hdigits : ∀ c ∈ chars bs, IsDigit c := fun c => isDigit_of_mem_chars
  rw [hexadecimal?, encode_eq_ofChars, mapM_asciiChar? hdigits]
  show signed? (trim (chars bs)) = _
  rw [trim_of_isDigit hdigits, signed?_chars h]

end Numeral

/-- The exponent of a byte string's digits. -/
theorem scalarOfNumeral_encode {bs : Bytes} (h : bs ≠ []) :
    scalarOfNumeral (Hex.encode bs) = .ok (Scalar.ofInt (BigEndian.toNat bs)) := by
  rw [scalarOfNumeral, Numeral.hexadecimal?_encode h]

end VerifiableEscrow
