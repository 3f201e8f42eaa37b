import Mathlib.Data.List.Induction
import Mathlib.Tactic.Ring
import Mathlib.Tactic.SplitIfs
import VerifiableEscrow.Curve.ScalarCodec

/-!
# Zero bytes in front of a number

Many byte strings have the same number, since zero bytes in front count for nothing.  They are
all that is lost.  A byte string that begins with another byte has a number that is large enough to
tell how many bytes there are, and bytes of a known width are found again from their number
(`fixed_toNat`).

An exponent is written without zero bytes in front, except that zero gets one.  So the byte strings
that are written are those of `IsMinimal`, one for each number.

* `byteLength_eq`: the width that a number needs, from the powers of 256 around it;
* `minimal_toNat`: **writing the number of bytes** takes the zero bytes in front away;
* `scalarBytes_toNat`, `scalarBytes_eq_iff`: what follows for exponents.
-/

namespace VerifiableEscrow

namespace BigEndian

theorem capacity_eq (width : ℕ) : capacity width = 2 ^ (8 * width) := (Nat.pow_mul 2 8 width).symm

/-- A number that reaches the capacity of some bytes, and not that of one more, needs one more. -/
theorem byteLength_eq {width n : ℕ} (hlow : capacity width ≤ n) (hhigh : n < capacity (width + 1)) :
    byteLength n = width + 1 := by
  rw [capacity_eq] at hlow hhigh
  have hne : n ≠ 0 := Nat.ne_of_gt (Nat.lt_of_lt_of_le (Nat.two_pow_pos _) hlow)
  have hlog : 8 * width ≤ n.log2 := (Nat.le_log2 hne).mpr hlow
  have hlog' : n.log2 < 8 * (width + 1) := (Nat.log2_lt hne).mpr hhigh
  rw [byteLength, if_neg hne]
  omega

/-- The first byte counts as often as the others have numbers. -/
theorem toNat_cons (b : UInt8) (bs : Bytes) :
    toNat (b :: bs) = b.toNat * capacity bs.length + toNat bs := by
  induction bs using List.reverseRecOn with
  | nil => simp [toNat, capacity]
  | append_singleton bs c ih =>
    rw [← List.cons_append, toNat_concat, toNat_concat, ih, List.length_append,
      List.length_singleton, capacity, capacity, Nat.pow_succ]
    ring

/-- Bytes of which the first is not zero are written back as they were read. -/
theorem minimal_toNat_of_ne_zero {b : UInt8} (hb : b ≠ 0) (bs : Bytes) :
    minimal (toNat (b :: bs)) = b :: bs := by
  have hpos : 0 < b.toNat := Nat.pos_of_ne_zero fun h => hb (UInt8.toNat_inj.mp h)
  have hlow : capacity bs.length ≤ toNat (b :: bs) := by
    rw [toNat_cons]
    exact (Nat.le_mul_of_pos_left _ hpos).trans (Nat.le_add_right _ _)
  rw [minimal, byteLength_eq hlow (toNat_lt (b :: bs))]
  exact fixed_toNat (b :: bs)

/-- A byte string without the zero bytes in front. -/
def trimmed (bs : Bytes) : Bytes := bs.dropWhile (· = 0)

/-- **The number of bytes is written** without the zero bytes in front, and with all others. -/
theorem minimal_toNat (bs : Bytes) : minimal (toNat bs) = trimmed bs := by
  induction bs with
  | nil => rfl
  | cons b bs ih =>
    by_cases hb : b = 0
    · subst hb
      have hskip : toNat (0 :: bs) = toNat bs := by
        rw [toNat_cons]
        simp
      rw [hskip, ih, trimmed, trimmed, List.dropWhile_cons_of_pos (by simp)]
    · rw [minimal_toNat_of_ne_zero hb, trimmed, List.dropWhile_cons_of_neg (by simpa using hb)]

/-- A byte string without the zero bytes in front, except that one is kept where there is nothing
else. -/
def significant (bs : Bytes) : Bytes := if trimmed bs = [] then [0] else trimmed bs

/-- Bytes that none can be left out of: there are some, and the first is not zero unless it is the
only one. -/
structure IsMinimal (bs : Bytes) : Prop where
  nonempty : bs ≠ []
  leading : ∀ rest, bs = 0 :: rest → rest = []

theorem isMinimal_significant (bs : Bytes) : IsMinimal (significant bs) := by
  unfold significant
  split_ifs with h
  · exact ⟨List.cons_ne_nil _ _, fun rest hrest => (List.cons.inj hrest).2.symm⟩
  · refine ⟨h, fun rest hrest => ?_⟩
    have hhead := List.head?_dropWhile_not (· = (0 : UInt8)) bs
    rw [show bs.dropWhile (· = 0) = 0 :: rest from hrest] at hhead
    exact absurd hhead Bool.noConfusion

theorem significant_of_isMinimal {bs : Bytes} (h : IsMinimal bs) : significant bs = bs := by
  cases bs with
  | nil => exact absurd rfl h.nonempty
  | cons b bs =>
    by_cases hb : b = 0
    · subst hb
      rw [h.leading bs rfl]
      rfl
    · have htrimmed : trimmed (b :: bs) = b :: bs :=
        List.dropWhile_cons_of_neg (by simpa using hb)
      rw [significant, htrimmed, if_neg (List.cons_ne_nil b bs)]

end BigEndian

open BigEndian (IsMinimal significant)

/-- An exponent that was read is written without the zero bytes in front of it, but for one. -/
theorem scalarBytes_toNat (bs : Bytes) : scalarBytes (BigEndian.toNat bs) = significant bs := by
  have hwritten := BigEndian.minimal_toNat bs
  unfold scalarBytes significant
  split_ifs with hzero htrimmed htrimmed
  · rfl
  · rw [hzero] at hwritten
    exact absurd hwritten.symm htrimmed
  · rw [htrimmed] at hwritten
    have hread := BigEndian.toNat_minimal (BigEndian.toNat bs)
    rw [hwritten] at hread
    exact absurd hread.symm hzero
  · exact hwritten

theorem isMinimal_scalarBytes (n : ℕ) : IsMinimal (scalarBytes n) := by
  have hwritten := scalarBytes_toNat (scalarBytes n)
  rw [toNat_scalarBytes] at hwritten
  rw [hwritten]
  exact BigEndian.isMinimal_significant (scalarBytes n)

/-- **The bytes of an exponent** are the minimal ones with its number. -/
theorem scalarBytes_eq_iff {n : ℕ} {bs : Bytes} :
    scalarBytes n = bs ↔ IsMinimal bs ∧ BigEndian.toNat bs = n := by
  constructor
  · rintro rfl
    exact ⟨isMinimal_scalarBytes n, toNat_scalarBytes n⟩
  · rintro ⟨hminimal, rfl⟩
    rw [scalarBytes_toNat, BigEndian.significant_of_isMinimal hminimal]

end VerifiableEscrow
