import VerifiableEscrow.Text

/-!
# Numbers as bytes, the most significant first

`toNat` reads any byte string as a number.  Two writers go the other way: `fixed` writes a
given number of bytes, and `minimal` as few as hold the number, which is none for zero.
`toNat_fixed` and `toNat_minimal` say that both read back, `fixed_toNat` that bytes are written
back as they were read.
-/

namespace VerifiableEscrow
namespace BigEndian

-- Powers are the ones of `Nat`, whatever other powers are in scope.
attribute [local instance (2000)] instPowNat

/-- The number that a byte string writes. -/
def toNat (bs : Bytes) : Nat := bs.foldl (fun n b => n * 256 + b.toNat) 0

/-- The last `width` bytes of a number. -/
def fixed : Nat → Nat → Bytes
  | 0, _ => []
  | width + 1, n => fixed width (n / 256) ++ [UInt8.ofNat n]

/-- How many numbers fit into `width` bytes. -/
def capacity (width : Nat) : Nat := 256 ^ width

/-- How many bytes a number needs: none for zero. -/
def byteLength (n : Nat) : Nat := if n = 0 then 0 else n.log2 / 8 + 1

/-- The bytes of a number without a leading zero byte. -/
def minimal (n : Nat) : Bytes := fixed (byteLength n) n

@[simp] theorem toNat_nil : toNat [] = 0 := rfl

theorem toNat_concat (bs : Bytes) (b : UInt8) : toNat (bs ++ [b]) = toNat bs * 256 + b.toNat := by
  simp [toNat, List.foldl_append]

@[simp] theorem length_fixed (width n : Nat) : (fixed width n).length = width := by
  induction width generalizing n with
  | zero => rfl
  | succ width ih => simp [fixed, ih]

theorem toNat_fixed (width n : Nat) : toNat (fixed width n) = n % capacity width := by
  induction width generalizing n with
  | zero => simp [fixed, capacity, Nat.mod_one]
  | succ width ih =>
    rw [fixed, toNat_concat, ih, capacity, capacity, Nat.pow_succ', Nat.mod_mul]
    simp
    omega

theorem fixed_toNat (bs : Bytes) : fixed bs.length (toNat bs) = bs := by
  induction h : bs.length generalizing bs with
  | zero => rw [List.length_eq_zero_iff.mp h, fixed]
  | succ n ih =>
    have hne : bs ≠ [] := by
      intro he
      simp [he] at h
    rw [← List.dropLast_concat_getLast hne, toNat_concat, fixed]
    have hb := (bs.getLast hne).toNat_lt
    have hdiv : (toNat bs.dropLast * 256 + (bs.getLast hne).toNat) / 256 = toNat bs.dropLast := by
      omega
    have hlow : UInt8.ofNat (toNat bs.dropLast * 256 + (bs.getLast hne).toNat)
        = bs.getLast hne := by
      apply UInt8.toNat_inj.mp
      rw [UInt8.toNat_ofNat']
      omega
    rw [hdiv, hlow, ih bs.dropLast (by simp [h])]

theorem toNat_lt (bs : Bytes) : toNat bs < capacity bs.length := by
  have hpos : 0 < capacity bs.length := Nat.pow_pos (by decide)
  have hmod := toNat_fixed bs.length (toNat bs)
  rw [fixed_toNat] at hmod
  rw [hmod]
  exact Nat.mod_lt _ hpos

theorem lt_byteLength (n : Nat) : n < capacity (byteLength n) := by
  unfold byteLength capacity
  split
  · omega
  · have h := Nat.lt_log2_self (n := n)
    calc n < 2 ^ (n.log2 + 1) := h
      _ ≤ 2 ^ (8 * (n.log2 / 8 + 1)) := Nat.pow_le_pow_right (by decide) (by omega)
      _ = 256 ^ (n.log2 / 8 + 1) := by rw [Nat.pow_mul]

theorem toNat_minimal (n : Nat) : toNat (minimal n) = n := by
  rw [minimal, toNat_fixed, Nat.mod_eq_of_lt (lt_byteLength n)]

end BigEndian
end VerifiableEscrow
