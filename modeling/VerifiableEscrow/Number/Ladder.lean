/-!
# Multiples by doubling

One recursion serves the powers of a field element and the multiples of a point: read the
multiplier bit by bit from its low end, double at each step, and add where the bit is set.
The number of steps is given, and `bits n` steps are enough for `n`.

`climb_eq` says what the recursion computes for any operation that has natural multiples.
-/

namespace VerifiableEscrow
namespace Ladder

-- Powers are the ones of `Nat`, whatever other powers are in scope.
attribute [local instance (2000)] instPowNat

variable {α : Type}

/-- The `n`-fold of `x` in `steps` doublings. -/
def climb (double : α → α) (add : α → α → α) (zero : α) : Nat → Nat → α → α
  | 0, _, _ => zero
  | steps + 1, n, x =>
      let rest := climb double add zero steps (n / 2) (double x)
      if n % 2 = 1 then add rest x else rest

/-- How many steps a multiplier needs. -/
def bits (n : Nat) : Nat := n.log2 + 1

theorem lt_two_pow_bits (n : Nat) : n < 2 ^ bits n := Nat.lt_log2_self

/-- Any `times` with the equations of natural multiples is what the ladder computes. -/
theorem climb_eq {double : α → α} {add : α → α → α} {zero : α} (times : Nat → α → α)
    (times_zero : ∀ x, times 0 x = zero)
    (times_even : ∀ n x, times (2 * n) x = times n (double x))
    (times_odd : ∀ n x, times (2 * n + 1) x = add (times n (double x)) x)
    {steps n : Nat} (h : n < 2 ^ steps) (x : α) :
    climb double add zero steps n x = times n x := by
  induction steps generalizing n x with
  | zero =>
    have h0 : n = 0 := by simpa using h
    rw [h0, times_zero, climb]
  | succ steps ih =>
    have hn : n / 2 < 2 ^ steps := by rw [Nat.pow_succ] at h; omega
    rw [climb, ih hn]
    split
    · next hodd => rw [← times_odd, show 2 * (n / 2) + 1 = n by omega]
    · next heven => rw [← times_even, show 2 * (n / 2) = n by omega]

end Ladder
end VerifiableEscrow
