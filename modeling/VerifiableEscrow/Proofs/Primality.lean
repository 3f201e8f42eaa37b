import Mathlib.Data.List.Prime
import Mathlib.NumberTheory.LucasPrimality
import VerifiableEscrow.Curve.Field
import VerifiableEscrow.Curve.Scalar

/-!
# The two moduli are prime

Coordinates are residues modulo `fieldPrime`, exponents modulo `groupOrder`, and everything
that is divided by anywhere rests on these two numbers being prime.  They have 381 and 255
bits, so they are tested by Lucas's criterion: `n` is prime when some base has order `n - 1`
modulo `n`, which takes the prime factors of `n - 1` and one power for each of them.

## What a certificate is

A `Step` names a number, a base and the prime factors of the number less one.  A certificate
is a list of steps in which every factor is either small enough to be tried out or the number
of a step *before*.  `certifies` is a test that computes, and `prime_of_certifies` says that
every number in a certificate that passes it is prime.

* `powerMod_eq`: powers modulo a number, by the ladder that also computes powers and multiples
  elsewhere;
* `prime_of_isSmallPrime`: trial division up to a hundred settles the numbers below ten
  thousand;
* `prime_of_passes`: one step of Lucas's criterion;
* `fieldPrime_prime`, `groupOrder_prime`: the two moduli.
-/

namespace VerifiableEscrow
namespace Lucas

/-! ## Powers -/

/-- A power of a number modulo another. -/
def powerMod (m a n : ℕ) : ℕ :=
  Ladder.climb (fun x => x * x % m) (fun x y => x * y % m) (1 % m) (Ladder.bits n) n a

theorem powerMod_eq (m a n : ℕ) : powerMod m a n = a ^ n % m := by
  refine Ladder.climb_eq (fun n x => x ^ n % m) (fun x => ?_) (fun n x => ?_) (fun n x => ?_)
    (Ladder.lt_two_pow_bits n) a
  · show x ^ 0 % m = 1 % m
    rw [pow_zero]
  · show x ^ (2 * n) % m = (x * x % m) ^ n % m
    rw [← Nat.pow_mod, pow_mul, sq]
  · show x ^ (2 * n + 1) % m = (x * x % m) ^ n % m * x % m
    rw [← Nat.pow_mod, Nat.mod_mul_mod, pow_succ, pow_mul, sq]

/-- Being one modulo `m` is the same in the residue ring and for the remainders. -/
theorem cast_pow_eq_one_iff {m : ℕ} (hm : 2 ≤ m) (a n : ℕ) :
    (a : ZMod m) ^ n = 1 ↔ powerMod m a n = 1 := by
  have hone : 1 % m = 1 := Nat.mod_eq_of_lt hm
  rw [powerMod_eq, ← Nat.cast_pow, ← Nat.cast_one, ZMod.natCast_eq_natCast_iff]
  exact ⟨fun h => Eq.trans h hone, fun h => Eq.trans h hone.symm⟩

/-! ## Small primes -/

/-- Whether a number below ten thousand has no divisor below a hundred. -/
def isSmallPrime (n : ℕ) : Bool :=
  2 ≤ n && n < 10000 && (List.range 100).all fun d => d < 2 || n ≤ d || n % d ≠ 0

theorem prime_of_isSmallPrime {n : ℕ} (h : isSmallPrime n = true) : n.Prime := by
  simp only [isSmallPrime, Bool.and_eq_true, decide_eq_true_eq, List.all_eq_true,
    List.mem_range, Bool.or_eq_true] at h
  obtain ⟨⟨h2, hn⟩, hd⟩ := h
  refine Nat.prime_def_le_sqrt.mpr ⟨h2, fun d hd2 hds hdn => ?_⟩
  have hsq : d * d ≤ n := Nat.le_sqrt.mp hds
  have hlt : d < 100 := by
    by_contra hge
    have := Nat.mul_le_mul (Nat.not_lt.mp hge) (Nat.not_lt.mp hge)
    omega
  have hself : d < n := by nlinarith
  rcases hd d hlt with (h1 | h1) | h1
  · omega
  · omega
  · exact h1 (Nat.mod_eq_zero_of_dvd hdn)

/-! ## Certificates -/

/-- A number to be shown prime, the base for it, and the prime factors of the number less one,
each as often as it occurs. -/
structure Step where
  number : ℕ
  base : ℕ
  factors : List ℕ

/-- Lucas's criterion for a step, with some primes known already. -/
def Step.passes (known : List ℕ) (s : Step) : Bool :=
  2 ≤ s.number && s.factors.prod = s.number - 1
    && powerMod s.number s.base (s.number - 1) = 1
    && s.factors.all fun r =>
      (isSmallPrime r || known.contains r)
        && powerMod s.number s.base ((s.number - 1) / r) ≠ 1

/-- Whether each step passes when the numbers of the steps before it are known. -/
def certifies : List ℕ → List Step → Bool
  | _, [] => true
  | known, s :: steps => s.passes known && certifies (s.number :: known) steps

theorem prime_of_passes {known : List ℕ} {s : Step} (hknown : ∀ r ∈ known, r.Prime)
    (h : s.passes known = true) : s.number.Prime := by
  simp only [Step.passes, Bool.and_eq_true, decide_eq_true_eq, List.all_eq_true,
    Bool.or_eq_true, List.contains_iff_mem] at h
  obtain ⟨⟨⟨h2, hprod⟩, hfull⟩, hfactors⟩ := h
  have hprime : ∀ r ∈ s.factors, Prime r := by
    intro r hr
    rcases (hfactors r hr).1 with hsmall | hmem
    · exact (prime_of_isSmallPrime hsmall).prime
    · exact (hknown r hmem).prime
  refine lucas_primality s.number (s.base : ZMod s.number)
    ((cast_pow_eq_one_iff h2 _ _).mpr hfull) fun r hr hdvd => ?_
  have hmem : r ∈ s.factors := by
    refine mem_list_primes_of_dvd_prod hr.prime hprime ?_
    rwa [hprod]
  rw [ne_eq, cast_pow_eq_one_iff h2]
  exact (hfactors r hmem).2

/-- Every number of a certificate that passes is prime. -/
theorem prime_of_certifies {known : List ℕ} {steps : List Step}
    (hknown : ∀ r ∈ known, r.Prime) (h : certifies known steps = true) :
    ∀ n ∈ steps.map Step.number, n.Prime := by
  induction steps generalizing known with
  | nil => simp
  | cons s steps ih =>
    rw [certifies, Bool.and_eq_true] at h
    have hs : s.number.Prime := prime_of_passes hknown h.1
    intro n hn
    rcases List.mem_cons.mp hn with rfl | hn
    · exact hs
    · refine ih (fun r hr => ?_) h.2 n hn
      rcases List.mem_cons.mp hr with rfl | hr
      · exact hs
      · exact hknown r hr

/-! ## The field -/

/-- The certificate of the field's modulus. -/
def fieldCertificate : List Step :=
  [⟨10177, 7, [2, 2, 2, 2, 2, 2, 3, 53]⟩,
    ⟨47737, 5, [2, 2, 2, 3, 3, 3, 13, 17]⟩,
    ⟨859267, 2, [2, 3, 3, 47737]⟩,
    ⟨609743, 5, [2, 7, 97, 449]⟩,
    ⟨52437899, 2, [2, 43, 609743]⟩,
    ⟨582767, 5, [2, 67, 4349]⟩,
    ⟨9272813673901, 2, [2, 2, 3, 5, 5, 7, 7577, 582767]⟩,
    ⟨1928745244171409, 3, [2, 2, 2, 2, 13, 9272813673901]⟩,
    ⟨7259797099061183477, 2, [2, 2, 941, 1928745244171409]⟩,
    ⟨2584487767265781317813, 2, [2, 2, 89, 7259797099061183477]⟩,
    ⟨1686913, 10, [2, 2, 2, 2, 2, 2, 2, 3, 23, 191]⟩,
    ⟨475709467, 2, [2, 3, 47, 1686913]⟩,
    ⟨16447, 3, [2, 3, 2741]⟩,
    ⟨43591, 11, [2, 3, 5, 1453]⟩,
    ⟨927093389, 3, [2, 2, 13, 409, 43591]⟩,
    ⟨64881703735777, 5, [2, 2, 2, 2, 2, 3, 3, 3, 3, 3, 3, 3, 927093389]⟩,
    ⟨92691255082156974996979, 3, [2, 3, 31, 467, 16447, 64881703735777]⟩,
    ⟨755057, 3, [2, 2, 2, 2, 41, 1151]⟩,
    ⟨421987, 2, [2, 3, 53, 1327]⟩,
    ⟨13090036741, 10, [2, 2, 3, 5, 11, 47, 421987]⟩,
    ⟨3819663927398918131021, 6, [2, 2, 3, 3, 5, 19, 113, 755057, 13090036741]⟩,
    ⟨51376543, 3, [2, 3, 7, 151, 8101]⟩,
    ⟨43670061551, 7, [2, 5, 5, 17, 51376543]⟩,
    ⟨1125266252156850182658904441386709967, 5,
      [2, 3373, 43670061551, 3819663927398918131021]⟩,
    ⟨15778400344354997994418419698270088123916926905054652752758194827714659, 2,
      [2, 3, 53, 475709467, 92691255082156974996979, 1125266252156850182658904441386709967]⟩,
    ⟨fieldPrime, 2,
      [2, 3, 3, 11, 23, 47, 10177, 859267, 52437899, 2584487767265781317813,
        15778400344354997994418419698270088123916926905054652752758194827714659]⟩]

theorem certifies_fieldCertificate : certifies [] fieldCertificate = true := by decide +kernel

/-! ## The exponents -/

/-- The certificate of the group order. -/
def orderCertificate : List Step :=
  [⟨10177, 7, [2, 2, 2, 2, 2, 2, 3, 53]⟩,
    ⟨20921, 3, [2, 2, 2, 5, 523]⟩,
    ⟨125527, 5, [2, 3, 20921]⟩,
    ⟨47737, 5, [2, 2, 2, 3, 3, 3, 13, 17]⟩,
    ⟨859267, 2, [2, 3, 3, 47737]⟩,
    ⟨906349, 2, [2, 2, 3, 47, 1607]⟩,
    ⟨2508409, 11, [2, 2, 2, 3, 3, 3, 3, 7, 7, 79]⟩,
    ⟨18329, 3, [2, 2, 2, 29, 79]⟩,
    ⟨2529403, 2, [2, 3, 23, 18329]⟩,
    ⟨609743, 5, [2, 7, 97, 449]⟩,
    ⟨52437899, 2, [2, 43, 609743]⟩,
    ⟨110573, 3, [2, 2, 7, 11, 359]⟩,
    ⟨2653753, 5, [2, 2, 2, 3, 110573]⟩,
    ⟨63690073, 7, [2, 2, 2, 3, 2653753]⟩,
    ⟨254760293, 2, [2, 2, 63690073]⟩,
    ⟨groupOrder, 7,
      List.replicate 32 2 ++ [3, 11, 19, 10177, 125527, 859267, 906349, 906349, 2508409,
        2529403, 52437899, 254760293, 254760293]⟩]

theorem certifies_orderCertificate : certifies [] orderCertificate = true := by decide +kernel

end Lucas

theorem fieldPrime_prime : fieldPrime.Prime :=
  Lucas.prime_of_certifies (by simp) Lucas.certifies_fieldCertificate fieldPrime
    (by simp [Lucas.fieldCertificate])

theorem groupOrder_prime : groupOrder.Prime :=
  Lucas.prime_of_certifies (by simp) Lucas.certifies_orderCertificate groupOrder
    (by simp [Lucas.orderCertificate])

end VerifiableEscrow
