import VerifiableEscrow.Keys
import VerifiableEscrow.Proofs.ElementAlgebra
import VerifiableEscrow.Randomness

/-!
# What is taken of the stream

All operations draw from one stream of numbers, and the trace keeps the position in it.  Nothing
in the types keeps an operation from looking ahead, or at numbers that have been used up.  That no
operation does so is a property of how operations are built: only `Run.draw` looks at the stream,
it looks at the number at the position, and it moves the position on.

* `Run.Still`: an operation that takes no numbers;
* `Run.Tidy`: an operation that takes numbers one after another and looks at no others; both are
  closed under the ways of building operations;
* `Draws.bundle`, `outcome_generate`: the bundle that is drawn at a position, and what else is.
-/

namespace VerifiableEscrow

open scoped PrimeField Member

/-! ## Exponents and bundles of a stream -/

namespace Draws

/-- The numbers of the stream are what they should be: below the group order less one. -/
def InRange (draws : Draws) : Prop := ∀ n, draws n < groupOrder - 1

/-- The exponent that is drawn at a position: the number there, plus one. -/
def exponent (draws : Draws) (n : ℕ) : Scalar := Scalar.ofInt (draws n + 1 : ℕ)

/-- The bundle that is drawn at a position: the exponents of the position and the next three. -/
def bundle (draws : Draws) (n : ℕ) : Bundle where
  r := draws.exponent n
  xbPrime := draws.exponent (n + 1)
  rPrime := draws.exponent (n + 2)
  obPrime := draws.exponent (n + 3)

namespace InRange

variable {draws : Draws}

theorem toInt_exponent (h : draws.InRange) (n : ℕ) :
    (draws.exponent n).toInt = (draws n + 1 : ℕ) := by
  have hn := h n
  have hpos : 0 < groupOrder := Nat.pos_of_ne_zero groupOrder_ne_zero
  rw [exponent, Scalar.toInt_ofInt]
  exact Int.emod_eq_of_lt (Int.natCast_nonneg _) (by omega)

/-- A drawn number is an exponent in range. -/
theorem scalar? (h : draws.InRange) (n : ℕ) :
    Element.scalar? (.int (draws n + 1 : ℕ)) = some (draws.exponent n) := by
  rw [← h.toInt_exponent n, Element.scalar?_int, Scalar.ofInt?_toInt]

/-- A drawn exponent is not zero. -/
theorem exponent_bounds (h : draws.InRange) (n : ℕ) :
    1 ≤ (draws.exponent n).toInt ∧ (draws.exponent n).toInt ≤ groupOrder - 1 := by
  have hn := h n
  rw [h.toInt_exponent n]
  omega

/-- A drawn exponent can be divided by. -/
theorem exponent_ne_zero (h : draws.InRange) (n : ℕ) : draws.exponent n ≠ 0 := by
  intro hzero
  have hlow := (h.exponent_bounds n).1
  rw [hzero] at hlow
  exact absurd hlow (by decide)

end InRange

/-- The stream of zeros, which gives the exponent one again and again. -/
theorem inRange_zero : InRange fun _ => 0 := fun _ => show 0 < groupOrder - 1 by decide

end Draws

/-- A fresh bundle is made of the next four numbers. -/
theorem Bundle.outcome_generate {draws : Draws} (h : draws.InRange) (trace : Trace) :
    Run.outcome generate draws trace
      = (.ok (draws.bundle trace.drawn), { trace with drawn := trace.drawn + 4 }) := by
  unfold generate
  simp only [Run.outcome_bind, Run.outcome_draw, Run.outcome_liftM, ofFields, h.scalar?]
  rfl

/-- A fresh key is the next number. -/
theorem PrivateKey.outcome_generate {draws : Draws} (h : draws.InRange) {domain : Slot Domain}
    (hdomain : domain.isMissing = false) (trace : Trace) :
    Run.outcome (generate domain) draws trace
      = (.ok ⟨draws.exponent trace.drawn⟩, { trace with drawn := trace.drawn + 1 }) := by
  unfold generate
  rw [hdomain, if_neg Bool.false_ne_true]
  simp only [Run.outcome_bind, Run.outcome_draw, Run.outcome_liftM, ofField, h.scalar?]

/-- The second base of a fresh issuer is the generator raised to the next number. -/
theorem Issuer.exists_outcome_generate {draws : Draws} (h : draws.InRange) (uid hashName : Value)
    (trace : Trace) :
    ∃ g1, Element.ofScalar (.int (draws.exponent trace.drawn).toInt) = .ok g1
      ∧ Run.outcome (generate uid hashName) draws trace
        = (.ok ⟨uid, .text g1, hashName, .text Element.generator, .text group⟩,
            { trace with drawn := trace.drawn + 1 }) := by
  have hbase := Element.ofScalar_eq (draws.exponent trace.drawn)
  refine ⟨_, hbase, ?_⟩
  rw [h.toInt_exponent] at hbase
  unfold generate
  simp only [Run.outcome_bind, Run.outcome_draw, Run.outcome_liftM, hbase, Run.outcome_pure]

namespace Run

variable {α β : Type}

/-! ## Operations and the stream -/

/-- An operation that takes numbers one after another.  The position never goes back, and no
number of the stream matters but those that the position passes. -/
structure Tidy (operation : Run α) : Prop where
  forward : ∀ draws trace, trace.drawn ≤ (outcome operation draws trace).2.drawn
  only : ∀ draws draws' trace,
    (∀ n, trace.drawn ≤ n → n < (outcome operation draws trace).2.drawn → draws' n = draws n) →
      outcome operation draws' trace = outcome operation draws trace

/-- An operation that takes no numbers. -/
structure Still (operation : Run α) : Prop extends Tidy operation where
  stays : ∀ draws trace, (outcome operation draws trace).2.drawn = trace.drawn

variable {operation : Run α} {next : α → Run β}

/-! ### Parts -/

/-- An operation that does not ask for the stream and does not move the position. -/
theorem Still.of_outcome
    (hfree : ∀ draws draws' trace, outcome operation draws' trace = outcome operation draws trace)
    (hstays : ∀ draws trace, (outcome operation draws trace).2.drawn = trace.drawn) :
    Still operation where
  forward draws trace := (hstays draws trace).ge
  only draws draws' trace _ := hfree draws draws' trace
  stays := hstays

theorem Still.of_pure (a : α) : Still (pure a : Run α) :=
  .of_outcome (fun _ _ _ => rfl) fun _ _ => rfl

theorem Still.of_report (event : Event) : Still (report event) :=
  .of_outcome (fun _ _ _ => rfl) fun _ _ => rfl

theorem Still.of_liftM (result : Except Fault α) : Still (liftM result : Run α) := by
  refine .of_outcome (fun draws draws' trace => ?_) fun draws trace => ?_
  · rw [outcome_liftM, outcome_liftM]
  · rw [outcome_liftM]

/-- A draw takes the number at the position. -/
theorem Tidy.of_draw : Tidy draw where
  forward draws trace := Nat.le_succ trace.drawn
  only draws draws' trace h := by
    rw [outcome_draw, outcome_draw, h trace.drawn le_rfl (Nat.lt_succ_self trace.drawn)]

/-! ### Putting parts together -/

theorem Tidy.bind (h : Tidy operation) (hnext : ∀ a, Tidy (next a)) :
    Tidy (operation >>= next) where
  forward draws trace := by
    have hfirst := h.forward draws trace
    rw [outcome_bind]
    rcases houtcome : outcome operation draws trace with ⟨_ | a, between⟩
    · rwa [houtcome] at hfirst
    · rw [houtcome] at hfirst
      exact hfirst.trans ((hnext a).forward draws between)
  only draws draws' trace hagree := by
    have hfirst := h.forward draws trace
    have honly := h.only draws draws' trace
    rw [outcome_bind] at hagree
    rw [outcome_bind, outcome_bind]
    rcases houtcome : outcome operation draws trace with ⟨_ | a, between⟩
    · rw [houtcome] at hagree honly
      rw [honly hagree]
    · rw [houtcome] at hagree honly hfirst
      -- the numbers that the first part passes are followed by those of the second
      have hsecond := (hnext a).forward draws between
      rw [honly fun n hlow hhigh => hagree n hlow (hhigh.trans_le hsecond)]
      exact (hnext a).only draws draws' between fun n hlow hhigh =>
        hagree n (hfirst.trans hlow) hhigh

theorem Still.bind (h : Still operation) (hnext : ∀ a, Still (next a)) :
    Still (operation >>= next) where
  toTidy := h.toTidy.bind fun a => (hnext a).toTidy
  stays draws trace := by
    have hfirst := h.stays draws trace
    rw [outcome_bind]
    rcases houtcome : outcome operation draws trace with ⟨_ | a, between⟩
    · rwa [houtcome] at hfirst
    · rw [houtcome] at hfirst
      exact ((hnext a).stays draws between).trans hfirst

theorem Tidy.map (h : Tidy operation) (f : α → β) : Tidy (f <$> operation) := by
  rw [map_eq_pure_bind]
  exact h.bind fun a => (Still.of_pure (f a)).toTidy

theorem Still.map (h : Still operation) (f : α → β) : Still (f <$> operation) := by
  rw [map_eq_pure_bind]
  exact h.bind fun a => .of_pure (f a)

section Guard

variable {refused : Prop} [Decidable refused] {fault : Fault} {next : PUnit → Run α}

theorem Still.of_throw_bind (fault : Fault) (next : α → Run β) : Still (throw fault >>= next) :=
  .of_outcome (fun _ _ _ => rfl) fun _ _ => rfl

theorem Tidy.guard (h : Tidy (next ⟨⟩)) :
    Tidy (if refused then throw fault >>= next else next ⟨⟩) := by
  split_ifs
  · exact (Still.of_throw_bind fault next).toTidy
  · exact h

theorem Still.guard (h : Still (next ⟨⟩)) :
    Still (if refused then throw fault >>= next else next ⟨⟩) := by
  split_ifs
  · exact Still.of_throw_bind fault next
  · exact h

end Guard

end Run
end VerifiableEscrow
