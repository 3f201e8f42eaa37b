import Mathlib.Data.List.Forall2
import VerifiableEscrow.Run

/-!
# When an operation succeeds

An operation made of parts succeeds exactly when its parts do, one after another, each with
what the ones before it gave.  The lemmas below say so for each way of putting parts together,
so that a success is taken apart, or put together, without looking into the operation again.

* `Except.bind_eq_ok`, `Except.guard_eq_ok`, `Except.mapM_eq_ok`: for plain results;
* `Except.Meets`: for what may go wrong as well, a result and its faults in one statement;
* `Run.outcome_bind_eq_ok`, `Run.outcome_guard_eq_ok`: for operations with effects, where the
  second part starts from what the first has left.
-/

namespace VerifiableEscrow

namespace Except

variable {ε α β : Type}

theorem bind_eq_ok {x : Except ε α} {f : α → Except ε β} {b : β} :
    x >>= f = .ok b ↔ ∃ a, x = .ok a ∧ f a = .ok b := by
  cases x with
  | error fault =>
    constructor
    · intro h
      cases h
    · rintro ⟨a, h, -⟩
      cases h
  | ok a =>
    constructor
    · intro h
      exact ⟨a, rfl, h⟩
    · rintro ⟨a', h, hf⟩
      cases h
      exact hf

theorem bind_of_ok {x : Except ε α} {f : α → Except ε β} {a : α} (h : x = .ok a) :
    x >>= f = f a := by
  rw [h]
  rfl

theorem map_eq_ok {x : Except ε α} {f : α → β} {b : β} :
    x.map f = .ok b ↔ ∃ a, x = .ok a ∧ f a = b := by
  cases x <;> simp [Except.map]

theorem map_eq_error {x : Except ε α} {f : α → β} {fault : ε} :
    x.map f = .error fault ↔ x = .error fault := by
  cases x <;> simp [Except.map]

/-- A second part that cannot fail leaves the faults to the first. -/
theorem bind_ok_eq_error {x : Except ε α} {f : α → β} {fault : ε} :
    (x >>= fun a => .ok (f a)) = .error fault ↔ x = .error fault := by
  cases x <;> simp [Bind.bind, Except.bind]

/-- What fails in its first part fails as a whole. -/
theorem bind_of_error {x : Except ε α} {f : α → Except ε β} {fault : ε} (h : x = .error fault) :
    x >>= f = .error fault := by
  rw [h]
  rfl

/-- A guard lets pass what its condition does not refuse. -/
theorem guard_eq_ok {refused : Prop} [Decidable refused] {fault : ε}
    {next : PUnit → Except ε α} {a : α} :
    (if refused then throw fault >>= next else next ⟨⟩) = .ok a
      ↔ ¬refused ∧ next ⟨⟩ = .ok a := by
  by_cases h : refused
  · rw [if_pos h]
    exact ⟨fun hthrow => (nomatch hthrow), fun hpass => absurd h hpass.1⟩
  · rw [if_neg h]
    exact ⟨fun hnext => ⟨h, hnext⟩, fun hpass => hpass.2⟩

/-- A list of parts succeeds exactly when each of them does. -/
theorem mapM_eq_ok {f : α → Except ε β} {as : List α} {bs : List β} :
    as.mapM f = .ok bs ↔ List.Forall₂ (fun a b => f a = .ok b) as bs := by
  induction as generalizing bs with
  | nil =>
    rw [List.mapM_nil, List.forall₂_nil_left_iff]
    exact ⟨fun h => (Except.ok.inj h).symm, fun h => h ▸ rfl⟩
  | cons a as ih =>
    rw [List.mapM_cons, bind_eq_ok, List.forall₂_cons_left_iff]
    constructor
    · rintro ⟨b, hb, h⟩
      obtain ⟨rest, hrest, hpure⟩ := bind_eq_ok.mp h
      exact ⟨b, rest, hb, ih.mp hrest, (Except.ok.inj hpure).symm⟩
    · rintro ⟨b, rest, hb, hrest, rfl⟩
      exact ⟨b, hb, bind_eq_ok.mpr ⟨rest, ih.mpr hrest, rfl⟩⟩

/-- A list of parts each of which has a result has a list of results. -/
theorem exists_mapM_eq_ok {f : α → Except ε β} {as : List α} (h : ∀ a ∈ as, ∃ b, f a = .ok b) :
    ∃ bs, as.mapM f = .ok bs := by
  induction as with
  | nil => exact ⟨[], rfl⟩
  | cons a as ih =>
    obtain ⟨⟨b, hb⟩, hrest⟩ := List.forall_mem_cons.mp h
    obtain ⟨bs, hbs⟩ := ih hrest
    exact ⟨b :: bs, mapM_eq_ok.mpr (.cons hb (mapM_eq_ok.mp hbs))⟩

/-- What succeeds is good, and what fails does so by a fault that may occur. -/
def Meets (x : Except ε α) (good : α → Prop) (bad : ε → Prop) : Prop :=
  match x with
  | .ok a => good a
  | .error fault => bad fault

namespace Meets

variable {x : Except ε α} {good good' : α → Prop} {bad bad' : ε → Prop}

theorem of_ok {a : α} (h : Meets x good bad) (hx : x = .ok a) : good a := by
  subst hx
  exact h

theorem of_error {fault : ε} (h : Meets x good bad) (hx : x = .error fault) : bad fault := by
  subst hx
  exact h

theorem of_pure {a : α} (h : good a) : Meets (pure a : Except ε α) good bad := h

theorem mono (h : Meets x good bad) (hgood : ∀ a, good a → good' a)
    (hbad : ∀ fault, bad fault → bad' fault) : Meets x good' bad' := by
  cases x with
  | ok a => exact hgood a h
  | error fault => exact hbad fault h

/-- A result and its faults where only the faults are in question. -/
theorem of_forall_error (h : ∀ fault, x = .error fault → bad fault) :
    Meets x (fun a => x = .ok a) bad := by
  cases x with
  | ok a => rfl
  | error fault => exact h fault rfl

/-- More faults may occur. -/
theorem weaken (h : Meets x good bad) (hbad : ∀ fault, bad fault → bad' fault) :
    Meets x good bad' :=
  h.mono (fun _ hgood => hgood) hbad

theorem bind {f : α → Except ε β} {next : β → Prop} (h : Meets x good bad)
    (hf : ∀ a, good a → Meets (f a) next bad) : Meets (x >>= f) next bad := by
  cases x with
  | ok a => exact hf a h
  | error fault => exact h

theorem map {f : α → β} {next : β → Prop} (h : Meets x good bad)
    (hf : ∀ a, good a → next (f a)) : Meets (x.map f) next bad := by
  cases x with
  | ok a => exact hf a h
  | error fault => exact h

theorem mapM {f : α → Except ε β} {as : List α}
    (h : ∀ a ∈ as, Meets (f a) (fun _ => True) bad) : Meets (as.mapM f) (fun _ => True) bad := by
  induction as with
  | nil => exact trivial
  | cons a as ih =>
    obtain ⟨hfirst, hrest⟩ := List.forall_mem_cons.mp h
    rw [List.mapM_cons]
    exact hfirst.bind fun _ _ => (ih hrest).bind fun _ _ => trivial

theorem guard {refused : Prop} [Decidable refused] {fault : ε} {next : PUnit → Except ε α}
    (hbad : refused → bad fault) (hnext : ¬refused → Meets (next ⟨⟩) good bad) :
    Meets (if refused then throw fault >>= next else next ⟨⟩) good bad := by
  split_ifs with h
  · exact hbad h
  · exact hnext h

end Meets
end Except

namespace Run

variable {α β : Type} {draws : Draws} {trace after : Trace}

theorem outcome_bind_eq_ok {operation : Run α} {next : α → Run β} {b : β} :
    outcome (operation >>= next) draws trace = (.ok b, after)
      ↔ ∃ a between, outcome operation draws trace = (.ok a, between)
          ∧ outcome (next a) draws between = (.ok b, after) := by
  rw [outcome_bind]
  rcases outcome operation draws trace with ⟨_ | a, between⟩
  · simp
  · constructor
    · intro h
      exact ⟨a, between, rfl, h⟩
    · rintro ⟨a', between', h, hnext⟩
      cases h
      exact hnext

/-- A part without effects leaves the trace as it is. -/
theorem outcome_liftM_bind_eq_ok {result : Except Fault α} {next : α → Run β} {b : β} :
    outcome (liftM result >>= next) draws trace = (.ok b, after)
      ↔ ∃ a, result = .ok a ∧ outcome (next a) draws trace = (.ok b, after) := by
  rw [outcome_bind, outcome_liftM]
  cases result <;> simp

theorem outcome_guard_eq_ok {refused : Prop} [Decidable refused] {fault : Fault}
    {next : PUnit → Run β} {b : β} :
    outcome (if refused then throw fault >>= next else next ⟨⟩) draws trace = (.ok b, after)
      ↔ ¬refused ∧ outcome (next ⟨⟩) draws trace = (.ok b, after) := by
  by_cases h : refused
  · simp [h, outcome_bind]
  · simp [h]

end Run
end VerifiableEscrow
