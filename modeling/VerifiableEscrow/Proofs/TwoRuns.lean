import VerifiableEscrow.Proofs.EncryptionChecks

/-!
# Two runs side by side

Some properties of an operation are not about one run of it but about two: that it makes no
difference how an argument is spelled, or that nobody can tell from outside which secrets went in.
Such a property is proved along the operation.  The two runs take the same steps, and what they
have computed so far stands in a relation that each step keeps.

* `Except.Related`: two results, which are successes in a relation or the same failure;
* `Run.Alike`: the same for operations with effects, which also leave the same trace;
* `Escrow.alike_encrypt`: two encryptions, from what relates their checks, their sources and their
  proofs.

A relation on results can be as strong as equality, and then the runs are equal (`Related.eq`,
`Alike.eq`), or it can be no relation at all, and then the runs agree about success and failure and
about what they have reported and drawn.
-/

namespace VerifiableEscrow

namespace Except

variable {ε α α' β β' : Type}

/-- Two results correspond when they are successes with corresponding answers, or the same
failure. -/
inductive Related (R : α → α' → Prop) : Except ε α → Except ε α' → Prop
  | ok {a : α} {a' : α'} (h : R a a') : Related R (.ok a) (.ok a')
  | error (fault : ε) : Related R (.error fault) (.error fault)

namespace Related

variable {R S : α → α' → Prop} {T : β → β' → Prop} {x : Except ε α} {y : Except ε α'}

/-- A result corresponds to itself. -/
theorem of_refl {R : α → α → Prop} (hR : ∀ a, R a a) (x : Except ε α) : Related R x x := by
  cases x with
  | ok a => exact .ok (hR a)
  | error fault => exact .error fault

/-- Results that correspond by equality are equal. -/
theorem eq {x y : Except ε α} (h : Related Eq x y) : x = y := by
  cases h with
  | ok h => rw [h]
  | error fault => rfl

theorem of_ok {a : α} {a' : α'} (hx : x = .ok a) (hy : y = .ok a') (hR : R a a') :
    Related R x y := by
  rw [hx, hy]
  exact .ok hR

theorem mono (h : Related R x y) (hRS : ∀ a a', R a a' → S a a') : Related S x y := by
  cases h with
  | ok h => exact .ok (hRS _ _ h)
  | error fault => exact .error fault

theorem bind {f : α → Except ε β} {g : α' → Except ε β'} (h : Related R x y)
    (hnext : ∀ a a', R a a' → Related T (f a) (g a')) : Related T (x >>= f) (y >>= g) := by
  cases h with
  | ok h => exact hnext _ _ h
  | error fault => exact .error fault

/-- Lists that correspond item by item have results that do. -/
theorem mapM {f : α → Except ε β} {g : α' → Except ε β'} {as : List α} {as' : List α'}
    (h : List.Forall₂ (fun a a' => Related T (f a) (g a')) as as') :
    Related (List.Forall₂ T) (as.mapM f) (as'.mapM g) := by
  induction h with
  | nil => exact .ok .nil
  | cons hfirst _ ih =>
    rw [List.mapM_cons, List.mapM_cons]
    exact hfirst.bind fun _ _ hb => ih.bind fun _ _ hbs => .ok (.cons hb hbs)

/-- Lists whose items have the same results have the same results. -/
theorem mapM_eq {f : α → Except ε β} {g : α' → Except ε β} {as : List α} {as' : List α'}
    (h : List.Forall₂ (fun a a' => f a = g a') as as') : as.mapM f = as'.mapM g := by
  have hrelated : Related (List.Forall₂ Eq) (as.mapM f) (as'.mapM g) := by
    refine mapM (h.imp fun a a' ha => ?_)
    rw [ha]
    exact of_refl (fun _ => rfl) (g a')
  exact (hrelated.mono fun bs bs' hbs => List.forall₂_eq_eq_eq ▸ hbs).eq

/-- A guard that refuses both or neither. -/
theorem guard {refused : Prop} [Decidable refused] {fault : ε} {f : PUnit → Except ε α}
    {g : PUnit → Except ε α'} (h : Related R (f ⟨⟩) (g ⟨⟩)) :
    Related R (if refused then throw fault >>= f else f ⟨⟩)
      (if refused then throw fault >>= g else g ⟨⟩) := by
  split_ifs
  · exact .error fault
  · exact h

end Related
end Except

namespace Run

variable {α α' β β' : Type} {R : α → α' → Prop} {T : β → β' → Prop} {draws draws' : Draws}
  {trace trace' : Trace}

/-- Two operations have corresponding results and leave the same trace. -/
structure Alike (R : α → α' → Prop) (one : Except Fault α × Trace)
    (other : Except Fault α' × Trace) : Prop where
  result : Except.Related R one.1 other.1
  trace : one.2 = other.2

namespace Alike

theorem eq {one other : Except Fault α × Trace} (h : Alike Eq one other) : one = other :=
  Prod.ext h.result.eq h.trace

theorem of_pure {a : α} {a' : α'} (h : R a a') :
    Alike R (outcome (pure a) draws trace) (outcome (pure a') draws' trace) :=
  ⟨.ok h, rfl⟩

theorem of_liftM {x : Except Fault α} {y : Except Fault α'} (h : Except.Related R x y) :
    Alike R (outcome (liftM x) draws trace) (outcome (liftM y) draws' trace) := by
  rw [outcome_liftM, outcome_liftM]
  exact ⟨h, rfl⟩

theorem bind {x : Run α} {y : Run α'} {f : α → Run β} {g : α' → Run β'}
    (h : Alike R (outcome x draws trace) (outcome y draws' trace'))
    (hnext : ∀ a a' between, R a a' →
      Alike T (outcome (f a) draws between) (outcome (g a') draws' between)) :
    Alike T (outcome (x >>= f) draws trace) (outcome (y >>= g) draws' trace') := by
  rw [outcome_bind, outcome_bind]
  generalize outcome x draws trace = one at h ⊢
  generalize outcome y draws' trace' = other at h ⊢
  obtain ⟨result, between⟩ := one
  obtain ⟨result', between'⟩ := other
  obtain ⟨hresult, htrace⟩ := h
  obtain rfl : between = between' := htrace
  cases hresult with
  | ok h => exact hnext _ _ between h
  | error fault => exact ⟨.error fault, rfl⟩

end Alike
end Run

namespace Escrow

/-! ## Two encryptions -/

/-- The checks of two encryptions find the same token and the same label, and openings in a
relation. -/
structure Checked.Corresponds (C : Opening → Opening → Prop) (a a' : Checked) : Prop where
  token : a.token = a'.token
  opening : C a.opening a'.opening
  label : a.label = a'.label

variable {cxb cxb' xb xb' ob ob' : Value} {C : Opening → Opening → Prop}

/-- The checks of two encryptions that differ in their keys and in what they open. -/
theorem checkArguments_related (domain : Slot Domain) (key key' : RawPublicKey)
    (token label : Value)
    (hnull : (cxb.isNull || xb.isNull || ob.isNull) = (cxb'.isNull || xb'.isNull || ob'.isNull))
    (hopening : Except.Related C (checkOpening cxb xb ob) (checkOpening cxb' xb' ob')) :
    Except.Related (Checked.Corresponds C)
      (checkArguments domain (.given key) token cxb xb ob label)
      (checkArguments domain (.given key') token cxb' xb' ob' label) := by
  unfold checkArguments
  simp only [Slot.isMissing_given, Bool.or_assoc] at hnull ⊢
  rw [hnull]
  refine Except.Related.guard ?_
  refine (Except.Related.of_refl (fun _ => rfl) (tokenId token)).bind ?_
  rintro token _ rfl
  refine hopening.bind fun opening opening' hC => ?_
  refine (Except.Related.of_refl (fun _ => rfl) (checkLabel label)).bind ?_
  rintro label _ rfl
  exact .ok ⟨rfl, hC, rfl⟩

/-- Two encryptions take the same steps: they check, they ask their sources for bundles, they prove,
and they report the same token. -/
theorem alike_encrypt {domain domain' : Slot Domain} {key key' : Slot RawPublicKey}
    {token label token' label' : Value} {source source' : Slot Source}
    {S : Source → Source → Prop} {B : Bundle → Bundle → Prop}
    {R : Ciphertext → Ciphertext → Prop} {draws draws' : Draws} (trace : Trace)
    (hcheck : Except.Related (Checked.Corresponds C)
      (checkArguments domain key token cxb xb ob label)
      (checkArguments domain' key' token' cxb' xb' ob' label'))
    (hsource : Except.Related S (sourceOf source) (sourceOf source'))
    (hbundle : ∀ s s' between, S s s' →
      Run.Alike B (Run.outcome s.bundle draws between) (Run.outcome s'.bundle draws' between))
    (hprove : ∀ a a' b b', Checked.Corresponds C a a' → B b b' →
      Except.Related R (a.prove domain key b) (a'.prove domain' key' b')) :
    Run.Alike R (Run.outcome (encrypt domain key token cxb xb ob label source) draws trace)
      (Run.outcome (encrypt domain' key' token' cxb' xb' ob' label' source') draws' trace) := by
  rw [encrypt_eq, encrypt_eq]
  refine (Run.Alike.of_liftM hcheck).bind fun a a' _ ha => ?_
  refine (Run.Alike.of_liftM hsource).bind fun s s' _ hs => ?_
  refine (hbundle s s' _ hs).bind fun b b' _ hb => ?_
  refine (Run.Alike.of_liftM (hprove a a' b b' ha hb)).bind fun ct ct' _ hct => ?_
  have hreport : ∀ between, Run.Alike (fun _ _ => True)
      (Run.outcome (Run.report (.encrypted a.token)) draws between)
      (Run.outcome (Run.report (.encrypted a'.token)) draws' between) := fun between => by
    rw [ha.token]
    exact ⟨.ok trivial, rfl⟩
  exact (hreport _).bind fun _ _ _ _ => Run.Alike.of_pure hct

end Escrow
end VerifiableEscrow
