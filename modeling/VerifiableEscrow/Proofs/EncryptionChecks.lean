import VerifiableEscrow.Proofs.EscrowAlgebra

/-!
# Checking comes before drawing

An encryption has two phases.  The first looks at the arguments and has no effects: it either
refuses them or finds what the second needs (`Checked`).  The second takes a bundle from the
source, proves, and reports.  A presentation's encryption puts a phase in front that looks at the
artifacts, and this has no effects either.

The definitions of both operations are lists of steps in which the phases are not set apart.  This
module does that, so that what is said about arguments and what is said about randomness need not
be said together.

* `encrypt_eq`, `Presentation.encrypt_eq`: the operations are their phases, one after another;
* `checkArguments_eq_ok`, `checkArguments_meets`: what passes the checks, and how the rest is
  refused;
* `outcome_proceed`: what the second phase comes to once the source has given its bundle.
-/

namespace VerifiableEscrow

namespace Run

variable {α β γ : Type}

/-- A result that is put together of parts is lifted part by part. -/
theorem liftM_bind (x : Except Fault α) (f : α → Except Fault β) (next : β → Run γ) :
    (liftM (x >>= f) : Run β) >>= next = liftM x >>= fun a => liftM (f a) >>= next := by
  cases x <;> rfl

theorem liftM_guard {refused : Prop} [Decidable refused] (fault : Fault)
    (rest : PUnit → Except Fault α) (next : α → Run β) :
    (liftM (if refused then throw fault >>= rest else rest ⟨⟩) : Run α) >>= next
      = if refused then throw fault >>= fun u => liftM (rest u) >>= next
        else liftM (rest ⟨⟩) >>= next := by
  split_ifs <;> rfl

theorem liftM_pure (a : α) (next : α → Run β) :
    (liftM (pure a : Except Fault α) : Run α) >>= next = next a := rfl

/-- A part that is known to succeed can be left out. -/
theorem liftM_of_ok {x : Except Fault α} {a : α} (h : x = .ok a) (next : α → Run β) :
    (liftM x : Run α) >>= next = next a := by
  rw [h]
  rfl

end Run

namespace Escrow

open Element

/-! ## The first phase -/

/-- What the checks of an encryption find in its arguments. -/
structure Checked where
  token : Bytes
  opening : Opening
  label : Option Bytes

/-- The arguments are those that the checks find this in. -/
structure Checked.Of (a : Checked) (token cxb xb ob label : Value) : Prop where
  token : token = .bytes a.token
  token_ne_nil : a.token ≠ []
  commitment : cxb = .text a.opening.commitment
  x : xb = .int a.opening.x.toInt
  o : ob = .int a.opening.o.toInt
  label : label = Ciphertext.labelValue a.label

/-- The checks of an encryption, in their order. -/
def checkArguments (domain : Slot Domain) (key : Slot RawPublicKey)
    (token cxb xb ob label : Value) : Except Fault Checked := do
  if domain.isMissing || key.isMissing || cxb.isNull || xb.isNull || ob.isNull then
    throw (.argument (.missing .encryption))
  let token ← tokenId token
  let opening ← checkOpening cxb xb ob
  let label ← checkLabel label
  return ⟨token, opening, label⟩

/-- The ciphertext that a bundle gives of checked arguments. -/
def Checked.prove (a : Checked) (domain : Slot Domain) (key : Slot RawPublicKey)
    (bundle : Bundle) : Except Fault Ciphertext := do
  Escrow.prove (← domain.get) key a.token a.opening a.label bundle

theorem Checked.prove_given (a : Checked) (d : Domain) (key : Slot RawPublicKey)
    (bundle : Bundle) :
    a.prove (.given d) key bundle = Escrow.prove d key a.token a.opening a.label bundle := by
  unfold Checked.prove
  exact Except.bind_of_ok (Slot.get_given d)

/-- What an encryption does once its arguments have been checked. -/
def proceed (domain : Slot Domain) (key : Slot RawPublicKey) (a : Checked)
    (source : Slot Source) : Run Ciphertext := do
  let source ← sourceOf source
  let bundle ← source.bundle
  let ct ← a.prove domain key bundle
  Run.report (.encrypted a.token)
  return ct

/-- An encryption checks its arguments and then proceeds. -/
theorem encrypt_eq (domain : Slot Domain) (key : Slot RawPublicKey)
    (token cxb xb ob label : Value) (source : Slot Source) :
    encrypt domain key token cxb xb ob label source
      = liftM (checkArguments domain key token cxb xb ob label) >>= fun a =>
          proceed domain key a source := by
  unfold encrypt checkArguments proceed Checked.prove
  simp only [Run.liftM_guard, Run.liftM_bind, Run.liftM_pure]

theorem checkOpening_eq_ok {cxb xb ob : Value} {opening : Opening} :
    checkOpening cxb xb ob = .ok opening
      ↔ cxb = .text opening.commitment ∧ xb = .int opening.x.toInt ∧ ob = .int opening.o.toInt := by
  constructor
  · intro h
    unfold checkOpening at h
    split at h
    next =>
      split at h
      next x o hx ho =>
        cases h
        exact ⟨rfl, scalar?_eq_some.mp hx, scalar?_eq_some.mp ho⟩
      next => cases h
    next => cases h
  · rintro ⟨rfl, rfl, rfl⟩
    simp only [checkOpening, scalar?_int, Scalar.ofInt?_toInt]

theorem checkLabel_eq_ok {v : Value} {label : Option Bytes} :
    checkLabel v = .ok label ↔ v = Ciphertext.labelValue label := by
  constructor
  · intro h
    cases v <;> cases h <;> rfl
  · rintro rfl
    cases label <;> rfl

/-- What passes the checks. -/
theorem checkArguments_eq_ok {domain : Slot Domain} {key : Slot RawPublicKey}
    {token cxb xb ob label : Value} {a : Checked} :
    checkArguments domain key token cxb xb ob label = .ok a
      ↔ domain.isMissing = false ∧ key.isMissing = false ∧ a.Of token cxb xb ob label := by
  unfold checkArguments
  rw [Except.guard_eq_ok]
  simp only [Bool.not_eq_true, Bool.or_eq_false_iff]
  constructor
  · rintro ⟨⟨⟨⟨⟨hdomain, hkey⟩, -⟩, -⟩, -⟩, h⟩
    obtain ⟨bs, htoken, h⟩ := Except.bind_eq_ok.mp h
    obtain ⟨opening, hopening, h⟩ := Except.bind_eq_ok.mp h
    obtain ⟨found, hlabel, h⟩ := Except.bind_eq_ok.mp h
    cases h
    obtain ⟨htoken, hne⟩ := tokenId_eq_ok.mp htoken
    obtain ⟨hcommitment, hx, ho⟩ := checkOpening_eq_ok.mp hopening
    exact ⟨hdomain, hkey, htoken, hne, hcommitment, hx, ho, checkLabel_eq_ok.mp hlabel⟩
  · rintro ⟨hdomain, hkey, htoken, hne, hcommitment, hx, ho, hlabel⟩
    refine ⟨by simp [hdomain, hkey, hcommitment, hx, ho, Value.isNull], ?_⟩
    refine Except.bind_eq_ok.mpr ⟨a.token, tokenId_eq_ok.mpr ⟨htoken, hne⟩, ?_⟩
    refine Except.bind_eq_ok.mpr ⟨a.opening, checkOpening_eq_ok.mpr ⟨hcommitment, hx, ho⟩, ?_⟩
    exact Except.bind_eq_ok.mpr ⟨a.label, checkLabel_eq_ok.mpr hlabel, rfl⟩

/-- What does not pass is refused as an argument. -/
theorem checkArguments_meets (domain : Slot Domain) (key : Slot RawPublicKey)
    (token cxb xb ob label : Value) :
    Except.Meets (checkArguments domain key token cxb xb ob label) (fun _ => True)
      fun fault => ∃ why, fault = .argument why := by
  have htoken : Except.Meets (tokenId token) (fun _ => True)
      fun fault => ∃ why, fault = .argument why := by
    unfold tokenId
    split
    next => exact ⟨_, rfl⟩
    next => split_ifs <;> simp [Except.Meets]
    next => exact ⟨_, rfl⟩
  have hopening : Except.Meets (checkOpening cxb xb ob) (fun _ => True)
      fun fault => ∃ why, fault = .argument why := by
    unfold checkOpening
    split
    next => split <;> simp [Except.Meets]
    next => exact ⟨_, rfl⟩
  have hlabel : Except.Meets (checkLabel label) (fun _ => True)
      fun fault => ∃ why, fault = .argument why := by
    unfold checkLabel
    split <;> simp [Except.Meets]
  unfold checkArguments
  refine Except.Meets.guard (fun _ => ⟨_, rfl⟩) fun _ => ?_
  exact htoken.bind fun _ _ => hopening.bind fun _ _ => hlabel.bind fun _ _ => trivial

/-! ## The second phase -/

/-- What an encryption ends with when its proof has come to a result: a ciphertext is reported. -/
def conclude (token : Bytes) (between : Trace) :
    Except Fault Ciphertext → Except Fault Ciphertext × Trace
  | .ok ct => (.ok ct, { between with events := between.events ++ [.encrypted token] })
  | .error fault => (.error fault, between)

/-- What the second phase comes to once the source has given its bundle. -/
theorem outcome_proceed {domain : Slot Domain} {key : Slot RawPublicKey} {a : Checked}
    {source : Slot Source} {s : Source} {b : Bundle} {draws : Draws} {trace between : Trace}
    (hs : sourceOf source = .ok s) (hb : Run.outcome s.bundle draws trace = (.ok b, between)) :
    Run.outcome (proceed domain key a source) draws trace
      = conclude a.token between (a.prove domain key b) := by
  unfold proceed
  rw [Run.outcome_bind, Run.outcome_liftM, hs]
  dsimp only
  rw [Run.outcome_bind, hb]
  dsimp only
  rw [Run.outcome_bind, Run.outcome_liftM]
  cases a.prove domain key b <;> rfl

end Escrow

/-! ## A proof refuses nothing -/

/-- A refusal is a fault of the arguments or of the artifacts, which callers are told apart from
everything else that goes wrong. -/
def Fault.IsRefusal : Fault → Prop
  | .argument _ | .artifact _ => True
  | _ => False

/-- What fails by no refusal, if it fails. -/
abbrev Unrefusing {α : Type} (x : Except Fault α) : Prop :=
  Except.Meets x (fun _ => True) fun fault => ¬fault.IsRefusal

theorem Slot.get_unrefusing {α : Type} (slot : Slot α) : Unrefusing slot.get := by
  cases slot with
  | given a => exact trivial
  | _ => exact id

namespace Element

theorem uncompress_unrefusing (v : Value) : Unrefusing (uncompress v) := by
  cases v with
  | text t =>
    show Unrefusing (Point.uncompress t)
    unfold Point.uncompress
    split_ifs
    · exact id
    · split
      next => exact id
      next bs _ =>
        cases Point.ofCode (BigEndian.toNat bs) with
        | ok P => exact trivial
        | error why => exact id
  | _ => exact id

theorem term_unrefusing (v : Value) (x : Scalar) : Unrefusing (term (v, .int x.toInt)) :=
  (uncompress_unrefusing v).bind fun P _ => by
    rw [exponent_toInt]
    exact trivial

theorem power_unrefusing (t : Text) (x : Scalar) : Unrefusing (power t x) :=
  (uncompress_unrefusing (.text t)).bind fun P _ => by
    rw [exponent_toInt]
    exact trivial

theorem product_unrefusing (pairs : List (Value × Scalar)) : Unrefusing (product pairs) := by
  rw [product_eq_mapM]
  exact (Except.Meets.mapM fun pair _ => term_unrefusing pair.1 pair.2).bind fun _ _ => trivial

end Element

namespace Transcript

theorem spacedBytes_unrefusing (v : Value) : Unrefusing (spacedBytes v) := by
  unfold spacedBytes
  split
  next => split <;> simp [Except.Meets, Fault.IsRefusal]
  next => exact id

theorem framed_unrefusing (v : Value) : Unrefusing (framed v) := by
  have hitem : Unrefusing (item v) := by
    unfold item
    split <;> simp [Except.Meets, Fault.IsRefusal]
  refine hitem.bind fun bs _ => ?_
  unfold frame
  split_ifs <;> simp [Except.Meets, Fault.IsRefusal]

theorem hashFunction_unrefusing (name : Value) : Unrefusing (hashFunction name) := by
  cases name with
  | text t =>
    unfold hashFunction
    dsimp only
    split <;> simp [Except.Meets, Fault.IsRefusal]
  | _ => exact id

end Transcript

namespace Escrow

open Element Transcript

theorem challengeDigest_unrefusing (i : Issuer) (tokenId : Value) (elements : List Value)
    (label : Value) :
    Unrefusing (challengeDigest (Context.ofIssuer i) tokenId elements label) := by
  have htranscript : Unrefusing (challengeTranscript i.uid tokenId elements label) :=
    (Except.Meets.mapM fun v _ => spacedBytes_unrefusing v).bind fun _ _ =>
      (Except.Meets.mapM fun v _ => framed_unrefusing v).bind fun _ _ => trivial
  exact htranscript.bind fun _ _ => (hashFunction_unrefusing i.hashName).bind fun _ _ => trivial

theorem scalarOfDigest_unrefusing (digest : Bytes) : Unrefusing (scalarOfDigest digest) := by
  unfold scalarOfDigest scalarOfNumeral
  split <;> simp [Except.Meets, Fault.IsRefusal]

/-- **Checked arguments are not refused afterwards**, whatever the domain and the key are. -/
theorem Checked.prove_unrefusing (a : Checked) (domain : Slot Domain) (key : Slot RawPublicKey)
    (b : Bundle) : Unrefusing (a.prove domain key b) := by
  refine domain.get_unrefusing.bind fun d _ => ?_
  unfold Escrow.prove
  -- nothing depends on what the bases are
  generalize d.ge = ge
  generalize d.g = g
  refine (power_unrefusing ge b.r).bind fun e1 _ => key.get_unrefusing.bind fun k _ => ?_
  refine (product_unrefusing _).bind fun e2 _ => (product_unrefusing _).bind fun cxbPrime _ => ?_
  refine (power_unrefusing ge b.rPrime).bind fun e1Prime _ => ?_
  refine (product_unrefusing _).bind fun e2Prime _ => ?_
  refine (challengeDigest_unrefusing _ _ _ _).bind fun digest _ => ?_
  exact (scalarOfDigest_unrefusing digest).bind fun _ _ => trivial

end Escrow

/-! ## Presentations -/

namespace Presentation

/-- What a presentation gives an encryption. -/
structure Prepared where
  identifier : Bytes
  commitment : Value
  x : Scalar
  opening : Value

/-- What an encryption of a presentation does before the engine takes over. -/
def prepare (domain : Slot Domain) (key : Slot RawPublicKey) (token : Slot Token)
    (presentation : Slot Presentation) (openings : Slot Openings) (index attributes : Value) :
    Except Fault Prepared := do
  if domain.isMissing || key.isMissing || token.isMissing || presentation.isMissing
      || openings.isMissing then
    throw (.argument (.missing .presentationEncryption))
  let p ← presentation.get
  if p.commitments.isEmpty then throw (.artifact .presentationEncryption)
  let o ← openings.get
  if o.values.isEmpty || attributes.isNull then throw (.artifact .presentationEncryption)
  if !(← indexFits index attributes) then throw (.artifact .presentationEncryption)
  let issuer := Slot.given (← domain.get).issuer
  let identifier ← Token.identifier issuer token
  let cxb ← p.firstCommitment
  let x ← Attribute.scalar issuer (← attributeAt index attributes)
  let opening ← itemAt o.values (.int 0)
  return ⟨identifier, cxb, x, opening⟩

/-- An encryption of a presentation prepares the arguments and hands them to the engine. -/
theorem encrypt_eq (domain : Slot Domain) (key : Slot RawPublicKey) (token : Slot Token)
    (label : Value) (presentation : Slot Presentation) (openings : Slot Openings)
    (index attributes : Value) (source : Slot Source) :
    encrypt domain key token label presentation openings index attributes source
      = liftM (prepare domain key token presentation openings index attributes) >>= fun p =>
          Escrow.encrypt domain key (.bytes p.identifier) p.commitment (.int p.x.toInt) p.opening
            label source := by
  unfold encrypt prepare
  simp only [Run.liftM_guard, Run.liftM_bind, Run.liftM_pure]

end Presentation
end VerifiableEscrow
