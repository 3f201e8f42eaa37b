import VerifiableEscrow.Proofs.Drawing
import VerifiableEscrow.Proofs.EncryptionChecks
import VerifiableEscrow.Proofs.SingleUse
import VerifiableEscrow.Storage

/-!
# No number is used twice

Operations of all kinds take turns on one stream of numbers: keys, issuers and bundles are drawn,
encryptions draw their bundles or are given one, and in between ciphertexts are verified,
decrypted, sent and opened, and written to files and read from them.  Some operations fail, and
they fail at different points.

What a step takes of the stream are the positions between its two traces.  One step is followed by
cases on the operation (`spends_step`): it takes the numbers that it should, these are the only
ones that its outcome depends on, and a refusal takes none.  The last is where the order of the
checks matters: an encryption that has drawn cannot be refused any more
(`Checked.prove_unrefusing`).  Since positions only move forward, the steps of a run take disjoint
parts of the stream (`pairwise_history`).

* `Task`, `history`: the operations, and the run of a list of them;
* `Step.Spends`: what a step does with the stream;
* `neverReuses`: **no position of the stream is used for two things**.
-/

namespace VerifiableEscrow

open Escrow

/-! ## Encryptions -/

/-- The two operations that encrypt, with all that they are given but the source. -/
inductive Encryption where
  | engine (domain : Slot Domain) (key : Slot RawPublicKey) (token cxb xb ob label : Value)
  | presentation (domain : Slot Domain) (key : Slot RawPublicKey) (token : Slot Token)
      (label : Value) (presentation : Slot Presentation) (openings : Slot Openings)
      (index attributes : Value)

namespace Encryption

/-- Encrypts with a bundle of the source. -/
def run : Encryption → Slot Source → Run Ciphertext
  | engine domain key token cxb xb ob label, source =>
      Escrow.encrypt domain key token cxb xb ob label source
  | presentation domain key token label p openings index attributes, source =>
      Presentation.encrypt domain key token label p openings index attributes source

/-- The domain of an encryption. -/
def domain : Encryption → Slot Domain
  | engine domain _ _ _ _ _ _ => domain
  | presentation domain _ _ _ _ _ _ _ => domain

/-- The key of an encryption. -/
def key : Encryption → Slot RawPublicKey
  | engine _ key _ _ _ _ _ => key
  | presentation _ key _ _ _ _ _ _ => key

/-- All that an encryption checks before it draws. -/
def check : Encryption → Except Fault Checked
  | engine domain key token cxb xb ob label =>
      checkArguments domain key token cxb xb ob label
  | presentation domain key token label p openings index attributes => do
      let a ← Presentation.prepare domain key token p openings index attributes
      checkArguments domain key (.bytes a.identifier) a.commitment (.int a.x.toInt) a.opening label

/-- Both check first and draw afterwards. -/
theorem run_eq (e : Encryption) (source : Slot Source) :
    e.run source = liftM e.check >>= fun a => proceed e.domain e.key a source := by
  cases e with
  | engine domain key token cxb xb ob label =>
    exact encrypt_eq domain key token cxb xb ob label source
  | presentation domain key token label p openings index attributes =>
    rw [run, Presentation.encrypt_eq, check, Run.liftM_bind]
    simp only [encrypt_eq]
    rfl

variable {e : Encryption} {source : Slot Source} {draws : Draws} {trace after : Trace}

theorem outcome_run_of_error {fault : Fault} (h : e.check = .error fault) :
    Run.outcome (e.run source) draws trace = (.error fault, trace) := by
  rw [run_eq, Run.outcome_bind, Run.outcome_liftM, h]

theorem outcome_run {a : Checked} {s : Source} {b : Bundle} {between : Trace}
    (ha : e.check = .ok a) (hs : sourceOf source = .ok s)
    (hb : Run.outcome s.bundle draws trace = (.ok b, between)) :
    Run.outcome (e.run source) draws trace
      = conclude a.token between (a.prove e.domain e.key b) := by
  rw [run_eq, Run.liftM_of_ok ha]
  exact outcome_proceed hs hb

/-- From a fixed source nothing is drawn. -/
theorem still_run (e : Encryption) (h : sourceOf source ≠ .ok .system) :
    Run.Still (e.run source) := by
  rw [run_eq]
  refine (Run.Still.of_liftM _).bind fun a => ?_
  unfold proceed
  cases hs : sourceOf source with
  | error fault => exact .of_outcome (fun _ _ _ => rfl) fun _ _ => rfl
  | ok s =>
    cases s with
    | system => exact absurd hs h
    | fixed b =>
      rw [Run.liftM_of_ok rfl]
      refine (Run.Still.of_pure b).bind fun _ => (Run.Still.of_liftM _).bind fun ct => ?_
      exact (Run.Still.of_report _).bind fun _ => .of_pure ct

end Encryption

/-! ## Operations -/

/-- An operation of the scheme with all that it is given. -/
inductive Task where
  | generateKey (domain : Slot Domain)
  | generateIssuer (uid hashName : Value)
  | drawBundle (source : Source)
  | encrypt (e : Encryption) (source : Slot Source)
  | verify (domain : Slot Domain) (ciphertext : Slot Ciphertext) (token : Value)
      (key : Slot RawPublicKey) (cxb : Value)
  | verifyPresentation (domain : Slot Domain) (ciphertext : Slot Ciphertext)
      (presentation : Slot Presentation) (token : Slot Token) (key : Slot RawPublicKey)
  | decrypt (domain : Slot Domain) (ciphertext : Slot Ciphertext) (key : Slot RawPrivateKey)
  | toWire (v : Value)
  | toJson (v : Value)
  | toCbor (v : Value)
  | pack (target : Wire.Target) (v : Value)
  | packJson (target : Wire.Target) (v : Value)
  | packCbor (target : Wire.Target) (v : Value)
  | openParcel (p : Wire.Parcel) (c : Wire.Call)
  | readAndOpen (issuer : Value) (target : Wire.Target) (v : Value)
  | save (s : Storage) (path : Text) (v : Value)
  | load (s : Storage) (path : Text) (target : Wire.Target)

/-- What an operation answers. -/
inductive Answer where
  | key (k : PrivateKey)
  | issuer (i : Issuer)
  | bundle (b : Bundle)
  | ciphertext (ct : Ciphertext)
  | verdict (accepted : Bool)
  | text (t : Text)
  | bytes (bs : Bytes)
  | value (v : Value)
  | parcel (p : Wire.Parcel)
  /-- The tree with the file that was written. -/
  | written (left : Storage)

namespace Task

/-- What an operation does. -/
def run : Task → Run Answer
  | generateKey domain => .key <$> PrivateKey.generate domain
  | generateIssuer uid hashName => .issuer <$> Issuer.generate uid hashName
  | drawBundle source => .bundle <$> source.bundle
  | encrypt e source => .ciphertext <$> e.run source
  | verify domain ct token key cxb => .verdict <$> Escrow.verify domain ct token key cxb
  | verifyPresentation domain ct p token key =>
      .verdict <$> Presentation.verify domain ct p token key
  | decrypt domain ct key => .text <$> (liftM (Escrow.decrypt domain ct key) : Run Text)
  | toWire v => .value <$> (liftM (Wire.ofValue v) : Run Value)
  | toJson v => .text <$> (liftM (Wire.toJson v) : Run Text)
  | toCbor v => .bytes <$> (liftM (Wire.toCbor v) : Run Bytes)
  | pack target v => .parcel <$> (liftM (Wire.pack target v) : Run Wire.Parcel)
  | packJson target v => .parcel <$> (liftM (Wire.packJson target v) : Run Wire.Parcel)
  | packCbor target v => .parcel <$> (liftM (Wire.packCbor target v) : Run Wire.Parcel)
  | openParcel p c => .value <$> (p.call c).run
  | readAndOpen issuer target v => .value <$> Wire.readAndOpen issuer target v
  | save s path v =>
      (fun _ => .written (s.save path v).2) <$> (liftM (s.save path v).1 : Run Text)
  | load s path target => .parcel <$> (liftM (s.load path target) : Run Wire.Parcel)

/-- Operations that have no business with the stream: all but those that draw, and these too where
a fixed source stands in for it or there is nothing to draw for. -/
def IsStill : Task → Prop
  | generateKey domain => domain.isMissing = true
  | generateIssuer _ _ | drawBundle .system => False
  | encrypt _ source => sourceOf source ≠ .ok .system
  | _ => True

end Task

/-! ### Operations that take no numbers -/

theorem Escrow.still_verify (domain : Slot Domain) (ciphertext : Slot Ciphertext) (token : Value)
    (key : Slot RawPublicKey) (cxb : Value) :
    Run.Still (verify domain ciphertext token key cxb) := by
  have hreject : ∀ why, Run.Still (reject why) := fun why =>
    (Run.Still.of_report _).bind fun _ => .of_pure false
  unfold verify
  refine Run.Still.guard ?_
  refine (Run.Still.of_liftM _).bind fun bs => (Run.Still.of_liftM _).bind fun ct => ?_
  refine (Run.Still.of_liftM _).bind fun k => ?_
  dsimp only
  split_ifs
  · exact hreject .groupElement
  · refine (Run.Still.of_liftM _).bind fun proof => ?_
    split_ifs
    · exact hreject .fieldElement
    · refine (Run.Still.of_liftM _).bind fun d => (Run.Still.of_liftM _).bind fun c => ?_
      split_ifs
      · exact hreject .challenge
      · exact .of_pure true

theorem Presentation.still_verify (domain : Slot Domain) (ciphertext : Slot Ciphertext)
    (presentation : Slot Presentation) (token : Slot Token) (key : Slot RawPublicKey) :
    Run.Still (verify domain ciphertext presentation token key) := by
  unfold verify
  refine Run.Still.guard ((Run.Still.of_liftM _).bind fun p => ?_)
  refine Run.Still.guard ((Run.Still.of_liftM _).bind fun cxb => ?_)
  refine (Run.Still.of_liftM _).bind fun d => (Run.Still.of_liftM _).bind fun identifier => ?_
  exact Escrow.still_verify domain ciphertext (.bytes identifier) key cxb

theorem Wire.Attempt.still_run {σ α : Type} (attempt : Wire.Attempt σ α) :
    Run.Still attempt.run := by
  have hreports : ∀ events : List Event, Run.Still (events.forM Run.report) := by
    intro events
    induction events with
    | nil => exact .of_pure ()
    | cons event events ih => exact (Run.Still.of_report event).bind fun _ => ih
  exact (hreports attempt.events).bind fun _ => .of_liftM attempt.outcome

theorem Wire.still_readAndOpen (issuer : Value) (target : Wire.Target) (v : Value) :
    Run.Still (readAndOpen issuer target v) :=
  (Run.Still.of_liftM _).bind fun p => Wire.Attempt.still_run (p.openWith issuer)

theorem Task.still_run {t : Task} (h : t.IsStill) : Run.Still t.run := by
  cases t with
  | generateKey domain =>
    have hmissing : domain.isMissing = true := h
    refine Run.Still.map ?_ _
    unfold PrivateKey.generate
    rw [if_pos hmissing]
    exact .of_throw_bind _ _
  | generateIssuer uid hashName => exact h.elim
  | drawBundle source =>
    cases source with
    | system => exact h.elim
    | fixed b => exact (Run.Still.of_pure b).map _
  | encrypt e source => exact (e.still_run h).map _
  | verify domain ct token key cxb => exact (Escrow.still_verify domain ct token key cxb).map _
  | verifyPresentation domain ct p token key =>
    exact (Presentation.still_verify domain ct p token key).map _
  | openParcel p c => exact (Wire.Attempt.still_run (p.call c)).map _
  | readAndOpen issuer target v => exact (Wire.still_readAndOpen issuer target v).map _
  | _ => exact (Run.Still.of_liftM _).map _

/-! ### Operations that take numbers -/

theorem Run.outcome_map {α β : Type} (f : α → β) (operation : Run α) (draws : Draws)
    (trace : Trace) :
    outcome (f <$> operation) draws trace
      = ((outcome operation draws trace).1.map f, (outcome operation draws trace).2) := by
  rw [map_eq_pure_bind, outcome_bind]
  rcases outcome operation draws trace with ⟨_ | a, after⟩ <;> rfl

theorem Source.tidy_bundle (s : Source) : Run.Tidy s.bundle := by
  cases s with
  | fixed b => exact (Run.Still.of_pure b).toTidy
  | system =>
    refine Run.Tidy.of_draw.bind fun r => Run.Tidy.of_draw.bind fun xbPrime => ?_
    refine Run.Tidy.of_draw.bind fun rPrime => Run.Tidy.of_draw.bind fun obPrime => ?_
    exact (Run.Still.of_liftM _).toTidy

theorem Encryption.tidy_run (e : Encryption) (source : Slot Source) : Run.Tidy (e.run source) := by
  rw [run_eq]
  refine (Run.Still.of_liftM _).toTidy.bind fun a => (Run.Still.of_liftM _).toTidy.bind fun s => ?_
  refine s.tidy_bundle.bind fun b => (Run.Still.of_liftM _).toTidy.bind fun ct => ?_
  exact ((Run.Still.of_report _).bind fun _ => .of_pure ct).toTidy

/-- No operation goes back or looks at numbers that it does not take. -/
theorem Task.tidy_run (t : Task) : Run.Tidy t.run := by
  by_cases hstill : t.IsStill
  · exact (still_run hstill).toTidy
  · cases t with
    | generateKey domain =>
      refine Run.Tidy.map ?_ _
      unfold PrivateKey.generate
      refine Run.Tidy.guard (Run.Tidy.of_draw.bind fun x => ?_)
      exact (Run.Still.of_liftM _).toTidy
    | generateIssuer uid hashName =>
      refine Run.Tidy.map (Run.Tidy.of_draw.bind fun x => ?_) _
      exact ((Run.Still.of_liftM _).bind fun g1 => .of_pure _).toTidy
    | drawBundle source => exact source.tidy_bundle.map _
    | encrypt e source => exact (e.tidy_run source).map _
    | _ => exact absurd trivial hstill

/-! ## Refusals -/

theorem Escrow.snd_conclude (token : Bytes) (between : Trace) (result : Except Fault Ciphertext) :
    (conclude token between result).2.drawn = between.drawn := by
  cases result <;> rfl

theorem Escrow.fst_conclude (token : Bytes) (between : Trace) (result : Except Fault Ciphertext) :
    (conclude token between result).1 = result := by
  cases result <;> rfl

/-- What an encryption with numbers of the stream comes to: a fault of its checks, for which
nothing is drawn, or what the next four numbers give. -/
theorem Encryption.outcome_run_system {e : Encryption} {source : Slot Source} {draws : Draws}
    (h : draws.InRange) (hs : sourceOf source = .ok .system) (trace : Trace) :
    (∃ fault, e.check = .error fault
        ∧ Run.outcome (e.run source) draws trace = (.error fault, trace))
      ∨ ∃ a, e.check = .ok a ∧ Run.outcome (e.run source) draws trace
          = conclude a.token { trace with drawn := trace.drawn + 4 }
              (a.prove e.domain e.key (draws.bundle trace.drawn)) := by
  cases hcheck : e.check with
  | error fault => exact .inl ⟨fault, rfl, outcome_run_of_error hcheck⟩
  | ok a => exact .inr ⟨a, rfl, outcome_run hcheck hs (Bundle.outcome_generate h trace)⟩

/-- A refused encryption has drawn nothing. -/
theorem Encryption.drawn_of_refused {e : Encryption} {source : Slot Source} {draws : Draws}
    {trace : Trace} {fault : Fault} (h : draws.InRange) (hs : sourceOf source = .ok .system)
    (hfault : (Run.outcome (e.run source) draws trace).1 = .error fault)
    (hrefusal : fault.IsRefusal) :
    (Run.outcome (e.run source) draws trace).2.drawn = trace.drawn := by
  rcases outcome_run_system h hs trace with ⟨why, -, houtcome⟩ | ⟨a, -, houtcome⟩
  · rw [houtcome]
  · -- a proof that fails is no refusal
    rw [houtcome, fst_conclude] at hfault
    exact absurd hrefusal ((a.prove_unrefusing e.domain e.key _).of_error hfault)

/-- A ciphertext is made of the next four numbers: it is the one that they give as a fixed
bundle. -/
theorem Encryption.outcome_run_of_ok {e : Encryption} {source : Slot Source} {draws : Draws}
    {trace : Trace} {ct : Ciphertext} (h : draws.InRange) (hs : sourceOf source = .ok .system)
    (hct : (Run.outcome (e.run source) draws trace).1 = .ok ct) :
    (Run.outcome (e.run source) draws trace).2.drawn = trace.drawn + 4
      ∧ (Run.outcome (e.run (.given (.fixed (draws.bundle trace.drawn)))) draws trace).1
        = .ok ct := by
  rcases outcome_run_system h hs trace with ⟨why, -, houtcome⟩ | ⟨a, hcheck, houtcome⟩
  · rw [houtcome] at hct
    cases hct
  · have hfixed : Run.outcome (e.run (.given (.fixed (draws.bundle trace.drawn)))) draws trace
        = conclude a.token trace (a.prove e.domain e.key (draws.bundle trace.drawn)) :=
      outcome_run hcheck rfl rfl
    rw [houtcome, fst_conclude] at hct
    rw [houtcome, hfixed, snd_conclude, fst_conclude]
    exact ⟨rfl, hct⟩

/-! ## Steps -/

/-- An operation that has been run. -/
structure Step where
  task : Task
  before : Trace
  outcome : Except Fault Answer
  after : Trace

/-- Runs an operation. -/
def Task.step (t : Task) (draws : Draws) (before : Trace) : Step :=
  ⟨t, before, (Run.outcome t.run draws before).1, (Run.outcome t.run draws before).2⟩

/-- Runs operations one after another. -/
def history (draws : Draws) : Trace → List Task → List Step
  | _, [] => []
  | before, t :: tasks =>
      t.step draws before :: history draws (t.step draws before).after tasks

namespace Step

/-- The positions of the stream that a step takes. -/
def positions (s : Step) : List ℕ :=
  List.range' s.before.drawn (s.after.drawn - s.before.drawn)

/-- What a step does with the stream. -/
structure Spends (draws : Draws) (s : Step) : Prop where
  /-- The stream is not wound back. -/
  forward : s.before.drawn ≤ s.after.drawn
  /-- The outcome depends on the numbers that the step takes and on no others. -/
  only : ∀ draws' : Draws, (∀ n ∈ s.positions, draws' n = draws n) →
    Run.outcome s.task.run draws' s.before = (s.outcome, s.after)
  /-- The numbers taken are exponents other than zero. -/
  inRange : ∀ n ∈ s.positions, (draws.exponent n).toInt = (draws n + 1 : ℕ)
    ∧ 1 ≤ (draws.exponent n).toInt ∧ (draws.exponent n).toInt ≤ groupOrder - 1
  /-- A refusal takes no numbers, whatever the operation is. -/
  refused : ∀ fault, s.outcome = .error fault → fault.IsRefusal → s.positions = []
  /-- Neither does an operation with a fixed source, or one that does not draw. -/
  still : s.task.IsStill → s.positions = []
  /-- A ciphertext takes the next four numbers for its bundle, in their order: a fixed source with
  this bundle gives the same ciphertext. -/
  encrypted : ∀ e source ct, s.task = .encrypt e source → sourceOf source = .ok .system →
    s.outcome = .ok (.ciphertext ct) → s.positions = List.range' s.before.drawn 4
      ∧ (Run.outcome (e.run (.given (.fixed (draws.bundle s.before.drawn)))) draws s.before).1
        = .ok ct
  /-- So does a bundle on its own, -/
  bundle : s.task = .drawBundle .system → s.positions = List.range' s.before.drawn 4
    ∧ s.outcome = .ok (.bundle (draws.bundle s.before.drawn))
  /-- a key takes the next number, -/
  key : ∀ domain, s.task = .generateKey domain → domain.isMissing = false →
    s.positions = [s.before.drawn] ∧ s.outcome = .ok (.key ⟨draws.exponent s.before.drawn⟩)
  /-- and so does the second base of an issuer. -/
  issuer : ∀ uid hashName, s.task = .generateIssuer uid hashName →
    s.positions = [s.before.drawn]
      ∧ ∃ g1, Element.ofScalar (.int (draws.exponent s.before.drawn).toInt) = .ok g1
        ∧ s.outcome = .ok (.issuer
            ⟨uid, .text g1, hashName, .text Element.generator, .text Issuer.group⟩)

theorem mem_positions {s : Step} (h : s.before.drawn ≤ s.after.drawn) {n : ℕ} :
    n ∈ s.positions ↔ s.before.drawn ≤ n ∧ n < s.after.drawn := by
  rw [positions, List.mem_range'_1, Nat.add_sub_cancel' h]

theorem positions_eq_nil {s : Step} (h : s.after.drawn = s.before.drawn) : s.positions = [] := by
  rw [positions, h, Nat.sub_self, List.range'_zero]

theorem positions_eq_singleton {s : Step} (h : s.after.drawn = s.before.drawn + 1) :
    s.positions = [s.before.drawn] := by
  rw [positions, h, Nat.add_sub_cancel_left, List.range'_one]

theorem positions_of_drawn {s : Step} {count : ℕ} (h : s.after.drawn = s.before.drawn + count) :
    s.positions = List.range' s.before.drawn count := by
  rw [positions, h, Nat.add_sub_cancel_left]

end Step

theorem Task.step_eq {t : Task} {draws : Draws} {before after : Trace}
    {result : Except Fault Answer} (h : Run.outcome t.run draws before = (result, after)) :
    t.step draws before = ⟨t, before, result, after⟩ := by
  rw [step, h]

theorem Task.forward_step (t : Task) (draws : Draws) (before : Trace) :
    before.drawn ≤ (t.step draws before).after.drawn :=
  t.tidy_run.forward draws before

/-- A refused operation has drawn nothing. -/
theorem Task.drawn_of_refused {t : Task} {draws : Draws} {before : Trace} {fault : Fault}
    (h : draws.InRange) (hfault : (Run.outcome t.run draws before).1 = .error fault)
    (hrefusal : fault.IsRefusal) : (Run.outcome t.run draws before).2.drawn = before.drawn := by
  by_cases hstill : t.IsStill
  · exact (still_run hstill).stays draws before
  · cases t with
    | generateKey domain =>
      have hdomain : domain.isMissing = false := Bool.eq_false_of_not_eq_true hstill
      rw [run, Run.outcome_map, PrivateKey.outcome_generate h hdomain] at hfault
      cases hfault
    | generateIssuer uid hashName =>
      obtain ⟨g1, -, houtcome⟩ := Issuer.exists_outcome_generate h uid hashName before
      rw [run, Run.outcome_map, houtcome] at hfault
      cases hfault
    | drawBundle source =>
      cases source with
      | system =>
        rw [run, Run.outcome_map, Source.bundle, Bundle.outcome_generate h] at hfault
        cases hfault
      | fixed b => exact absurd trivial hstill
    | encrypt e source =>
      rw [run, Run.outcome_map] at hfault ⊢
      exact Encryption.drawn_of_refused h (not_not.mp hstill) (Except.map_eq_error.mp hfault)
        hrefusal
    | _ => exact absurd trivial hstill

/-- What any operation does with the stream. -/
theorem spends_step {draws : Draws} (h : draws.InRange) (t : Task) (before : Trace) :
    (t.step draws before).Spends draws where
  forward := t.forward_step draws before
  only draws' hagree := by
    refine t.tidy_run.only draws draws' before fun n hlow hhigh => hagree n ?_
    exact (Step.mem_positions (t.forward_step draws before)).mpr ⟨hlow, hhigh⟩
  inRange n _ := ⟨h.toInt_exponent n, h.exponent_bounds n⟩
  refused fault hfault hrefusal :=
    Step.positions_eq_nil (Task.drawn_of_refused h hfault hrefusal)
  still hstill := Step.positions_eq_nil ((Task.still_run hstill).stays draws before)
  encrypted e source ct ht hs hct := by
    obtain rfl : t = .encrypt e source := ht
    rw [Task.step, Task.run, Run.outcome_map] at hct
    obtain ⟨found, hresult, hfound⟩ := Except.map_eq_ok.mp hct
    obtain rfl : found = ct := Answer.ciphertext.inj hfound
    obtain ⟨hdrawn, hfixed⟩ := Encryption.outcome_run_of_ok h hs hresult
    refine ⟨Step.positions_of_drawn ?_, hfixed⟩
    rw [Task.step, Task.run, Run.outcome_map]
    exact hdrawn
  bundle ht := by
    obtain rfl : t = .drawBundle .system := ht
    have houtcome : Run.outcome (Task.drawBundle .system).run draws before
        = (.ok (.bundle (draws.bundle before.drawn)),
          { before with drawn := before.drawn + 4 }) := by
      rw [Task.run, Run.outcome_map, Source.bundle, Bundle.outcome_generate h]
      rfl
    rw [Task.step_eq houtcome]
    exact ⟨Step.positions_of_drawn rfl, rfl⟩
  key domain ht hdomain := by
    obtain rfl : t = .generateKey domain := ht
    have houtcome : Run.outcome (Task.generateKey domain).run draws before
        = (.ok (.key ⟨draws.exponent before.drawn⟩),
          { before with drawn := before.drawn + 1 }) := by
      rw [Task.run, Run.outcome_map, PrivateKey.outcome_generate h hdomain]
      rfl
    rw [Task.step_eq houtcome]
    exact ⟨Step.positions_eq_singleton rfl, rfl⟩
  issuer uid hashName ht := by
    obtain rfl : t = .generateIssuer uid hashName := ht
    obtain ⟨g1, hg1, hgenerate⟩ := Issuer.exists_outcome_generate h uid hashName before
    have houtcome : Run.outcome (Task.generateIssuer uid hashName).run draws before
        = (.ok (.issuer ⟨uid, .text g1, hashName, .text Element.generator, .text Issuer.group⟩),
          { before with drawn := before.drawn + 1 }) := by
      rw [Task.run, Run.outcome_map, hgenerate]
      rfl
    rw [Task.step_eq houtcome]
    exact ⟨Step.positions_eq_singleton rfl, g1, hg1, rfl⟩

/-! ## Runs -/

/-- The steps of a run start no earlier than the run. -/
theorem le_before_of_mem_history {draws : Draws} {start : Trace} {tasks : List Task} {s : Step}
    (hs : s ∈ history draws start tasks) : start.drawn ≤ s.before.drawn := by
  induction tasks generalizing start with
  | nil => exact absurd hs List.not_mem_nil
  | cons t tasks ih =>
    rcases List.mem_cons.mp hs with rfl | hrest
    · exact le_rfl
    · exact (t.forward_step draws start).trans (ih hrest)

theorem exists_step_of_mem_history {draws : Draws} {start : Trace} {tasks : List Task} {s : Step}
    (hs : s ∈ history draws start tasks) : ∃ t before, s = Task.step t draws before := by
  induction tasks generalizing start with
  | nil => exact absurd hs List.not_mem_nil
  | cons t tasks ih =>
    rcases List.mem_cons.mp hs with rfl | hrest
    · exact ⟨t, start, rfl⟩
    · exact ih hrest

/-- The steps of a run take disjoint parts of the stream, since each starts behind those before
it. -/
theorem pairwise_history (draws : Draws) (start : Trace) (tasks : List Task) :
    (history draws start tasks).Pairwise fun s s' => s.positions.Disjoint s'.positions := by
  induction tasks generalizing start with
  | nil => exact .nil
  | cons t tasks ih =>
    refine List.pairwise_cons.mpr ⟨fun s hs n hn hn' => ?_, ih _⟩
    obtain ⟨t', before, rfl⟩ := exists_step_of_mem_history hs
    have hbehind := le_before_of_mem_history hs
    have hlow := (Step.mem_positions (t.forward_step draws start)).mp hn
    have hhigh := (Step.mem_positions (t'.forward_step draws before)).mp hn'
    omega

/-- What a run does with the stream. -/
structure NeverReuses (draws : Draws) (steps : List Step) : Prop where
  /-- Each step takes what it should, and refusals and fixed sources take nothing. -/
  spends : ∀ s ∈ steps, s.Spends draws
  /-- No position is taken by two steps, so none gets into two bundles or into a bundle and a
  key. -/
  disjoint : steps.Pairwise fun s s' => s.positions.Disjoint s'.positions

/-- **No position of the stream is used for two things**, over any operations in any order,
whichever of them fail. -/
theorem neverReuses {draws : Draws} (h : draws.InRange) (start : Trace) (tasks : List Task) :
    NeverReuses draws (history draws start tasks) where
  spends s hs := by
    obtain ⟨t, before, rfl⟩ := exists_step_of_mem_history hs
    exact spends_step h t before
  disjoint := pairwise_history draws start tasks

/-- A key, an encryption that is refused and one that is not, a file that is written and one that
is not there, and two bundles of which one is fixed. -/
def sampleTasks : List Task :=
  [.generateKey .foreign,
    .encrypt (.engine .missing .missing .null .null .null .null .null) .missing,
    .encrypt (.engine (.given (Domain.ofGenerator .sha256)) (.given ⟨.text Element.generator⟩)
      (.bytes [1]) (.text Element.generator) (.int 1) (.int 1) .null) .missing,
    .save Storage.empty (Text.of "a.json") (PrivateKey.toValue ⟨1⟩),
    .drawBundle .system,
    .load Storage.empty (Text.of "a.json") none,
    .drawBundle (.fixed ⟨0, 0, 0, 0⟩)]

/-- The sample on a stream of zeros: which steps succeed, and what they take. -/
theorem neverReuses_sample :
    NeverReuses (fun _ => 0) (history (fun _ => 0) Trace.start sampleTasks)
      ∧ (history (fun _ => 0) Trace.start sampleTasks).map (fun s => s.outcome.isOk)
        = [true, false, true, true, true, false, true]
      ∧ (history (fun _ => 0) Trace.start sampleTasks).map Step.positions
        = [[0], [], [1, 2, 3, 4], [], [5, 6, 7, 8], [], []] := by
  -- the run is evaluated once, for both
  have hsteps : (history (fun _ => 0) Trace.start sampleTasks).map
      (fun s => (s.outcome.isOk, s.positions))
      = [(true, [0]), (false, []), (true, [1, 2, 3, 4]), (true, []), (true, [5, 6, 7, 8]),
        (false, []), (true, [])] := by decide +kernel
  have hoks := congrArg (List.map Prod.fst) hsteps
  have hpositions := congrArg (List.map Prod.snd) hsteps
  rw [List.map_map] at hoks hpositions
  exact ⟨neverReuses Draws.inRange_zero Trace.start sampleTasks, hoks, hpositions⟩

end VerifiableEscrow
