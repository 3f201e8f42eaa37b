import VerifiableEscrow.Proofs.Drawing
import VerifiableEscrow.Proofs.EncryptionContract
import VerifiableEscrow.Proofs.TamperEvidence
import VerifiableEscrow.Value.Equality

/-!
# A ciphertext determines what it is made of

A ciphertext is made of an attribute and of the four exponents of a bundle, and of a challenge that
a hash function makes of all of them.  Nothing is known of the hash function.  Nevertheless two
different choices of attribute and bundle never lead to one ciphertext.

The challenge is part of the ciphertext.  Where two challenges differ, the ciphertexts do.  Where
they are equal, everything can be read off one after another: the randomness from the first
element, because the generator is not the identity and the group order is prime; then the attribute
from the second element; then the nonces from the responses.

* `Request`, `Request.Makes`: an encryption, apart from the attribute and the randomness, and what
  it gives;
* `ciphertextOf`: the ciphertext of an attribute, a bundle and a challenge, and
  `Request.Makes.exists_eq_ciphertextOf`, that encryptions give nothing else;
* `ciphertextOf_injective`: the reading, for any two challenges, and `Request.challengeFree`, what
  it says about the ciphertexts of a request;
* `distinguishes`: **different attributes or bundles give different ciphertexts**.
-/

namespace VerifiableEscrow
namespace Escrow

open Element Transcript
open scoped PrimeField Member

/-! ## Requests -/

/-- What an encryption is asked for, apart from the attribute and the randomness. -/
structure Request where
  domain : Domain
  key : PublicKey
  token : Value
  commitment : Value
  opening : Value
  label : Value

namespace Request

/-- Encrypts an attribute as requested. -/
def encrypt (R : Request) (x : Scalar) (source : Slot Source) : Run Ciphertext :=
  Escrow.encrypt (.given R.domain) (.given R.key.toRaw) R.token R.commitment (.int x.toInt)
    R.opening R.label source

/-- An encryption of the attribute `x` takes the bundle `b` from the source `s` and gives the
ciphertext `ct`. -/
def Makes (R : Request) (x : Scalar) (s : Source) (b : Bundle) (ct : Ciphertext) : Prop :=
  ∃ (source : Slot Source) (draws : Draws) (trace between after : Trace),
    draws.InRange ∧ sourceOf source = .ok s
      ∧ Run.outcome s.bundle draws trace = (.ok b, between)
      ∧ Run.outcome (R.encrypt x source) draws trace = (.ok ct, after)

/-- The checks of a requested encryption. -/
def check (R : Request) (x : Scalar) : Except Fault Checked :=
  checkArguments (.given R.domain) (.given R.key.toRaw) R.token R.commitment (.int x.toInt)
    R.opening R.label

variable {R : Request} {x x' : Scalar} {s s' : Source} {b b' : Bundle} {ct ct' : Ciphertext}

/-- A ciphertext that is made is the proof that the bundle gives of checked arguments. -/
theorem Makes.exists_prove (h : R.Makes x s b ct) :
    ∃ a, R.check x = .ok a
      ∧ prove R.domain (.given R.key.toRaw) a.token a.opening a.label b = .ok ct := by
  obtain ⟨source, draws, trace, between, after, -, hs, hb, hrun⟩ := h
  rw [encrypt, encrypt_eq] at hrun
  obtain ⟨a, ha, hproceed⟩ := Run.outcome_liftM_bind_eq_ok.mp hrun
  refine ⟨a, ha, ?_⟩
  rw [outcome_proceed hs hb, Checked.prove_given] at hproceed
  cases hprove : prove R.domain (.given R.key.toRaw) a.token a.opening a.label b with
  | ok ct' =>
    rw [hprove] at hproceed
    exact congrArg Prod.fst hproceed
  | error fault =>
    rw [hprove] at hproceed
    cases hproceed

/-- Attribute and bundle determine the ciphertext. -/
theorem Makes.unique (h : R.Makes x s b ct) (h' : R.Makes x s' b ct') : ct = ct' := by
  obtain ⟨a, ha, hprove⟩ := h.exists_prove
  obtain ⟨a', ha', hprove'⟩ := h'.exists_prove
  obtain rfl : a = a' := Except.ok.inj (ha.symm.trans ha')
  exact Except.ok.inj (hprove.symm.trans hprove')

/-- The arguments of a request are well-formed, and the items of its transcript fit. -/
structure Fits (R : Request) : Prop where
  uid : Short R.domain.uid
  token : ∃ bs, R.token = .bytes bs ∧ bs ≠ [] ∧ Short bs
  commitment : ∃ t bs, R.commitment = .text t ∧ Hex.decodeSpaced? t = some bs ∧ Short bs
  opening : ∃ o : Scalar, R.opening = .int o.toInt
  label : ∃ label, R.label = Ciphertext.labelValue label ∧ Short (label.getD [])

/-- With a valid key there is a ciphertext for every attribute and every bundle of a source. -/
theorem exists_makes (hkey : isElement (.text R.key.h) = true) (hfits : R.Fits) (x : Scalar)
    {draws : Draws} {trace between : Trace} (hrange : draws.InRange)
    (hb : Run.outcome s.bundle draws trace = (.ok b, between)) : ∃ ct, R.Makes x s b ct := by
  obtain ⟨H, hH⟩ := isElement_iff.mp hkey
  obtain ⟨token, htoken, hne, hshort⟩ := hfits.token
  obtain ⟨t, bs, hcommitment, hbs, hbsShort⟩ := hfits.commitment
  obtain ⟨o, ho⟩ := hfits.opening
  obtain ⟨label, hlabel, hlabelShort⟩ := hfits.label
  have hchecked : Checked.Of ⟨token, ⟨t, x, o⟩, label⟩ R.token R.commitment (.int x.toInt)
      R.opening R.label := ⟨htoken, hne, hcommitment, rfl, ho, hlabel⟩
  obtain ⟨ct, hprove⟩ :
      ∃ ct, prove R.domain (.given R.key.toRaw) token ⟨t, x, o⟩ label b = .ok ct := by
    have hread : uncompress R.key.toRaw.h = .ok H.point := hH
    have hdigits : Hex.decodeSpaced? (Opening.mk t x o).commitment = some bs := hbs
    obtain ⟨e2, proof, -, hprove⟩ :=
      Escrow.exists_prove hread hdigits hfits.uid hshort hbsShort hlabelShort
    exact ⟨_, hprove⟩
  have hs : sourceOf (.given s) = .ok s := rfl
  have hrun : Run.outcome (R.encrypt x (.given s)) draws trace
      = (.ok ct, { between with events := between.events ++ [.encrypted token] }) := by
    rw [encrypt, outcome_encrypt_of_checked hchecked hs hb, hprove, conclude]
  exact ⟨ct, _, draws, trace, between, _, hrange, hs, hb, hrun⟩

end Request

/-! ## Contents -/

/-- The ciphertext of an attribute for the key `H`, with a bundle and for a challenge. -/
noncomputable def ciphertextOf (H : Member) (opening : Opening) (label : Option Bytes)
    (b : Bundle) (c : Scalar) : Ciphertext where
  e1 := .text (b.r • Member.generator).point.compress
  e2 := .text (b.r • H + opening.x • Member.generator).point.compress
  proof := (honestProof opening b c).toValue
  label := label

/-- An encryption for a valid key gives a ciphertext of its attribute, whatever the challenge. -/
theorem Request.Makes.exists_eq_ciphertextOf {R : Request} {x : Scalar} {s : Source} {b : Bundle}
    {ct : Ciphertext} {H : Member} (h : R.Makes x s b ct) (hkey : Encodes (.text R.key.h) H) :
    ∃ opening label c, opening.x = x ∧ R.opening = .int opening.o.toInt
      ∧ ct = ciphertextOf H opening label b c := by
  obtain ⟨a, ha, hprove⟩ := h.exists_prove
  obtain ⟨-, -, hof⟩ := checkArguments_eq_ok.mp ha
  have hread : uncompress R.key.toRaw.h = .ok H.point := hkey
  obtain ⟨e2, points, he2, hbind⟩ :=
    exists_prove_eq_bind R.domain a.token a.opening a.label b hread
  rw [hbind] at hprove
  obtain ⟨c, -, hc⟩ := Except.bind_eq_ok.mp hprove
  have hx : a.opening.x = x := (Scalar.toInt_injective (Value.int.inj hof.x)).symm
  have he2' : e2 = (b.r • H + a.opening.x • Member.generator).point.compress :=
    Except.ok.inj (he2.symm.trans (product_pair_eq b.r a.opening.x hkey R.domain.encodes_ge))
  refine ⟨a.opening, a.label, c, hx, hof.o, ?_⟩
  rw [← Except.ok.inj hc, he2']
  rfl

/-- The first element tells the randomness. -/
theorem e1_ciphertextOf_eq_iff {H H' : Member} {opening opening' : Opening}
    {label label' : Option Bytes} {b b' : Bundle} {c c' : Scalar} :
    (ciphertextOf H opening label b c).e1 = (ciphertextOf H' opening' label' b' c').e1
      ↔ b.r = b'.r := by
  constructor
  · intro h
    exact smul_generator_injective (Member.compress_injective (Value.text.inj h))
  · intro h
    rw [ciphertextOf, ciphertextOf, h]

/-- A nonce is what a response and a challenge make of it, so it can be read off them. -/
theorem nonce_eq_of_response_eq {nonce nonce' c c' secret secret' : Scalar} (hc : c = c')
    (hsecret : secret = secret') (h : nonce - c * secret = nonce' - c' * secret') :
    nonce = nonce' := by
  subst hc hsecret
  exact sub_left_injective h

/-- **Equal ciphertexts are made of the same attribute and the same bundle**, where the opening is
the same.  The challenges may be any. -/
theorem ciphertextOf_injective {H : Member} {opening opening' : Opening}
    {label label' : Option Bytes} {b b' : Bundle} {c c' : Scalar} (ho : opening.o = opening'.o)
    (h : ciphertextOf H opening label b c = ciphertextOf H opening' label' b' c') :
    opening.x = opening'.x ∧ b = b' := by
  have hr : b.r = b'.r := e1_ciphertextOf_eq_iff.mp (congrArg Ciphertext.e1 h)
  have hsecond : b.r • H + opening.x • Member.generator
      = b'.r • H + opening'.x • Member.generator :=
    Member.compress_injective (Value.text.inj (congrArg Ciphertext.e2 h))
  rw [hr] at hsecond
  have hx : opening.x = opening'.x :=
    smul_generator_injective (add_left_cancel hsecond)
  have hproof : honestProof opening b c = honestProof opening' b' c' :=
    toValue_injective (congrArg Ciphertext.proof h)
  simp only [honestProof, proofOfScalars, Proof.mk.injEq, Value.int.injEq,
    Scalar.toInt_injective.eq_iff] at hproof
  obtain ⟨hc, hxb, hrr, hob⟩ := hproof
  refine ⟨hx, ?_⟩
  obtain ⟨r, xbPrime, rPrime, obPrime⟩ := b
  obtain ⟨r', xbPrime', rPrime', obPrime'⟩ := b'
  obtain rfl := nonce_eq_of_response_eq hc hx hxb
  obtain rfl := nonce_eq_of_response_eq hc hr hrr
  obtain rfl := nonce_eq_of_response_eq hc ho hob
  rw [Bundle.mk.injEq]
  exact ⟨hr, rfl, rfl, rfl⟩

theorem sameItem_int (m n : ℤ) : Value.sameItem (.int m) (.int n) = decide (m = n) := by
  simp only [Value.sameItem, Value.number?, Value.integer?, Option.map_some, Option.any_some,
    Number.equalsInt, eq_comm]

theorem sameItem_labelValue (label label' : Option Bytes) :
    Value.sameItem (Ciphertext.labelValue label) (Ciphertext.labelValue label')
      = decide (label = label') := by
  cases label <;> cases label' <;> simp [Ciphertext.labelValue, Value.sameItem]

/-- Ciphertexts of this form are compared field by field, by their texts, numbers and bytes. -/
theorem same_toValue_ciphertextOf {H H' : Member} {opening opening' : Opening}
    {label label' : Option Bytes} {b b' : Bundle} {c c' : Scalar} :
    Value.same (ciphertextOf H opening label b c).toValue
        (ciphertextOf H' opening' label' b' c').toValue = true
      ↔ ciphertextOf H opening label b c = ciphertextOf H' opening' label' b' c' := by
  rw [Ciphertext.toValue, Ciphertext.toValue, ciphertextOf, ciphertextOf, Ciphertext.mk.injEq]
  simp only [Value.same, Value.sameItem, Value.sameItems, honestProof, proofOfScalars,
    Proof.toValue, sameItem_int, sameItem_labelValue, Bool.and_eq_true, decide_eq_true_eq,
    Value.text.injEq, Value.record.injEq, List.cons.injEq, Value.int.injEq, true_and, and_true]

/-! ## Different ciphertexts -/

/-- What is made for the key `H` is determined up to the challenge, and it can be told apart
whatever the challenges are. -/
structure Request.ChallengeFree (R : Request) (H : Member) : Prop where
  form : ∀ x s b ct, R.Makes x s b ct → ∃ opening label c,
    opening.x = x ∧ R.opening = .int opening.o.toInt ∧ ct = ciphertextOf H opening label b c
  tells : ∀ opening opening' label label' b b' c c',
    R.opening = .int opening.o.toInt → R.opening = .int opening'.o.toInt →
      ciphertextOf H opening label b c = ciphertextOf H opening' label' b' c' →
        opening.x = opening'.x ∧ b = b'

/-- The ciphertexts of a request tell what they are made of. -/
structure Request.Distinguishes (R : Request) : Prop where
  /-- There are ciphertexts to be told apart. -/
  made : R.Fits → ∀ x b, ∃ ct, R.Makes x (.fixed b) b ct
  /-- Two ciphertexts are equal when attribute and bundle are. -/
  eq_iff : ∀ x x' s s' b b' ct ct', R.Makes x s b ct → R.Makes x' s' b' ct' →
    (ct = ct' ↔ x = x' ∧ b = b')
  /-- So it is when they are compared as values. -/
  same_iff : ∀ x x' s s' b b' ct ct', R.Makes x s b ct → R.Makes x' s' b' ct' →
    (Value.same ct.toValue ct'.toValue = true ↔ x = x' ∧ b = b')
  /-- The first elements are equal when the first exponents of the bundles are. -/
  e1_eq_iff : ∀ x x' s s' b b' ct ct', R.Makes x s b ct → R.Makes x' s' b' ct' →
    (ct.e1 = ct'.e1 ↔ b.r = b'.r)
  /-- The hash function may give any challenges. -/
  anyChallenge : ∃ H, Encodes (.text R.key.h) H ∧ R.ChallengeFree H

theorem Request.challengeFree {R : Request} {H : Member} (hkey : Encodes (.text R.key.h) H) :
    R.ChallengeFree H where
  form _ _ _ _ h := h.exists_eq_ciphertextOf hkey
  tells _ _ _ _ _ _ _ _ ho ho' :=
    ciphertextOf_injective (Scalar.toInt_injective (Value.int.inj (ho.symm.trans ho')))

/-- **Different attributes or bundles give different ciphertexts**, for every valid key and whatever
the challenges are. -/
theorem distinguishes {R : Request} (hkey : isElement (.text R.key.h) = true) :
    R.Distinguishes := by
  obtain ⟨H, hH⟩ := isElement_iff.mp hkey
  have hfree := R.challengeFree hH
  have heq : ∀ x x' s s' b b' ct ct', R.Makes x s b ct → R.Makes x' s' b' ct' →
      (ct = ct' ↔ x = x' ∧ b = b') := by
    intro x x' s s' b b' ct ct' h h'
    constructor
    · intro hct
      obtain ⟨opening, label, c, rfl, ho, rfl⟩ := hfree.form _ _ _ _ h
      obtain ⟨opening', label', c', rfl, ho', rfl⟩ := hfree.form _ _ _ _ h'
      exact hfree.tells _ _ _ _ _ _ _ _ ho ho' hct
    · rintro ⟨rfl, rfl⟩
      exact h.unique h'
  refine ⟨fun hfits x b => ?_, heq, ?_, ?_, H, hH, hfree⟩
  · have hb : Run.outcome (Source.fixed b).bundle (fun _ => 0) Trace.start
        = (.ok b, Trace.start) := rfl
    exact Request.exists_makes hkey hfits x Draws.inRange_zero hb
  · intro x x' s s' b b' ct ct' h h'
    rw [← heq x x' s s' b b' ct ct' h h']
    obtain ⟨opening, label, c, -, -, rfl⟩ := hfree.form _ _ _ _ h
    obtain ⟨opening', label', c', -, -, rfl⟩ := hfree.form _ _ _ _ h'
    exact same_toValue_ciphertextOf
  · intro x x' s s' b b' ct ct' h h'
    obtain ⟨opening, label, c, -, -, rfl⟩ := hfree.form _ _ _ _ h
    obtain ⟨opening', label', c', -, -, rfl⟩ := hfree.form _ _ _ _ h'
    exact e1_ciphertextOf_eq_iff

/-- A request in which the generator is the key and the commitment. -/
def Request.ofGenerator : Request :=
  ⟨Domain.ofGenerator .sha256, ⟨generator⟩, .bytes [1], .text generator, .int 1, .null⟩

theorem Request.fits_ofGenerator : ofGenerator.Fits where
  uid := by decide
  token := ⟨[1], rfl, List.cons_ne_nil 1 [], by decide⟩
  commitment := ⟨generator, Point.generator.bytes, rfl, Point.decodeSpaced?_compress _,
    short_bytes Point.generator⟩
  opening := ⟨1, rfl⟩
  label := ⟨none, rfl, by decide⟩

/-- The last exponent of a bundle shows in the ciphertext, though not in its elements. -/
theorem distinguishes_generator :
    isElement (.text Request.ofGenerator.key.h) = true
      ∧ ∃ ct ct', Request.ofGenerator.Makes 0 (.fixed ⟨0, 0, 0, 0⟩) ⟨0, 0, 0, 0⟩ ct
        ∧ Request.ofGenerator.Makes 0 (.fixed ⟨0, 0, 0, 1⟩) ⟨0, 0, 0, 1⟩ ct'
        ∧ ct ≠ ct' ∧ ¬Value.same ct.toValue ct'.toValue = true ∧ ct.e1 = ct'.e1 := by
  have hkey : isElement (.text Request.ofGenerator.key.h) = true := encodes_generator.isElement
  have hdistinguishes := distinguishes hkey
  obtain ⟨ct, hct⟩ := hdistinguishes.made Request.fits_ofGenerator 0 ⟨0, 0, 0, 0⟩
  obtain ⟨ct', hct'⟩ := hdistinguishes.made Request.fits_ofGenerator 0 ⟨0, 0, 0, 1⟩
  have hne : ¬((0 : Scalar) = 0 ∧ (⟨0, 0, 0, 0⟩ : Bundle) = ⟨0, 0, 0, 1⟩) := by decide
  exact ⟨hkey, ct, ct', hct, hct',
    mt (hdistinguishes.eq_iff _ _ _ _ _ _ _ _ hct hct').mp hne,
    mt (hdistinguishes.same_iff _ _ _ _ _ _ _ _ hct hct').mp hne,
    (hdistinguishes.e1_eq_iff _ _ _ _ _ _ _ _ hct hct').mpr rfl⟩

end Escrow
end VerifiableEscrow
