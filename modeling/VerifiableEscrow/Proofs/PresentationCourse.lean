import VerifiableEscrow.Proofs.Completeness
import VerifiableEscrow.Proofs.DomainSeparation
import VerifiableEscrow.Proofs.EncryptionChecks

/-!
# Presentations, end to end

A holder who shows a token has artifacts: the presentation with its commitments, the openings
that go with it, and the token's attributes with an index that says which of them is escrowed.
The prover collects four things from these, each from another place: the token's identifier, the
first commitment, the exponent of the attribute at the index, and the first opening.  A verifier
collects the first two again, without the attributes and the openings.  The engine is complete for
consistent arguments; what is left to show is that the arguments collected are consistent.

Artifacts from which nothing can be collected are refused before anything is drawn.

* `Showing`: the artifacts of an honest holder;
* `identifier_eq`, `scalar_eq`: tokens have identifiers and attributes have exponents, for every
  hash function;
* `prepare_showing`, `prepare_unusable`: what is collected, and what is refused;
* `endToEnd`: **an honest presentation is escrowed, accepted and decrypted, and an unusable one is
  refused**.
-/

namespace VerifiableEscrow

open Transcript
open scoped PrimeField Member

/-! ## Identifiers and exponents -/

theorem HashFunction.short_digest (f : HashFunction) (m : Bytes) : Short (f.digest m) := by
  have hwidth : f.width < BigEndian.capacity 4 := by cases f <;> decide
  rwa [Short, length_digest]

theorem HashFunction.digest_ne_nil (f : HashFunction) (m : Bytes) : f.digest m ≠ [] := by
  intro h
  have hlength := length_digest f m
  rw [h, List.length_nil] at hlength
  exact (Escrow.width_pos f).ne hlength

/-- A token whose fields spell short items has an identifier. -/
theorem Token.identifier_eq (d : Domain) {token : Token} {h sigmaZ : Bytes} {sigmaC sigmaR : ℕ}
    (hof : (Content.forIdentifier h sigmaZ sigmaC sigmaR).Of (.forIdentifier token))
    (hshort : (Content.forIdentifier h sigmaZ sigmaC sigmaR).IsShort) :
    identifier (.given d.issuer) (.given token)
      = .ok (d.hash.digest (Content.forIdentifier h sigmaZ sigmaC sigmaR).bytes) := by
  have htranscript : token.transcript = _ := Subject.transcript_eq_ok hof hshort
  unfold identifier
  refine (Except.bind_of_ok (Slot.get_given token)).trans ((Except.bind_of_ok htranscript).trans ?_)
  refine (Except.bind_of_ok (Slot.get_given d.issuer)).trans ?_
  exact Except.bind_of_ok (Escrow.hashFunction_hashName d)

/-- A short attribute has an exponent. -/
theorem Attribute.exists_scalar (d : Domain) {v : Value} {content : Bytes}
    (hitem : item v = .ok content) (hshort : Short content) :
    ∃ x, scalar (.given d.issuer) v = .ok x := by
  have hcontent : (Content.forExponent content).IsShort := List.forall_mem_singleton.mpr hshort
  have htranscript : transcript v = _ := Subject.transcript_eq_ok
    (show (Content.forExponent content).Of (.forExponent v) from hitem) hcontent
  refine ⟨Escrow.challengeOf d (Content.forExponent content).bytes, ?_⟩
  unfold scalar
  refine (Except.bind_of_ok htranscript).trans ((Except.bind_of_ok (Slot.get_given _)).trans ?_)
  refine (Except.bind_of_ok (Escrow.hashFunction_hashName d)).trans ?_
  exact Escrow.scalarOfDigest_digest d.hash _

namespace Presentation

/-! ## Indices -/

theorem number_of_integer? {v : Value} {n : ℤ} (h : v.integer? = some n) :
    v.number = .ok (.int n) := by
  cases v with
  | int m =>
    obtain rfl : m = n := Option.some.inj h
    rfl
  | bool b =>
    obtain rfl : (if b then 1 else 0) = n := Option.some.inj h
    rfl
  | _ => cases h

theorem indexFits_of_lt {index attributes : Value} {n : ℤ} (hindex : index.integer? = some n)
    (hn : n < 1) : indexFits index attributes = .ok false := by
  unfold indexFits
  refine (Except.bind_of_ok (number_of_integer? hindex)).trans ?_
  rw [if_pos (by simpa [Number.belowInt] using hn)]
  rfl

theorem indexFits_of_items {index attributes : Value} {items : List Value} {n : ℤ}
    (hindex : index.integer? = some n) (hitems : attributes.items? = some items) (hn : 1 ≤ n) :
    indexFits index attributes = .ok (decide (n ≤ items.length)) := by
  unfold indexFits
  refine (Except.bind_of_ok (number_of_integer? hindex)).trans ?_
  rw [if_neg (by simpa [Number.belowInt] using hn), hitems]
  show Except.ok (!decide ((items.length : ℤ) < n)) = _
  simp only [← decide_not, not_lt]

/-! ## What is collected -/

/-- The artifacts of an honest holder: a token, the attribute that an index picks out of the
token's attributes, and the exponent that opens the commitment to it.  Commitments and openings
that come later may be anything. -/
structure Showing where
  token : Token
  h : Bytes
  sigmaZ : Bytes
  sigmaC : ℕ
  sigmaR : ℕ
  token_of : (Content.forIdentifier h sigmaZ sigmaC sigmaR).Of (.forIdentifier token)
  token_isShort : (Content.forIdentifier h sigmaZ sigmaC sigmaR).IsShort
  attributes : List Value
  position : Fin attributes.length
  index : Value
  /-- Indices count from one. -/
  index_eq : index.integer? = some (position + 1 : ℤ)
  content : Bytes
  attribute_eq : item attributes[position] = .ok content
  content_short : Short content
  o : Scalar
  laterCommitments : List Value
  laterOpenings : List Value

namespace Showing

/-- The presentation with a first commitment. -/
def presentation (w : Showing) (cxb : Text) : Presentation :=
  ⟨.list (.record .committedAttribute [.text cxb] :: w.laterCommitments)⟩

/-- The openings that go with it. -/
def openings (w : Showing) : Openings := ⟨.list (.int w.o.toInt :: w.laterOpenings)⟩

/-- The identifier of the token. -/
def identifier (w : Showing) (d : Domain) : Bytes :=
  d.hash.digest (Content.forIdentifier w.h w.sigmaZ w.sigmaC w.sigmaR).bytes

theorem attributeAt_eq (w : Showing) :
    attributeAt w.index (.list w.attributes) = .ok w.attributes[w.position] := by
  have hminus : Value.minus w.index (.int 1) = .ok (.int w.position) := by
    rw [Value.minus, number_of_integer? w.index_eq]
    show Except.ok (Number.int ((w.position : ℤ) + 1 - 1)) = _
    rw [add_sub_cancel_right]
  unfold attributeAt
  refine (Except.bind_of_ok hminus).trans ?_
  simp [itemAt, Value.items?]

theorem indexFits_eq (w : Showing) : indexFits w.index (.list w.attributes) = .ok true := by
  have hlt := w.position.isLt
  rw [indexFits_of_items w.index_eq rfl (by omega), decide_eq_true (by omega)]

/-- What is collected from the artifacts of an honest holder. -/
theorem prepare_eq (w : Showing) (d : Domain) (key : RawPublicKey) (cxb : Text) {x : Scalar}
    (hx : Attribute.scalar (.given d.issuer) w.attributes[w.position] = .ok x) :
    prepare (.given d) (.given key) (.given w.token) (.given (w.presentation cxb))
        (.given w.openings) w.index (.list w.attributes)
      = .ok ⟨w.identifier d, .text cxb, x, .int w.o.toInt⟩ := by
  have hcommitment : firstCommitment (w.presentation cxb) = .ok (.text cxb) := rfl
  have hopening : itemAt w.openings.values (.int 0) = .ok (.int w.o.toInt) := rfl
  unfold prepare
  refine Except.guard_eq_ok.mpr ⟨by simp, ?_⟩
  refine (Except.bind_of_ok (Slot.get_given (w.presentation cxb))).trans ?_
  refine Except.guard_eq_ok.mpr ⟨Bool.false_ne_true, ?_⟩
  refine (Except.bind_of_ok (Slot.get_given w.openings)).trans ?_
  refine Except.guard_eq_ok.mpr ⟨Bool.false_ne_true, (Except.bind_of_ok w.indexFits_eq).trans ?_⟩
  refine Except.guard_eq_ok.mpr ⟨Bool.false_ne_true, ?_⟩
  refine (Except.bind_of_ok (Slot.get_given d)).trans ?_
  refine (Except.bind_of_ok (Token.identifier_eq d w.token_of w.token_isShort)).trans ?_
  refine (Except.bind_of_ok hcommitment).trans ((Except.bind_of_ok w.attributeAt_eq).trans ?_)
  exact (Except.bind_of_ok hx).trans (Except.bind_of_ok hopening)

end Showing

/-! ## What is refused -/

/-- Artifacts that nothing can be collected from: there are no commitments, no openings or no
attributes, or an integer does not point at an attribute. -/
inductive Unusable (p : Presentation) (o : Openings) (index attributes : Value) : Prop
  | commitments (h : p.commitments.isEmpty = true)
  | openings (h : o.values.isEmpty = true)
  | attributes (h : attributes.isNull = true)
  | low (n : ℤ) (h : index.integer? = some n) (hn : n < 1)
  | high (n : ℤ) (h : index.integer? = some n) (items : List Value)
      (hitems : attributes.items? = some items) (hn : items.length < n)

theorem prepare_unusable {domain : Slot Domain} {key : Slot RawPublicKey} {token : Slot Token}
    {p : Presentation} {o : Openings} {index attributes : Value}
    (hdomain : domain.isMissing = false) (hkey : key.isMissing = false)
    (htoken : token.isMissing = false) (h : Unusable p o index attributes) :
    prepare domain key token (.given p) (.given o) index attributes
      = .error (.artifact .presentationEncryption) := by
  unfold prepare
  rw [if_neg (by simp [hdomain, hkey, htoken])]
  refine (Except.bind_of_ok (Slot.get_given p)).trans ?_
  by_cases hcommitments : p.commitments.isEmpty = true
  · rw [if_pos hcommitments]
    rfl
  rw [if_neg hcommitments]
  refine (Except.bind_of_ok (Slot.get_given o)).trans ?_
  by_cases hopenings : (o.values.isEmpty || attributes.isNull) = true
  · rw [if_pos hopenings]
    rfl
  rw [if_neg hopenings]
  have hfits : indexFits index attributes = .ok false := by
    cases h with
    | commitments h => exact absurd h hcommitments
    | openings h => exact absurd (by rw [h, Bool.true_or]) hopenings
    | attributes h => exact absurd (by rw [h, Bool.or_true]) hopenings
    | low n h hn => exact indexFits_of_lt h hn
    | high n h items hitems hn =>
      by_cases hlow : n < 1
      · exact indexFits_of_lt h hlow
      · rw [indexFits_of_items h hitems (by omega), decide_eq_false (by omega)]
  exact Except.bind_of_ok hfits

/-! ## End to end -/

/-- The course of an escrowed presentation: the key is derived, the attribute becomes an exponent
and is committed to, the presentation with this commitment is escrowed and accepted, and the
auditor decrypts the attribute's pseudonym. -/
structure Course (d : Domain) (k : PrivateKey) (w : Showing) (label : Option Bytes)
    (source : Slot Source) (draws : Draws) (trace : Trace) (pk : PublicKey) (x : Scalar)
    (cxb : Text) (ct : Ciphertext) (pseudonym : Text) : Prop where
  key : PublicKey.derive (.given d) (.given k.toRaw) = .ok pk
  scalar : Attribute.scalar (.given d.issuer) w.attributes[w.position] = .ok x
  commitment : Attribute.commit (.given d.issuer) (.int x.toInt) (.int w.o.toInt) = .ok cxb
  encrypted : (Run.outcome
    (encrypt (.given d) (.given pk.toRaw) (.given w.token) (Ciphertext.labelValue label)
      (.given (w.presentation cxb)) (.given w.openings) w.index (.list w.attributes) source)
    draws trace).1 = .ok ct
  accepted : ∀ draws' trace', Run.outcome
    (verify (.given d) (.given ct) (.given (w.presentation cxb)) (.given w.token)
      (.given pk.toRaw)) draws' trace' = (.ok true, trace')
  decrypted : Escrow.decrypt (.given d) (.given ct) (.given k.toRaw) = .ok pseudonym
  pseudonym : Element.ofScalar (.int x.toInt) = .ok pseudonym

/-- A verifier hands the engine the identifier and the commitment that the prover has taken. -/
theorem verify_showing (w : Showing) (d : Domain) (ct : Ciphertext) (key : RawPublicKey)
    (cxb : Text) :
    verify (.given d) (.given ct) (.given (w.presentation cxb)) (.given w.token) (.given key)
      = Escrow.verify (.given d) (.given ct) (.bytes (w.identifier d)) (.given key)
          (.text cxb) := by
  have hsome : ¬(w.presentation cxb).commitments.isEmpty = true := Bool.false_ne_true
  have hcommitment : firstCommitment (w.presentation cxb) = .ok (.text cxb) := rfl
  have hidentifier : Token.identifier (.given d.issuer) (.given w.token) = .ok (w.identifier d) :=
    Token.identifier_eq d w.token_of w.token_isShort
  unfold verify
  rw [if_neg (by simp)]
  refine (Run.liftM_of_ok (Slot.get_given (w.presentation cxb)) _).trans ((if_neg hsome).trans ?_)
  refine (Run.liftM_of_ok hcommitment _).trans ((Run.liftM_of_ok (Slot.get_given d) _).trans ?_)
  exact Run.liftM_of_ok hidentifier _

/-- An honest presentation has its course, from any source that gives a bundle. -/
theorem exists_course (d : Domain) (k : PrivateKey) (w : Showing) {label : Option Bytes}
    {source : Slot Source} {s : Source} {b : Bundle} {draws : Draws} {trace between : Trace}
    (huid : Short d.uid) (hlabel : Short (label.getD [])) (hs : Escrow.sourceOf source = .ok s)
    (hb : Run.outcome s.bundle draws trace = (.ok b, between)) :
    ∃ pk x cxb ct pseudonym, Course d k w label source draws trace pk x cxb ct pseudonym := by
  obtain ⟨pk, hderive, hpk⟩ := PublicKey.exists_derive d k
  obtain ⟨x, hx⟩ := Attribute.exists_scalar d w.attribute_eq w.content_short
  obtain ⟨opening, rfl, ho, hopening⟩ := Escrow.exists_opening d x w.o
  have hne : w.identifier d ≠ [] := d.hash.digest_ne_nil _
  have hshort : Short (w.identifier d) := d.hash.short_digest _
  obtain ⟨p, ct, m, hform, hct, haccepts⟩ :=
    Escrow.exists_prove_accepts d b hpk hopening hne huid hshort hlabel
  have hcommit := Attribute.commit_eq d opening.x opening.o
  rw [← hopening] at hcommit
  refine ⟨pk, opening.x, opening.commitment, ct, (opening.x • Member.generator).point.compress, ?_⟩
  exact {
    key := hderive
    scalar := hx
    commitment := by rw [← ho, hcommit]
    encrypted := by
      rw [encrypt_eq, Run.outcome_bind, Run.outcome_liftM,
        w.prepare_eq d pk.toRaw opening.commitment hx, ← ho]
      exact congrArg Prod.fst (Escrow.outcome_encrypt hne hs hb hct)
    accepted := fun draws' trace' => by
      rw [verify_showing]
      exact haccepts.outcome_verify draws' trace'
    decrypted := by
      rw [hform]
      exact Escrow.decrypt_honest d k b.r opening.x p.toValue label
    pseudonym := Element.ofScalar_eq opening.x }

/-- What escrow promises for the presentations of a domain. -/
structure EndToEnd (d : Domain) : Prop where
  /-- Honest artifacts have their course, for every key, label and source. -/
  course : ∀ (k : PrivateKey) (w : Showing) (label : Option Bytes), Short (label.getD []) →
    ∀ (source : Slot Source) (s : Source) (b : Bundle) (draws : Draws) (trace between : Trace),
    Escrow.sourceOf source = .ok s → Run.outcome s.bundle draws trace = (.ok b, between) →
    ∃ pk x cxb ct pseudonym, Course d k w label source draws trace pk x cxb ct pseudonym
  /-- Unusable artifacts are refused, and nothing has been drawn or reported. -/
  refused : ∀ (domain : Slot Domain) (key : Slot RawPublicKey) (token : Slot Token)
    (p : Presentation) (o : Openings) (index attributes label : Value) (source : Slot Source)
    (draws : Draws) (trace : Trace),
    domain.isMissing = false → key.isMissing = false → token.isMissing = false →
    Unusable p o index attributes →
    Run.outcome (encrypt domain key token label (.given p) (.given o) index attributes source)
      draws trace = (.error (.artifact .presentationEncryption), trace)

/-- **Presentations, end to end.**  The adapters feed the engine with arguments that belong
together, for every hash function, every index into attributes of any number, and every shape of
the lists behind the first entries. -/
theorem endToEnd (d : Domain) (huid : Short d.uid) : EndToEnd d where
  course k w label hlabel source s b draws trace between hs hb :=
    exists_course d k w huid hlabel hs hb
  refused domain key token p o index attributes label source draws trace hdomain hkey htoken h := by
    rw [encrypt_eq, Run.outcome_bind, Run.outcome_liftM, prepare_unusable hdomain hkey htoken h]

/-- A token of zeros with two attributes, of which the second is shown. -/
def sampleShowing : Showing where
  token := ⟨.text [], .text [], .int 0, .int 0⟩
  h := []
  sigmaZ := []
  sigmaC := 0
  sigmaR := 0
  token_of := ⟨rfl, rfl, rfl, rfl⟩
  token_isShort := by
    unfold Content.IsShort
    decide
  attributes := [.null, .bytes [1]]
  position := 1
  index := .int 2
  index_eq := rfl
  content := [1]
  attribute_eq := rfl
  content_short := by decide
  o := 5
  laterCommitments := [.null]
  laterOpenings := []

/-- The sample has its course, and with the index zero it is refused. -/
theorem endToEnd_sample :
    (∃ pk x cxb ct pseudonym, Course (Domain.ofGenerator .sha256) ⟨2⟩ sampleShowing none
        .missing (fun _ => 0) Trace.start pk x cxb ct pseudonym)
      ∧ ∀ cxb label, Run.outcome
          (encrypt (.given (Domain.ofGenerator .sha256)) .foreign (.given sampleShowing.token) label
            (.given (sampleShowing.presentation cxb)) (.given sampleShowing.openings) (.int 0)
            (.list sampleShowing.attributes) .missing) (fun _ => 0) Trace.start
        = (.error (.artifact .presentationEncryption), Trace.start) := by
  have hall := endToEnd (Domain.ofGenerator .sha256) (by decide)
  constructor
  · exact hall.course ⟨2⟩ sampleShowing none (by decide) .missing .system ⟨1, 1, 1, 1⟩ _ _ _ rfl rfl
  · intro cxb label
    exact hall.refused _ _ _ _ _ _ _ _ _ _ _ rfl rfl rfl (.low 0 rfl (by decide))

end Presentation
end VerifiableEscrow
