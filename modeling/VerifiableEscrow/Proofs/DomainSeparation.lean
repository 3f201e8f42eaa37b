import VerifiableEscrow.Presentation
import VerifiableEscrow.Proofs.Framing

/-!
# One transcript, one thing that is hashed

Three kinds of thing are hashed: the statement of a proof together with its primed elements, the
public fields of a token, and an attribute.  Each kind has a tag, and behind the tag stand the
items of the thing, framed.  `Framing` reads the items off once the tag is gone.  What is left to
show is that the tag can be told from what stands behind it, whatever that is, and that the items
give back what they were made of.

The first is a matter of one byte.  The tags have different lengths, so they cannot be compared
as a whole, but no two of them begin with the same letter (`head?_bytes`).  The second is clear for
items that are bytes already.  The two integers of a token are items of varying length, and they
are read back by `toNat_scalarBytes`.

* `Content.bytes_injective`: a transcript determines the content;
* `Subject.transcript_eq_ok`: a thing with short items has the transcript of its content;
* `exists_transcripts_eq_iff`: **two things are hashed alike exactly when they are alike**.
-/

namespace VerifiableEscrow

/-- The bytes of a natural number, truth values included. -/
theorem integerBytes_of_integer? {v : Value} {n : ℕ} (h : v.integer? = some (n : ℤ)) :
    integerBytes v = .ok (scalarBytes n) := by
  cases v with
  | int m =>
    obtain rfl : m = n := Option.some.inj h
    rfl
  | bool b =>
    cases b with
    | false =>
      obtain rfl : n = 0 := Int.ofNat.inj (Option.some.inj h).symm
      rfl
    | true =>
      obtain rfl : n = 1 := Int.ofNat.inj (Option.some.inj h).symm
      rfl
  | _ => cases h

theorem scalarBytes_injective : Function.Injective scalarBytes := by
  intro n n' h
  rw [← toNat_scalarBytes n, h, toNat_scalarBytes]

namespace Transcript

/-- What is hashed, as it comes: the statement of a proof with its primed elements for a challenge,
a token for its identifier, an attribute for its exponent. -/
inductive Subject where
  | forChallenge (uid tokenId : Value) (elements : List Value) (label : Value)
  | forIdentifier (token : Token)
  | forExponent (content : Value)

/-- The transcript of what is hashed. -/
def Subject.transcript : Subject → Except Fault Bytes
  | forChallenge uid tokenId elements label =>
      Escrow.challengeTranscript uid tokenId elements label
  | forIdentifier token => token.transcript
  | forExponent content => Attribute.transcript content

/-- What a transcript is made of: byte strings, and the two integers of a token. -/
inductive Content where
  | forChallenge (items : Escrow.ChallengeItems)
  | forIdentifier (h sigmaZ : Bytes) (sigmaC sigmaR : ℕ)
  | forExponent (content : Bytes)

namespace Content

/-- The content is that of a thing: its byte strings, the bytes that its elements spell, and its
integers.  A missing byte string counts as an empty one. -/
def Of : Content → Subject → Prop
  | forChallenge items, .forChallenge uid tokenId elements label =>
      items.Of uid tokenId elements label
  | forIdentifier h sigmaZ sigmaC sigmaR, .forIdentifier token =>
      spacedBytes token.h = .ok h ∧ spacedBytes token.sigmaZ = .ok sigmaZ
        ∧ token.sigmaC.integer? = some (sigmaC : ℤ) ∧ token.sigmaR.integer? = some (sigmaR : ℤ)
  | forExponent content, .forExponent v => item v = .ok content
  | _, _ => False

/-- The tag of a kind of content. -/
def tag : Content → Bytes
  | forChallenge _ => challengeTag
  | forIdentifier _ _ _ _ => tokenTag
  | forExponent _ => attributeTag

/-- The items of a content, in their order. -/
def items : Content → List Bytes
  | forChallenge items => items.toList
  | forIdentifier h sigmaZ sigmaC sigmaR => [h, sigmaZ, scalarBytes sigmaC, scalarBytes sigmaR]
  | forExponent content => [content]

/-- All items are short. -/
def IsShort (i : Content) : Prop := ∀ bs ∈ i.items, Short bs

/-- The bytes that a content is hashed as. -/
def bytes (i : Content) : Bytes := i.tag ++ (i.items.map framedBytes).flatten

/-! ## Reading a content off -/

/-- The letter that a tag begins with. -/
def letter : Content → UInt8
  | forChallenge _ => 0x45
  | forIdentifier _ _ _ _ => 0x54
  | forExponent _ => 0x41

theorem head?_tag (i : Content) : i.tag.head? = some i.letter := by
  cases i with
  | forChallenge _ => exact show challengeTag.head? = some 0x45 by decide
  | forIdentifier _ _ _ _ => exact show tokenTag.head? = some 0x54 by decide
  | forExponent _ => exact show attributeTag.head? = some 0x41 by decide

theorem head?_bytes (i : Content) : i.bytes.head? = some i.letter := by
  rw [bytes, List.head?_append, head?_tag, Option.some_or]

/-- The first letters tell the kinds apart, so they determine the tag, and the items of one kind
determine the content. -/
theorem eq_of_letter {i i' : Content} (h : i.letter = i'.letter) :
    i.tag = i'.tag ∧ (i.items = i'.items → i = i') := by
  cases i with
  | forChallenge items =>
    cases i' with
    | forChallenge items' =>
      refine ⟨rfl, fun hitems => ?_⟩
      rw [Escrow.ChallengeItems.toList_injective hitems]
    | _ => simp [letter] at h
  | forIdentifier bs sigmaZ sigmaC sigmaR =>
    cases i' with
    | forIdentifier bs' sigmaZ' sigmaC' sigmaR' =>
      refine ⟨rfl, fun hitems => ?_⟩
      simp only [items, List.cons.injEq, and_true] at hitems
      obtain ⟨rfl, rfl, hc, hr⟩ := hitems
      rw [scalarBytes_injective hc, scalarBytes_injective hr]
    | _ => simp [letter] at h
  | forExponent content =>
    cases i' with
    | forExponent content' =>
      refine ⟨rfl, fun hitems => ?_⟩
      rw [List.singleton_inj.mp hitems]
    | _ => simp [letter] at h

/-- A transcript determines the kind and the content. -/
theorem bytes_injective {i i' : Content} (hi : i.IsShort) (hi' : i'.IsShort)
    (h : i.bytes = i'.bytes) : i = i' := by
  have hletter : i.letter = i'.letter := by
    have hhead := congrArg List.head? h
    rwa [head?_bytes, head?_bytes, Option.some.injEq] at hhead
  obtain ⟨htag, heq⟩ := eq_of_letter hletter
  rw [bytes, bytes, htag] at h
  exact heq (flatten_framedBytes_injective hi hi' (List.append_cancel_left h))

end Content

/-! ## Writing it down -/

theorem framed_bytes {bs : Bytes} (h : Short bs) : framed (.bytes bs) = .ok (framedBytes bs) :=
  framed_eq_ok.mpr ⟨bs, ⟨rfl, h⟩, rfl⟩

/-- A thing with short items has the transcript of its content. -/
theorem Subject.transcript_eq_ok {s : Subject} {i : Content} (h : i.Of s) (hshort : i.IsShort) :
    s.transcript = .ok i.bytes := by
  cases i with
  | forChallenge items =>
    cases s with
    | forChallenge uid tokenId elements label =>
      exact Escrow.challengeTranscript_eq_ok.mpr ⟨items, h, hshort, rfl⟩
    | _ => exact False.elim h
  | forIdentifier bs sigmaZ sigmaC sigmaR =>
    cases s with
    | forIdentifier token =>
      obtain ⟨hh, hz, hc, hr⟩ := h
      simp only [Content.IsShort, Content.items, List.forall_mem_cons] at hshort
      obtain ⟨hshort1, hshort2, hshort3, hshort4, -⟩ := hshort
      refine Except.bind_eq_ok.mpr ⟨_, integerBytes_of_integer? hc, ?_⟩
      refine Except.bind_eq_ok.mpr ⟨_, integerBytes_of_integer? hr, ?_⟩
      refine Except.bind_eq_ok.mpr ⟨_, hh, Except.bind_eq_ok.mpr ⟨_, framed_bytes hshort1, ?_⟩⟩
      refine Except.bind_eq_ok.mpr ⟨_, hz, Except.bind_eq_ok.mpr ⟨_, framed_bytes hshort2, ?_⟩⟩
      refine Except.bind_eq_ok.mpr ⟨_, framed_bytes hshort3, ?_⟩
      exact Except.bind_eq_ok.mpr ⟨_, framed_bytes hshort4, rfl⟩
    | _ => exact False.elim h
  | forExponent content =>
    cases s with
    | forExponent v =>
      have hcontent : Short content := hshort content List.mem_cons_self
      exact build_eq_ok.mpr ⟨[content], .cons ⟨h, hcontent⟩ .nil, rfl⟩
    | _ => exact False.elim h

/-! ## Alike and hashed alike -/

/-- **Transcripts are unambiguous and domain separated.**  Two things with short items have
transcripts, and these are the same exactly when the things are of one kind and have the same
content. -/
theorem exists_transcripts_eq_iff {s s' : Subject} {i i' : Content} (hi : i.Of s) (hi' : i'.Of s')
    (hshort : i.IsShort) (hshort' : i'.IsShort) :
    ∃ m m', s.transcript = .ok m ∧ s'.transcript = .ok m' ∧ (m = m' ↔ i = i') := by
  refine ⟨i.bytes, i'.bytes, Subject.transcript_eq_ok hi hshort,
    Subject.transcript_eq_ok hi' hshort', Content.bytes_injective hshort hshort', ?_⟩
  rintro rfl
  rfl

/-- A challenge whose elements are spelled in the other case, and which has an empty label in
place of none, is hashed alike. -/
theorem exists_transcripts_eq_iff_spelling :
    ∃ m m', (Subject.forChallenge (.bytes [1]) (.bytes [2])
          (List.replicate 7 (.text (Text.of "ab"))) .null).transcript = .ok m
        ∧ (Subject.forChallenge (.bytes [1]) (.bytes [2])
          (List.replicate 7 (.text (Text.of "AB"))) (.bytes [])).transcript = .ok m'
        ∧ m = m' := by
  have hof : ∀ digits label, spacedBytes (.text digits) = .ok [0xab] → item label = .ok [] →
      (Content.forChallenge ⟨[1], [2], List.replicate 7 [0xab], []⟩).Of
        (.forChallenge (.bytes [1]) (.bytes [2]) (List.replicate 7 (.text digits)) label) := by
    intro digits label hd hlabel
    refine ⟨rfl, rfl, ?_, hlabel⟩
    exact .cons hd (.cons hd (.cons hd (.cons hd (.cons hd (.cons hd (.cons hd .nil))))))
  have hshort : (Content.forChallenge ⟨[1], [2], List.replicate 7 [0xab], []⟩).IsShort := by
    unfold Content.IsShort
    decide
  obtain ⟨m, m', hm, hm', hiff⟩ := exists_transcripts_eq_iff (hof (Text.of "ab") .null rfl rfl)
    (hof (Text.of "AB") (.bytes []) rfl rfl) hshort hshort
  exact ⟨m, m', hm, hm', hiff.mpr rfl⟩

end Transcript
end VerifiableEscrow
