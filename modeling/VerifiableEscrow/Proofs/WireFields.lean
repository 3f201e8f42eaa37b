import VerifiableEscrow.Proofs.Base64RoundTrip
import VerifiableEscrow.Proofs.ElementAlgebra
import VerifiableEscrow.Wire.Opening

/-!
# Fields read back

A field is Base64 text, and there are three kinds: an element, an exponent and a label.  An
element comes back as the text that it was if that is spelled in lowercase, since its bytes do
not know about case.  An exponent comes back without a condition.

A label comes back with one exception.  The bytes `sentinel` are those whose Base64 text is the
word for no label, and they come back as no label.  As no other byte string has this text
(`labelOf_labelText`) the exception is the only one.
-/

namespace VerifiableEscrow

open scoped PrimeField Member

namespace Wire

/-! ## Elements -/

/-- A text that spells a valid element in lowercase, as compressing spells it. -/
structure IsCompressed (t : Text) : Prop where
  isElement : Element.isElement (.text t) = true
  lowercase : Hex.lower t = t

theorem isCompressed_compress (g : Member) : IsCompressed g.point.compress where
  isElement := (Element.encodes_compress g).isElement
  lowercase := Hex.lower_encode _

theorem isCompressed_generator : IsCompressed Element.generator := by
  rw [Element.generator, ← Member.point_generator]
  exact isCompressed_compress Member.generator

theorem fieldBytes_eq_ok_iff {field : Text} {name : String} {bs : Bytes} :
    fieldBytes field name = .ok bs ↔ Base64.decode? field = some bs := by
  unfold fieldBytes
  cases Base64.decode? field <;> simp

theorem fieldBytes_encode (bs : Bytes) (name : String) :
    fieldBytes (Base64.encode bs) name = .ok bs :=
  fieldBytes_eq_ok_iff.mpr (Base64.decode?_encode bs)

/-- A field of bytes whose digits are a valid element is read as these digits. -/
theorem element_of_digits {field : Text} {bs : Bytes} {t : Text}
    (hbytes : Base64.decode? field = some bs) (hdigits : Hex.encode bs = t)
    (h : Element.isElement (.text t) = true) (name : String) : element field name = .ok t := by
  refine Except.bind_eq_ok.mpr ⟨bs, fieldBytes_eq_ok_iff.mpr hbytes, ?_⟩
  dsimp only
  rw [hdigits, if_pos h]
  rfl

/-- **An element reads back** as it was spelled. -/
theorem IsCompressed.exists_bytes {t : Text} (h : IsCompressed t) :
    ∃ bs, bs.length = 48 ∧ elementText (.text t) = .ok (Base64.encode bs)
      ∧ ∀ name, element (Base64.encode bs) name = .ok t := by
  obtain ⟨g, hg⟩ := Element.isElement_iff.mp h.isElement
  obtain ⟨t', bs, htext, hbytes, hlength, hdigits, -⟩ := Element.exists_digits hg
  cases htext
  rw [h.lowercase] at hdigits
  refine ⟨bs, hlength, ?_, element_of_digits (Base64.decode?_encode bs) hdigits h.isElement⟩
  have hspaced : Transcript.spacedBytes (.text t) = .ok bs := by
    simp only [Transcript.spacedBytes, hbytes]
  rw [elementText, hspaced]
  rfl

/-! ## Exponents -/

theorem scalarText_toInt (x : Scalar) :
    scalarText (.int x.toInt) = .ok (Base64.encode (scalarBytes x.val)) := rfl

/-- A field of bytes is read as the exponent of their number, if that is below the group order. -/
theorem scalar_of_bytes {field : Text} {bs : Bytes} (h : Base64.decode? field = some bs)
    (hne : bs ≠ []) (name : String) : scalar field name
      = if hlt : BigEndian.toNat bs < groupOrder then .ok ⟨BigEndian.toNat bs, hlt⟩
        else .error (.wire (.notScalar name)) := by
  have hnonempty : ¬bs.isEmpty = true := by
    rwa [List.isEmpty_iff]
  unfold scalar
  rw [Except.bind_of_ok (fieldBytes_eq_ok_iff.mpr h), if_neg hnonempty]
  by_cases hlt : BigEndian.toNat bs < groupOrder
  · have hread : Scalar.ofInt? (BigEndian.toNat bs) = some ⟨BigEndian.toNat bs, hlt⟩ := dif_pos hlt
    rw [hread, dif_pos hlt]
    rfl
  · have hread : Scalar.ofInt? (BigEndian.toNat bs) = none := dif_neg hlt
    rw [hread, dif_neg hlt]
    rfl

/-- **An exponent reads back.** -/
theorem scalar_encode (x : Scalar) (name : String) :
    scalar (Base64.encode (scalarBytes x.val)) name = .ok x := by
  rw [scalar_of_bytes (Base64.decode?_encode _) (scalarBytes_ne_nil x.val)]
  simp [toNat_scalarBytes]

theorem length_scalarBytes_le (x : Scalar) : (scalarBytes x.val).length ≤ 32 := by
  unfold scalarBytes
  split
  · decide
  · next h =>
    have hbits : x.val.log2 < 256 := (Nat.log2_lt h).mpr (x.isLt.trans (by decide))
    rw [BigEndian.minimal, BigEndian.length_fixed, BigEndian.byteLength, if_neg h]
    omega

/-! ## Labels -/

/-- The bytes whose Base64 text is the word for no label. -/
def sentinel : Bytes := [0x35, 0x42, 0xCB]

/-- What arrives where a label was sent. -/
def arrivedLabel (label : Option Bytes) : Option Bytes :=
  if label = some sentinel then none else label

theorem encode_sentinel : Base64.encode sentinel = noLabel := by decide

theorem decode?_noLabel : Base64.decode? noLabel = some sentinel := by
  rw [← encode_sentinel, Base64.decode?_encode]

theorem labelText_eq (label : Option Bytes) :
    labelText label = Base64.encode (label.getD sentinel) := by
  cases label with
  | none => exact encode_sentinel.symm
  | some bs => rfl

/-- **A label reads back**, or as no label if it is the sentinel. -/
theorem labelOf_labelText (label : Option Bytes) :
    labelOf (labelText label) = .ok (arrivedLabel label) := by
  cases label with
  | none => rfl
  | some bs =>
    rw [labelText, labelOf, arrivedLabel]
    by_cases h : bs = sentinel
    · rw [h, if_pos encode_sentinel, if_pos rfl]
    · have hne : Base64.encode bs ≠ noLabel := by
        rw [← encode_sentinel]
        exact fun he => h (Base64.encode_injective he)
      rw [if_neg hne, if_neg fun he => h (Option.some.inj he), fieldBytes_encode]
      rfl

/-- A label that is read is the sentinel when it is spelled by the word for no label with padding
behind. -/
theorem labelOf_eq_sentinel_iff {info : Text} : labelOf info = .ok (some sentinel)
    ↔ ∃ n, info = noLabel ++ List.replicate (n + 1) (.char '=') := by
  have hdecode : Base64.decode? info = some sentinel
      ↔ ∃ padding, info = noLabel ++ List.replicate padding (.char '=') := by
    rw [← encode_sentinel]
    exact Base64.decode?_eq_some_iff_of_full (by decide) rfl
  have hlabel (hne : info ≠ noLabel) :
      labelOf info = .ok (some sentinel) ↔ Base64.decode? info = some sentinel := by
    rw [labelOf, if_neg hne, fieldBytes]
    cases Base64.decode? info <;> simp [Except.map]
  constructor
  · intro h
    have hne : info ≠ noLabel := by
      rintro rfl
      cases h
    obtain ⟨padding, hpadding⟩ := hdecode.mp ((hlabel hne).mp h)
    cases padding with
    | zero => exact absurd (hpadding.trans (List.append_nil _)) hne
    | succ n => exact ⟨n, hpadding⟩
  · rintro ⟨n, hn⟩
    have hne : info ≠ noLabel := by
      intro h
      have hlength := congrArg List.length (h.symm.trans hn)
      rw [List.length_append, List.length_replicate] at hlength
      omega
    exact (hlabel hne).mpr (hdecode.mpr ⟨n + 1, hn⟩)

end Wire
end VerifiableEscrow
