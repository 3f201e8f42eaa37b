import VerifiableEscrow.Escrow
import VerifiableEscrow.Proofs.ElementAlgebra

/-!
# What a transcript determines

A transcript is a tag followed by items, each behind four bytes with its length.  The length
says where an item ends, so the items can be read off again one after another, and two lists of
items with the same transcript are the same list, whatever the items are and however many.

* `append_framedBytes_inj`: one item is read off;
* `flatten_framedBytes_injective`: all of them are;
* `build_eq_ok`: a transcript exists exactly when every item has bytes and all are short enough;
* `challengeTranscript_eq_ok` and `ChallengeItems.transcript_injective`: the same for the
  transcript of a challenge, whose elements are given as text.
-/

namespace VerifiableEscrow
namespace Transcript

/-! ## Reading items off -/

/-- An item is short when its length fits into the four bytes in front of it. -/
def Short (bs : Bytes) : Prop := bs.length < BigEndian.capacity 4

instance decidableShort (bs : Bytes) : Decidable (Short bs) :=
  inferInstanceAs (Decidable (bs.length < BigEndian.capacity 4))

/-- A short item behind its length. -/
def framedBytes (bs : Bytes) : Bytes := BigEndian.fixed 4 bs.length ++ bs

theorem frame_eq_ok {bs out : Bytes} : frame bs = .ok out ↔ Short bs ∧ framedBytes bs = out := by
  unfold frame Short framedBytes
  split_ifs with h <;> simp [h]

theorem framedBytes_ne_nil (bs : Bytes) : framedBytes bs ≠ [] := by
  intro h
  have hlength := congrArg List.length h
  rw [framedBytes, List.length_append, BigEndian.length_fixed, List.length_nil] at hlength
  omega

/-- An item is read off the front: first its length, then as many bytes. -/
theorem append_framedBytes_inj {bs bs' rest rest' : Bytes} (hbs : Short bs) (hbs' : Short bs')
    (h : framedBytes bs ++ rest = framedBytes bs' ++ rest') : bs = bs' ∧ rest = rest' := by
  rw [framedBytes, framedBytes, List.append_assoc, List.append_assoc] at h
  obtain ⟨hfront, hback⟩ := List.append_inj h (by rw [BigEndian.length_fixed,
    BigEndian.length_fixed])
  have hlength : bs.length = bs'.length := by
    have hnumber := congrArg BigEndian.toNat hfront
    rwa [BigEndian.toNat_fixed, BigEndian.toNat_fixed, Nat.mod_eq_of_lt hbs,
      Nat.mod_eq_of_lt hbs'] at hnumber
  exact List.append_inj hback hlength

/-- The items of a transcript are read off one after another. -/
theorem flatten_framedBytes_injective {items items' : List Bytes}
    (hitems : ∀ bs ∈ items, Short bs) (hitems' : ∀ bs ∈ items', Short bs)
    (h : (items.map framedBytes).flatten = (items'.map framedBytes).flatten) :
    items = items' := by
  induction items generalizing items' with
  | nil =>
    cases items' with
    | nil => rfl
    | cons bs' rest' =>
      have hnil := List.append_eq_nil_iff.mp h.symm
      exact absurd hnil.1 (framedBytes_ne_nil bs')
  | cons bs rest ih =>
    cases items' with
    | nil =>
      have hnil := List.append_eq_nil_iff.mp h
      exact absurd hnil.1 (framedBytes_ne_nil bs)
    | cons bs' rest' =>
      obtain ⟨rfl, hrest⟩ := append_framedBytes_inj (hitems bs List.mem_cons_self)
        (hitems' bs' List.mem_cons_self) h
      rw [ih (fun b hb => hitems b (List.mem_cons_of_mem bs hb))
        (fun b hb => hitems' b (List.mem_cons_of_mem bs hb)) hrest]

/-! ## Building -/

/-- A value gives an item when it has these bytes and they are short. -/
def Gives (v : Value) (bs : Bytes) : Prop := item v = .ok bs ∧ Short bs

theorem framed_eq_ok {v : Value} {out : Bytes} :
    framed v = .ok out ↔ ∃ bs, Gives v bs ∧ framedBytes bs = out := by
  rw [framed, Except.bind_eq_ok]
  simp only [frame_eq_ok, Gives, and_assoc]

theorem mapM_framed_eq_ok {items : List Value} {frames : List Bytes} :
    items.mapM framed = .ok frames
      ↔ ∃ raw, List.Forall₂ Gives items raw ∧ raw.map framedBytes = frames := by
  rw [Except.mapM_eq_ok]
  constructor
  · intro h
    induction h with
    | nil => exact ⟨[], .nil, rfl⟩
    | cons hv _ ih =>
      obtain ⟨bs, hbs, rfl⟩ := framed_eq_ok.mp hv
      obtain ⟨raw, hraw, rfl⟩ := ih
      exact ⟨bs :: raw, .cons hbs hraw, rfl⟩
  · rintro ⟨raw, hraw, rfl⟩
    rw [List.forall₂_map_right_iff]
    exact hraw.imp fun v bs hv => framed_eq_ok.mpr ⟨bs, hv, rfl⟩

/-- A transcript exists exactly when every value gives an item. -/
theorem build_eq_ok {tag : Bytes} {items : List Value} {m : Bytes} :
    build tag items = .ok m
      ↔ ∃ raw, List.Forall₂ Gives items raw ∧ tag ++ (raw.map framedBytes).flatten = m := by
  rw [build, Except.bind_eq_ok]
  simp only [mapM_framed_eq_ok]
  constructor
  · rintro ⟨frames, ⟨raw, hraw, rfl⟩, h⟩
    exact ⟨raw, hraw, Except.ok.inj h⟩
  · rintro ⟨raw, hraw, rfl⟩
    exact ⟨_, ⟨raw, hraw, rfl⟩, rfl⟩

theorem forall₂_gives_iff {items : List Value} {raw : List Bytes} :
    List.Forall₂ Gives items raw
      ↔ List.Forall₂ (fun v bs => item v = .ok bs) items raw ∧ ∀ bs ∈ raw, Short bs := by
  constructor
  · intro h
    induction h with
    | nil => exact ⟨.nil, fun bs hbs => absurd hbs List.not_mem_nil⟩
    | cons hv _ ih => exact ⟨.cons hv.1 ih.1, List.forall_mem_cons.mpr ⟨hv.2, ih.2⟩⟩
  · rintro ⟨h, hshort⟩
    induction h with
    | nil => exact .nil
    | cons hv _ ih =>
      obtain ⟨hbs, hrest⟩ := List.forall_mem_cons.mp hshort
      exact .cons ⟨hv, hbs⟩ (ih hrest)

end Transcript

namespace Escrow

open Transcript

/-! ## The transcript of a challenge -/

/-- The items of a challenge's transcript. -/
structure ChallengeItems where
  uid : Bytes
  token : Bytes
  points : List Bytes
  label : Bytes

namespace ChallengeItems

/-- The items in their order. -/
def toList (items : ChallengeItems) : List Bytes :=
  items.uid :: items.token :: items.points ++ [items.label]

/-- The bytes that the items are hashed as. -/
def transcript (items : ChallengeItems) : Bytes :=
  challengeTag ++ (items.toList.map framedBytes).flatten

/-- The items are those of an identifier, a token, elements and a label. -/
structure Of (items : ChallengeItems) (uid tokenId : Value) (elements : List Value)
    (label : Value) : Prop where
  uid : item uid = .ok items.uid
  token : item tokenId = .ok items.token
  points : List.Forall₂ (fun v bs => spacedBytes v = .ok bs) elements items.points
  label : item label = .ok items.label

theorem toList_injective : Function.Injective toList := by
  rintro ⟨uid, token, points, label⟩ ⟨uid', token', points', label'⟩ h
  simp only [toList, List.cons_append, List.cons.injEq] at h
  obtain ⟨rfl, rfl, hback⟩ := h
  obtain ⟨rfl, hlabel⟩ := List.append_inj' hback rfl
  rw [List.singleton_inj.mp hlabel]

/-- The items can be read off their transcript. -/
theorem transcript_injective {items items' : ChallengeItems}
    (hitems : ∀ bs ∈ items.toList, Short bs) (hitems' : ∀ bs ∈ items'.toList, Short bs)
    (h : items.transcript = items'.transcript) : items = items' :=
  toList_injective
    (flatten_framedBytes_injective hitems hitems' (List.append_cancel_left h))

theorem Of.forall₂_item {items : ChallengeItems} {uid tokenId label : Value}
    {elements : List Value} (h : items.Of uid tokenId elements label) :
    List.Forall₂ (fun v bs => item v = .ok bs)
      (uid :: tokenId :: items.points.map Value.bytes ++ [label]) items.toList := by
  refine .cons h.uid (.cons h.token (List.rel_append ?_ (.cons h.label .nil)))
  rw [List.forall₂_map_left_iff]
  exact List.forall₂_same.mpr fun bs _ => rfl

end ChallengeItems

/-- Items that are bytes already are found as they are. -/
theorem exists_eq_append_of_item {points raw : List Bytes} {label : Value}
    (h : List.Forall₂ (fun v bs => item v = .ok bs) (points.map Value.bytes ++ [label]) raw) :
    ∃ bs, item label = .ok bs ∧ raw = points ++ [bs] := by
  induction points generalizing raw with
  | nil =>
    obtain ⟨bs, _, hbs, hnil, rfl⟩ := List.forall₂_cons_left_iff.mp h
    rw [List.forall₂_nil_left_iff.mp hnil]
    exact ⟨bs, hbs, rfl⟩
  | cons point points ih =>
    obtain ⟨_, _, hpoint, hrest, rfl⟩ := List.forall₂_cons_left_iff.mp h
    obtain ⟨bs, hbs, rfl⟩ := ih hrest
    exact ⟨bs, hbs, by rw [← Except.ok.inj hpoint]; rfl⟩

/-- A challenge has a transcript exactly when it has items and all are short. -/
theorem challengeTranscript_eq_ok {uid tokenId label : Value} {elements : List Value}
    {m : Bytes} :
    challengeTranscript uid tokenId elements label = .ok m
      ↔ ∃ items : ChallengeItems, items.Of uid tokenId elements label
          ∧ (∀ bs ∈ items.toList, Short bs) ∧ items.transcript = m := by
  rw [challengeTranscript, Except.bind_eq_ok]
  constructor
  · rintro ⟨points, hpoints, hbuild⟩
    obtain ⟨raw, hraw, rfl⟩ := build_eq_ok.mp hbuild
    obtain ⟨hitems, hshort⟩ := forall₂_gives_iff.mp hraw
    obtain ⟨uidBytes, _, huid, hrest, rfl⟩ := List.forall₂_cons_left_iff.mp hitems
    obtain ⟨tokenBytes, _, htoken, hback, rfl⟩ := List.forall₂_cons_left_iff.mp hrest
    obtain ⟨labelBytes, hlabel, rfl⟩ := exists_eq_append_of_item hback
    exact ⟨⟨uidBytes, tokenBytes, points, labelBytes⟩,
      ⟨huid, htoken, Except.mapM_eq_ok.mp hpoints, hlabel⟩, hshort, rfl⟩
  · rintro ⟨items, hitems, hshort, rfl⟩
    refine ⟨items.points, Except.mapM_eq_ok.mpr hitems.points, build_eq_ok.mpr ?_⟩
    exact ⟨items.toList, forall₂_gives_iff.mpr ⟨hitems.forall₂_item, hshort⟩, rfl⟩

/-- A missing label is hashed like an empty one. -/
theorem challengeTranscript_label_none (uid tokenId : Value) (elements : List Value) :
    challengeTranscript uid tokenId elements .null
      = challengeTranscript uid tokenId elements (.bytes []) := by
  have hframed : framed .null = framed (.bytes []) := rfl
  simp only [challengeTranscript, build, List.mapM_append, List.mapM_cons, hframed]

end Escrow
end VerifiableEscrow
