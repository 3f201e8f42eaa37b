import Mathlib.Data.List.Perm.Basic
import VerifiableEscrow.Cbor.Reader
import VerifiableEscrow.Cbor.Writer
import VerifiableEscrow.Proofs.Mappings
import VerifiableEscrow.Proofs.PlainText

/-!
# Canonical CBOR reads back

Canonical writing puts the entries of a mapping in an order of its own, so what is read is not
the mapping that was written but one with the same entries.  `Carried depth v w` says that `v`
has an encoding, which is read as `w` in front of anything and with room for `depth` brackets.

* `isHead_head`: the first bytes of an item read back, for every size of eight bytes;
* `carried_text`, `carried_dict`: what is carried, and as what;
* `read?_of_reads`: a byte string that is one item is read as it.

As in JSON the fuel of the reader is accounted for by the length of what is read.
-/

namespace VerifiableEscrow
namespace Cbor

/-! ## Sizes -/

/-- A piece of known length is taken off the front. -/
theorem take?_append (bs rest : Bytes) : take? bs.length (bs ++ rest) = some (bs, rest) := by
  rw [take?, if_pos (by rw [List.length_append]; omega), List.take_left, List.drop_left]

/-- Bytes at the front of an item that give its major type and its size. -/
def IsHead (major n : Nat) (bs : Bytes) : Prop :=
  ∃ b digits, bs = b :: digits ∧ b.toNat / 32 = major
    ∧ ∀ rest, size? (b.toNat % 32) (digits ++ rest) = some (.given n, rest)

theorem isHead_cons {major low n : Nat} {digits : Bytes} (hmajor : major < 8) (hlow : low < 32)
    (hsize : ∀ rest, size? low (digits ++ rest) = some (.given n, rest)) :
    IsHead major n (UInt8.ofNat (major * 32 + low) :: digits) := by
  have hbyte : (UInt8.ofNat (major * 32 + low)).toNat = major * 32 + low := by
    rw [UInt8.toNat_ofNat']
    omega
  refine ⟨_, digits, rfl, ?_, ?_⟩
  · rw [hbyte]
    omega
  · intro rest
    rw [hbyte, show (major * 32 + low) % 32 = low by omega]
    exact hsize rest

theorem size?_small {n : Nat} (h : n < 24) (bs : Bytes) : size? n bs = some (.given n, bs) := by
  unfold size?
  split
  case h_6 => rw [if_pos h]
  all_goals omega

/-- A size that stands in bytes of its own. -/
theorem take?_fixed {width n : Nat} (h : n < BigEndian.capacity width) (rest : Bytes) :
    (do let (digits, rest) ← take? width (BigEndian.fixed width n ++ rest)
        some (Size.given (BigEndian.toNat digits), rest)) = some (.given n, rest) := by
  have htake := take?_append (BigEndian.fixed width n) rest
  rw [BigEndian.length_fixed] at htake
  rw [htake, Option.bind_eq_bind, Option.bind_some]
  simp only [BigEndian.toNat_fixed, Nat.mod_eq_of_lt h]

/-- **The first bytes of an item** read back. -/
theorem isHead_head {major n : Nat} (hmajor : major < 8) (hn : n < BigEndian.capacity 8) :
    IsHead major n (head major n) := by
  unfold head
  dsimp only
  split_ifs with h0 h1 h2 h4
  · exact isHead_cons hmajor (by omega) (size?_small h0)
  · exact isHead_cons hmajor (by decide) (take?_fixed h1)
  · exact isHead_cons hmajor (by decide) (take?_fixed h2)
  · exact isHead_cons hmajor (by decide) (take?_fixed h4)
  · exact isHead_cons hmajor (by decide) (take?_fixed hn)

/-! ## Items -/

/-- Bytes that are read as a value, in front of anything, where there is room for some
brackets. -/
def Reads (depth : Nat) (bs : Bytes) (w : Value) : Prop :=
  ∀ fuel room rest, 2 * bs.length < fuel → depth ≤ room →
    item? fuel room (bs ++ rest) = some (w, rest)

/-- A value that has an encoding, which is read as a value again. -/
def Carried (depth : Nat) (v w : Value) : Prop := ∃ bs, write? v = some bs ∧ Reads depth bs w

theorem Reads.length_pos {depth : Nat} {bs : Bytes} {w : Value} (h : Reads depth bs w) :
    0 < bs.length := by
  refine List.length_pos_of_ne_nil ?_
  rintro rfl
  have hread := h 1 depth [] Nat.one_pos (Nat.le_refl depth)
  rw [List.append_nil, item?] at hread
  cases hread

theorem Reads.mono {depth depth' : Nat} {bs : Bytes} {w : Value} (h : Reads depth bs w)
    (hle : depth ≤ depth') : Reads depth' bs w :=
  fun fuel room rest hfuel hroom => h fuel room rest hfuel (Nat.le_trans hle hroom)

theorem Carried.mono {depth depth' : Nat} {v w : Value} (h : Carried depth v w)
    (hle : depth ≤ depth') : Carried depth' v w := by
  obtain ⟨bs, hwrite, hread⟩ := h
  exact ⟨bs, hwrite, hread.mono hle⟩

theorem reads_text {t : Text} (h : t.IsFileSafe) (hshort : t.length < BigEndian.capacity 8) :
    Reads 0 (head 3 (Utf8.encode t).length ++ Utf8.encode t) (.text t) := by
  intro fuel room rest hfuel _
  obtain ⟨fuel, rfl⟩ := Nat.exists_eq_succ_of_ne_zero (Nat.ne_zero_of_lt hfuel)
  have hlength : (Utf8.encode t).length < BigEndian.capacity 8 := by
    rw [h.length_encode]
    exact hshort
  obtain ⟨b, digits, hhead, hmajor, hsize⟩ := isHead_head (show 3 < 8 by decide) hlength
  rw [hhead, List.cons_append, List.cons_append, List.append_assoc, item?]
  simp only [hmajor, hsize, Option.bind_eq_bind, Option.bind_some, string?, take?_append,
    List.mapM_cons, List.mapM_nil, h.decode?_encode]
  simp

theorem carried_text {t : Text} (h : t.IsFileSafe) (hshort : t.length < BigEndian.capacity 8) :
    Carried 0 (.text t) (.text t) :=
  ⟨_, by rw [write?], reads_text h hshort⟩

/-! ## Mappings -/

theorem placeEntry_perm (entry : Bytes × Bytes) (es : List (Bytes × Bytes)) :
    (placeEntry entry es).Perm (entry :: es) := by
  induction es with
  | nil => exact List.Perm.refl _
  | cons other rest ih =>
    rw [placeEntry]
    split
    · exact List.Perm.refl _
    · exact (ih.cons other).trans (List.Perm.swap entry other rest)

/-- Canonical order changes nothing but the order. -/
theorem sortEntries_perm (es : List (Bytes × Bytes)) : (sortEntries es).Perm es := by
  induction es with
  | nil => exact List.Perm.refl _
  | cons e es ih => exact (placeEntry_perm e (sortEntries es)).trans (ih.cons e)

/-- An encoded entry is read as an entry. -/
def EntryReads (depth : Nat) (e : Text × Value) (encoded : Bytes × Bytes) : Prop :=
  Reads 0 encoded.1 (.text e.1) ∧ Reads depth encoded.2 e.2

/-- Entries are read one after another and put behind those that are there. -/
theorem entries?_reads {depth : Nat} {es : List (Text × Value)} {encoded : List (Bytes × Bytes)}
    (h : List.Forall₂ (EntryReads depth) es encoded) (front : List (Text × Value))
    (hnodup : ((front ++ es).map Prod.fst).Nodup) {fuel room : Nat} (rest : Bytes)
    (hfuel : 2 * (encoded.flatMap fun e => e.1 ++ e.2).length < fuel) (hroom : depth ≤ room) :
    entries? fuel room es.length (Value.ofEntries front)
        ((encoded.flatMap fun e => e.1 ++ e.2) ++ rest)
      = some (Value.ofEntries (front ++ es), rest) := by
  -- The entries read so far go into `front`; an entry has a byte in its key and one in its
  -- content, which pays for the step.
  induction h generalizing front fuel with
  | nil =>
    rw [List.append_nil, List.length_nil, List.flatMap_nil, List.nil_append, entries?]
  | @cons e code es encoded he _ ih =>
    obtain ⟨key, v⟩ := e
    have hkey := he.1.length_pos
    have hvalue := he.2.length_pos
    simp only [List.flatMap_cons, List.length_append] at hfuel
    obtain ⟨fuel, rfl⟩ := Nat.exists_eq_succ_of_ne_zero (Nat.ne_zero_of_lt hfuel)
    have hfresh := Value.fresh_of_nodup hnodup
    rw [List.length_cons, List.flatMap_cons, List.append_assoc, List.append_assoc, entries?,
      he.1 fuel room _ (by omega) (Nat.zero_le room)]
    simp only [Option.bind_eq_bind, Option.bind_some]
    rw [he.2 fuel room _ (by omega) hroom]
    simp only [Option.bind_some]
    rw [Value.insert_ofEntries hfresh, ih (front ++ [(key, v)]) _ (by omega)]
    · rw [List.append_assoc, List.singleton_append]
    · rw [List.append_assoc, List.singleton_append]
      exact hnodup

/-- An entry that is carried as another one with the same key. -/
structure EntryCarried (depth : Nat) (e e' : Text × Value) : Prop where
  sameKey : e.1 = e'.1
  keySafe : e.1.IsFileSafe
  keyShort : e.1.length < BigEndian.capacity 8
  content : Carried depth e.2 e'.2

theorem exists_encoded {depth : Nat} {es es' : List (Text × Value)}
    (h : List.Forall₂ (EntryCarried depth) es es') :
    ∃ encoded, writeEntries? (Value.ofEntries es) = some encoded
      ∧ List.Forall₂ (EntryReads depth) es' encoded := by
  induction h with
  | nil => exact ⟨[], by rw [Value.ofEntries, List.map_nil, writeEntries?], .nil⟩
  | @cons e e' es es' he _ ih =>
    obtain ⟨encoded, hwrite, hreads⟩ := ih
    obtain ⟨bs, hbs, hread⟩ := he.content
    have hkey := reads_text he.keySafe he.keyShort
    refine ⟨(head 3 (Utf8.encode e.1).length ++ Utf8.encode e.1, bs) :: encoded, ?_, ?_⟩
    · rw [Value.ofEntries_cons, writeEntries?, write?]
      simp only [Option.bind_eq_bind, Option.bind_some, hbs, hwrite]
    · refine .cons ⟨?_, hread⟩ hreads
      rw [← he.sameKey]
      exact hkey

/-- **A mapping is carried** as one with the same entries, in the order of their encoded keys. -/
theorem carried_dict {depth : Nat} {es es' : List (Text × Value)}
    (h : List.Forall₂ (EntryCarried depth) es es') (hnodup : (es'.map Prod.fst).Nodup)
    (hfew : es.length < BigEndian.capacity 8) :
    ∃ es'', es''.Perm es' ∧
      Carried (depth + 1) (.dict (Value.ofEntries es)) (.dict (Value.ofEntries es'')) := by
  obtain ⟨encoded, hwrite, hreads⟩ := exists_encoded h
  -- Sorting moves encoded entries, and the entries that they are read as move with them.
  obtain ⟨es'', hperm, hsorted⟩ :
      ∃ es'', es''.Perm es' ∧ List.Forall₂ (EntryReads depth) es'' (sortEntries encoded) := by
    obtain ⟨es'', hsorted, hperm⟩ :=
      List.perm_comp_forall₂ (sortEntries_perm encoded) hreads.flip
    exact ⟨es'', hperm, hsorted.flip⟩
  have hcount : es''.length = es.length := hperm.length_eq.trans h.length_eq.symm
  have hnodup' : (es''.map Prod.fst).Nodup := (hperm.map Prod.fst).nodup_iff.mpr hnodup
  refine ⟨es'', hperm, head 5 es.length ++ (sortEntries encoded).flatMap fun e => e.1 ++ e.2,
    ?_, ?_⟩
  · rw [write?, hwrite, Value.length_ofEntries]
    rfl
  · intro fuel room rest hfuel hroom
    obtain ⟨b, digits, hhead, hmajor, hsize⟩ := isHead_head (show 5 < 8 by decide) hfew
    rw [hhead] at hfuel ⊢
    simp only [List.length_append, List.length_cons] at hfuel
    obtain ⟨fuel, rfl⟩ := Nat.exists_eq_succ_of_ne_zero (Nat.ne_zero_of_lt hfuel)
    obtain ⟨room, rfl⟩ := Nat.exists_eq_add_of_le' (Nat.le_trans (Nat.le_add_left 1 depth) hroom)
    have hentries : entries? fuel room es''.length (Value.ofEntries [])
        (((sortEntries encoded).flatMap fun e => e.1 ++ e.2) ++ rest)
          = some (Value.ofEntries es'', rest) :=
      entries?_reads hsorted [] hnodup' rest (by omega) (by omega)
    rw [hcount] at hentries
    rw [List.cons_append, List.cons_append, List.append_assoc, item?]
    simp only [hmajor, hsize, Option.bind_eq_bind, Option.bind_some]
    rw [show ([] : List (Value × Value)) = Value.ofEntries [] from rfl, hentries]
    rfl

/-- A byte string that is one item is read as it. -/
theorem read?_of_reads {depth : Nat} {bs : Bytes} {w : Value} (h : Reads depth bs w)
    (hdepth : depth ≤ depthLimit) : read? bs = some w := by
  have hread := h (2 * bs.length + 2) depthLimit [] (by omega) hdepth
  rw [List.append_nil] at hread
  rw [read?, hread]
  rfl

end Cbor
end VerifiableEscrow
