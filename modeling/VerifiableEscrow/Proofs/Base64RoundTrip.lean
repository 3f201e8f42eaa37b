import Mathlib.Data.List.TakeWhile
import VerifiableEscrow.Proofs.PlainText
import VerifiableEscrow.Text.Base64

/-!
# Base64 reads back

The text of a byte string is letters followed by padding.  The letters stand for values of six
bits, `sixes`, and reading splits the text where the padding begins, so it finds the letters
again, and packing their values finds the bytes.  Other texts read to these bytes as well, and
where no group is incomplete they differ in the amount of padding alone.

* `pack_sixes`, `sixes_pack`: on the values;
* `decode?_eq_some_iff`, `decode?_encode`: on the texts;
* `decode?_eq_some_iff_of_full`: the texts of bytes without an incomplete group;
* `encode_injective`: so two byte strings with one text are one;
* `isPlain_encode`: a text consists of printable ASCII characters that no carrier escapes;
* `length_encode`: four letters for three bytes.
-/

namespace VerifiableEscrow

namespace Base64

/-- The values of six bits that a byte string is cut into. -/
def sixes : Bytes → List Nat
  | [] => []
  | [a] => [a.toNat / 4, a.toNat % 4 * 16]
  | [a, b] => [a.toNat / 4, a.toNat % 4 * 16 + b.toNat / 16, b.toNat % 16 * 4]
  | a :: b :: c :: rest =>
      a.toNat / 4 :: (a.toNat % 4 * 16 + b.toNat / 16) :: (b.toNat % 16 * 4 + c.toNat / 64)
        :: c.toNat % 64 :: sixes rest

/-- How much padding a number of bytes needs. -/
def paddingOf (length : Nat) : Nat := (3 - length % 3) % 3

theorem paddingOf_add_three (length : Nat) : paddingOf (length + 3) = paddingOf length := by
  unfold paddingOf
  omega

theorem encodeChars_eq (bs : Bytes) :
    encodeChars bs = (sixes bs).map letter ++ List.replicate (paddingOf bs.length) '=' := by
  fun_induction encodeChars bs with
  | case1 => rfl
  | case2 a => rfl
  | case3 a b => rfl
  | case4 a b c rest ih =>
    have hpadding := paddingOf_add_three rest.length
    simp only [sixes, List.map_cons, List.cons_append, List.length_cons, hpadding, ih]

theorem sixes_lt {bs : Bytes} {n : Nat} (h : n ∈ sixes bs) : n < 64 := by
  induction bs using sixes.induct with
  | case1 => cases h
  | case2 a =>
    have ha := a.toNat_lt
    simp only [sixes, List.mem_cons, List.not_mem_nil, or_false] at h
    omega
  | case3 a b =>
    have ha := a.toNat_lt
    have hb := b.toNat_lt
    simp only [sixes, List.mem_cons, List.not_mem_nil, or_false] at h
    omega
  | case4 a b c rest ih =>
    have ha := a.toNat_lt
    have hb := b.toNat_lt
    have hc := c.toNat_lt
    simp only [sixes, List.mem_cons] at h
    rcases h with h | h | h | h | h
    · omega
    · omega
    · omega
    · omega
    · exact ih h

theorem ofNat_eq (b : UInt8) {n : Nat} (h : n % 256 = b.toNat) : UInt8.ofNat n = b := by
  apply UInt8.toNat_inj.mp
  rw [UInt8.toNat_ofNat']
  exact h

/-- The bytes are found again from their values of six bits. -/
theorem pack_sixes (bs : Bytes) : pack (sixes bs) = bs := by
  induction bs using sixes.induct with
  | case1 => rfl
  | case2 a =>
    have ha := a.toNat_lt
    simp only [sixes, pack]
    rw [ofNat_eq a (by omega)]
  | case3 a b =>
    have ha := a.toNat_lt
    have hb := b.toNat_lt
    simp only [sixes, pack]
    rw [ofNat_eq a (by omega), ofNat_eq b (by omega)]
  | case4 a b c rest ih =>
    have ha := a.toNat_lt
    have hb := b.toNat_lt
    have hc := c.toNat_lt
    simp only [sixes, pack, ih]
    rw [ofNat_eq a (by omega), ofNat_eq b (by omega), ofNat_eq c (by omega)]

theorem paddingFits_add_four {letters padding : Nat} (h : paddingFits letters padding = true) :
    paddingFits (letters + 4) padding = true := by
  unfold paddingFits at h ⊢
  rw [Nat.add_mod_right]
  split at h
  next => simp
  next => exact h
  next => exact h
  next => cases h

theorem paddingFits_sixes (bs : Bytes) :
    paddingFits (sixes bs).length (paddingOf bs.length) = true := by
  induction bs using sixes.induct with
  | case1 => rfl
  | case2 a => rfl
  | case3 a b => rfl
  | case4 a b c rest ih =>
    have hpadding := paddingOf_add_three rest.length
    simp only [sixes, List.length_cons, hpadding]
    exact paddingFits_add_four ih

/-- The values of full groups are found again from their bytes. -/
theorem sixes_pack : ∀ {ns : List Nat}, (∀ n ∈ ns, n < 64) → ns.length % 4 = 0 →
    sixes (pack ns) = ns
  | [], _, _ => rfl
  | [_], _, hfull => nomatch hfull
  | [_, _], _, hfull => nomatch hfull
  | [_, _, _], _, hfull => nomatch hfull
  | a :: b :: c :: d :: rest, h, hfull => by
    simp only [List.forall_mem_cons] at h
    obtain ⟨ha, hb, hc, hd, hrest⟩ := h
    have hrestfull : rest.length % 4 = 0 := by
      simp only [List.length_cons] at hfull
      omega
    simp only [pack, sixes, UInt8.toNat_ofNat', sixes_pack hrest hrestfull, List.cons.injEq,
      and_true]
    omega

/-- Values beyond the full groups make bytes beyond them. -/
theorem length_pack_mod : ∀ ns : List Nat, (pack ns).length % 3 = ns.length % 4 - 1
  | [] => rfl
  | [_] => rfl
  | [_, _] => rfl
  | [_, _, _] => rfl
  | a :: b :: c :: d :: rest => by
    have ih := length_pack_mod rest
    simp only [pack, List.length_cons]
    omega

/-- Letters that a padding fits fill whole groups if their bytes do: a single letter, which makes
no byte, is never left over. -/
theorem full_of_paddingFits {ns : List Nat} {padding : Nat}
    (hfits : paddingFits ns.length padding = true) (hfull : (pack ns).length % 3 = 0) :
    ns.length % 4 = 0 := by
  have hmod := length_pack_mod ns
  unfold paddingFits at hfits
  split at hfits
  next hzero => exact hzero
  next => omega
  next => omega
  next => cases hfits

theorem paddingFits_of_full {letters padding : Nat} (hgroups : letters % 4 = 0)
    (hne : letters ≠ 0) : paddingFits letters padding = true := by
  simp [paddingFits, hgroups, hne]

/-! ## Texts -/

theorem isPadding_letter {n : Nat} (h : n < 64) : isPadding (.char (letter n)) = false := by
  simp [isPadding, letter_ne_padding n h]

/-- The text of values of six bits, with padding behind. -/
def spelled (ns : List Nat) (padding : Nat) : Text :=
  ns.map (fun n => .char (letter n)) ++ List.replicate padding (.char '=')

/-- A text is its letters with the padding behind them. -/
theorem encode_eq (bs : Bytes) : encode bs = spelled (sixes bs) (paddingOf bs.length) := by
  rw [encode, encodeChars_eq, Text.ofChars_append, Text.ofChars, Text.ofChars, List.map_map,
    List.map_replicate]
  rfl

theorem toNat_lt_of_charValue? {c : Char} {n : Nat} (h : charValue? c = some n) :
    c.toNat < 128 := by
  unfold charValue? at h
  split_ifs at h with h1 h2 h3 h4 h5
  · exact Nat.lt_of_le_of_lt (Text.toNat_le_toNat h1.2) (by decide)
  · exact Nat.lt_of_le_of_lt (Text.toNat_le_toNat h2.2) (by decide)
  · exact Nat.lt_of_le_of_lt (Text.toNat_le_toNat h3.2) (by decide)
  · rw [h4]
    decide
  · rw [h5]
    decide

theorem letter_charValue? : ∀ m < 128, ∀ n ∈ charValue? (Char.ofNat m),
    n < 64 ∧ letter n = Char.ofNat m := by decide

/-- What has a value is the letter of that value. -/
theorem letter_of_value? {p : CodePoint} {n : Nat} (h : value? p = some n) :
    n < 64 ∧ p = .char (letter n) := by
  cases p with
  | char c =>
    have hc := letter_charValue? c.toNat (toNat_lt_of_charValue? h)
    rw [Char.ofNat_toNat] at hc
    exact ⟨(hc n h).1, congrArg CodePoint.char (hc n h).2.symm⟩
  | half s => cases h

/-- The texts that have values are the letters of these. -/
theorem mapM_value?_eq_some {t : Text} {ns : List Nat} :
    t.mapM value? = some ns ↔ (∀ n ∈ ns, n < 64) ∧ t = ns.map fun n => .char (letter n) := by
  constructor
  · intro h
    induction t generalizing ns with
    | nil =>
      cases h
      exact ⟨fun n hn => (nomatch hn), rfl⟩
    | cons p t ih =>
      rw [List.mapM_cons, Option.bind_eq_bind, Option.bind_eq_some_iff] at h
      obtain ⟨n, hn, h⟩ := h
      rw [Option.bind_eq_bind, Option.bind_eq_some_iff] at h
      obtain ⟨rest, hrest, h⟩ := h
      cases h
      obtain ⟨hlt, rfl⟩ := letter_of_value? hn
      obtain ⟨hrestlt, rfl⟩ := ih hrest
      exact ⟨List.forall_mem_cons.mpr ⟨hlt, hrestlt⟩, rfl⟩
  · rintro ⟨h, rfl⟩
    induction ns with
    | nil => rfl
    | cons n ns ih =>
      obtain ⟨hn, hns⟩ := List.forall_mem_cons.mp h
      have hvalue : value? (.char (letter n)) = some n := charValue?_letter n hn
      simp only [List.map_cons, List.mapM_cons, hvalue, ih hns, Option.bind_eq_bind,
        Option.bind_some, Option.pure_def]

/-- The letters end where the padding begins. -/
theorem takeWhile_spelled {ns : List Nat} (h : ∀ n ∈ ns, n < 64) (padding : Nat) :
    (spelled ns padding).takeWhile (fun p => !isPadding p)
      = ns.map fun n => .char (letter n) := by
  have hletters : ∀ p ∈ ns.map (fun n => CodePoint.char (letter n)), (!isPadding p) = true := by
    intro p hp
    obtain ⟨n, hn, rfl⟩ := List.mem_map.mp hp
    rw [isPadding_letter (h n hn)]
    rfl
  have hpadding : (List.replicate padding (CodePoint.char '=')).takeWhile
      (fun p => !isPadding p) = [] := by
    cases padding with
    | zero => rfl
    | succ n => rfl
  rw [spelled, List.takeWhile_append_of_pos hletters, hpadding, List.append_nil]

theorem drop_spelled (ns : List Nat) (padding : Nat) :
    (spelled ns padding).drop ns.length = List.replicate padding (.char '=') := by
  rw [spelled, List.drop_append_of_le_length (by rw [List.length_map]),
    List.drop_eq_nil_of_le (by rw [List.length_map]), List.nil_append]

theorem all_isPadding_iff {t : Text} :
    t.all isPadding = true ↔ t = List.replicate t.length (.char '=') := by
  rw [List.all_eq_true, List.eq_replicate_iff]
  simp [isPadding]

/-- **The texts that read** are letters with padding that fits. -/
theorem decode?_eq_some_iff {t : Text} {bs : Bytes} :
    decode? t = some bs ↔ ∃ ns padding, (∀ n ∈ ns, n < 64) ∧ t = spelled ns padding
      ∧ paddingFits ns.length padding = true ∧ pack ns = bs := by
  constructor
  · intro h
    unfold decode? at h
    simp only [Option.bind_eq_bind, Option.bind_eq_some_iff, Option.ite_none_right_eq_some,
      Bool.and_eq_true, Option.some.injEq] at h
    obtain ⟨ns, hns, ⟨hpadding, hfits⟩, hpack⟩ := h
    obtain ⟨hlt, hletters⟩ := mapM_value?_eq_some.mp hns
    rw [hletters, List.length_map] at hpadding hfits
    refine ⟨ns, _, hlt, ?_, hfits, hpack⟩
    have hsplit := List.prefix_iff_eq_append.mp
      (List.takeWhile_prefix (fun p => !isPadding p) (l := t))
    rw [hletters, List.length_map] at hsplit
    rw [spelled, ← all_isPadding_iff.mp hpadding, hsplit]
  · rintro ⟨ns, padding, hlt, rfl, hfits, rfl⟩
    have hvalues := mapM_value?_eq_some.mpr ⟨hlt, rfl⟩
    have hall : (List.replicate padding (CodePoint.char '=')).all isPadding = true :=
      all_isPadding_iff.mpr (by rw [List.length_replicate])
    unfold decode?
    simp only [takeWhile_spelled hlt, List.length_map, drop_spelled, hvalues, hall, hfits,
      List.length_replicate, Bool.and_self, if_true, Option.bind_eq_bind, Option.bind_some]

theorem decode?_encode (bs : Bytes) : decode? (encode bs) = some bs :=
  decode?_eq_some_iff.mpr ⟨_, _, fun _ => sixes_lt, encode_eq bs, paddingFits_sixes bs,
    pack_sixes bs⟩

theorem spelled_append_padding (ns : List Nat) (padding : Nat) :
    spelled ns 0 ++ List.replicate padding (.char '=') = spelled ns padding := by
  rw [spelled, spelled, List.replicate_zero, List.append_nil]

/-- The texts of bytes that fill whole groups differ in the amount of padding, and any will do. -/
theorem decode?_eq_some_iff_of_full {t : Text} {bs : Bytes} (hne : bs ≠ [])
    (hfull : bs.length % 3 = 0) :
    decode? t = some bs ↔ ∃ padding, t = encode bs ++ List.replicate padding (.char '=') := by
  have hunpadded : encode bs = spelled (sixes bs) 0 := by
    rw [encode_eq, paddingOf, hfull]
  simp only [hunpadded, spelled_append_padding, decode?_eq_some_iff]
  constructor
  · rintro ⟨ns, padding, hlt, rfl, hfits, rfl⟩
    exact ⟨padding, by rw [sixes_pack hlt (full_of_paddingFits hfits hfull)]⟩
  · rintro ⟨padding, rfl⟩
    have hletters : (sixes bs).length ≠ 0 := by
      rw [Ne, List.length_eq_zero_iff]
      intro hnil
      rw [← pack_sixes bs, hnil] at hne
      exact hne rfl
    rw [← pack_sixes bs] at hfull
    have hgroups := full_of_paddingFits (paddingFits_sixes bs) hfull
    exact ⟨sixes bs, padding, fun _ => sixes_lt, rfl, paddingFits_of_full hgroups hletters,
      pack_sixes bs⟩

theorem encode_injective : Function.Injective encode := by
  intro bs bs' h
  have hread := decode?_encode bs
  rw [h, decode?_encode] at hread
  exact (Option.some.inj hread).symm

theorem isPlain_letter : ∀ n < 64, 32 ≤ (letter n).toNat ∧ (letter n).toNat ≤ 126
    ∧ letter n ≠ '"' ∧ letter n ≠ '\\' := by decide

theorem isPlain_encode (bs : Bytes) : (encode bs).IsPlain := by
  intro p hp
  rw [encode_eq, spelled, List.mem_append] at hp
  rcases hp with hp | hp
  · obtain ⟨n, hn, rfl⟩ := List.mem_map.mp hp
    exact ⟨letter n, rfl, isPlain_letter n (sixes_lt hn)⟩
  · rw [List.eq_of_mem_replicate hp]
    exact ⟨'=', rfl, by decide⟩

theorem length_encode (bs : Bytes) : (encode bs).length = 4 * ((bs.length + 2) / 3) := by
  rw [encode, Text.length_ofChars]
  fun_induction encodeChars bs with
  | case1 => rfl
  | case2 a => simp
  | case3 a b => simp
  | case4 a b c rest ih =>
    simp only [List.length_cons, ih]
    omega

end Base64
end VerifiableEscrow
