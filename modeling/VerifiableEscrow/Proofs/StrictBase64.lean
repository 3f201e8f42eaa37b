import VerifiableEscrow.Number.BigEndian
import VerifiableEscrow.Proofs.Base64RoundTrip

/-!
# Strict Base64 as a grammar

What a strict reader takes for Base64 is said here without a reader.  Four letters are a number of
twenty-four bits, and these are three bytes.  The last group may fall short of four letters, and
then padding fills it up.  Behind complete groups padding is not needed, but it passes, in any
amount.

The relation `Strict` holds between a text and its bytes.  It is proved to be what the reader
decides: `decode?_eq_some_iff_strict`.
-/

namespace VerifiableEscrow
namespace Base64

/-! ## The grammar -/

/-- The letters in the order of their values. -/
def alphabet : List Char :=
  "ABCDEFGHIJKLMNOPQRSTUVWXYZabcdefghijklmnopqrstuvwxyz0123456789+/".toList

/-- A code point is the letter of a value. -/
def Spells (p : CodePoint) (n : ℕ) : Prop := ∃ c, alphabet[n]? = some c ∧ p = .char c

theorem alphabet_eq : alphabet = (List.range 64).map letter := by decide

theorem spells_iff {p : CodePoint} {n : ℕ} : Spells p n ↔ n < 64 ∧ p = .char (letter n) := by
  have hletter : ∀ c, alphabet[n]? = some c ↔ n < 64 ∧ c = letter n := fun c => by
    rw [alphabet_eq, List.getElem?_map, Option.map_eq_some_iff]
    constructor
    · rintro ⟨m, hm, rfl⟩
      obtain ⟨hlt, rfl⟩ := List.getElem?_eq_some_iff.mp hm
      rw [List.length_range] at hlt
      exact ⟨hlt, by rw [List.getElem_range]⟩
    · rintro ⟨hlt, rfl⟩
      exact ⟨n, List.getElem?_range hlt, rfl⟩
  constructor
  · rintro ⟨c, hc, rfl⟩
    exact ⟨((hletter c).mp hc).1, by rw [((hletter c).mp hc).2]⟩
  · rintro ⟨hlt, rfl⟩
    exact ⟨_, (hletter _).mpr ⟨hlt, rfl⟩, rfl⟩

/-- The number that letters write, the most significant first. -/
def number (ns : List ℕ) : ℕ := ns.foldl (fun n digit => n * 64 + digit) 0

/-- The texts that a strict reader takes for Base64, and their bytes.  A group of four letters is
the number of three bytes.  The last group may have two or three letters, and padding up to four;
the low bits of its number that fill no byte are dropped.  Behind complete groups any amount of
padding may follow. -/
inductive Strict : Text → Bytes → Prop
  | empty : Strict [] []
  | group {p q r s : CodePoint} {a b c d : ℕ} {t : Text} {bs : Bytes} (hp : Spells p a)
      (hq : Spells q b) (hr : Spells r c) (hs : Spells s d) (rest : Strict t bs) :
      Strict (p :: q :: r :: s :: t) (BigEndian.fixed 3 (number [a, b, c, d]) ++ bs)
  | oneByte {p q : CodePoint} {a b : ℕ} (hp : Spells p a) (hq : Spells q b) :
      Strict [p, q, .char '=', .char '='] (BigEndian.fixed 1 (number [a, b] / 16))
  | twoBytes {p q r : CodePoint} {a b c : ℕ} (hp : Spells p a) (hq : Spells q b)
      (hr : Spells r c) :
      Strict [p, q, r, .char '='] (BigEndian.fixed 2 (number [a, b, c] / 4))
  | excess {p q r s : CodePoint} {a b c d : ℕ} (hp : Spells p a) (hq : Spells q b)
      (hr : Spells r c) (hs : Spells s d) (padding : ℕ) :
      Strict (p :: q :: r :: s :: List.replicate padding (.char '='))
        (BigEndian.fixed 3 (number [a, b, c, d]))

theorem ofNat_congr {m n : ℕ} (h : m % 256 = n % 256) : UInt8.ofNat m = UInt8.ofNat n :=
  ofNat_eq _ (by rw [UInt8.toNat_ofNat', h])

theorem pack_group {a b c d : ℕ} (hc : c < 64) (hd : d < 64) (rest : List ℕ) :
    pack (a :: b :: c :: d :: rest) = BigEndian.fixed 3 (number [a, b, c, d]) ++ pack rest := by
  simp only [pack, BigEndian.fixed, number, List.foldl_cons, List.foldl_nil, List.nil_append,
    List.cons_append, List.cons.injEq, and_true]
  refine ⟨ofNat_congr ?_, ofNat_congr ?_, ofNat_congr ?_⟩ <;> omega

theorem pack_pair (a b : ℕ) : pack [a, b] = BigEndian.fixed 1 (number [a, b] / 16) := by
  simp only [pack, BigEndian.fixed, number, List.foldl_cons, List.foldl_nil, List.nil_append,
    List.cons.injEq, and_true]
  exact ofNat_congr (by omega)

theorem pack_triple {a b c : ℕ} (hc : c < 64) :
    pack [a, b, c] = BigEndian.fixed 2 (number [a, b, c] / 4) := by
  simp only [pack, BigEndian.fixed, number, List.foldl_cons, List.foldl_nil, List.nil_append,
    List.cons_append, List.cons.injEq, and_true]
  refine ⟨ofNat_congr ?_, ofNat_congr ?_⟩ <;> omega

theorem paddingFits_add_four_eq {letters padding : ℕ} (h : letters ≠ 0) :
    paddingFits (letters + 4) padding = paddingFits letters padding := by
  unfold paddingFits
  rw [Nat.add_mod_right]
  simp [h]

theorem spells_letter {n : ℕ} (h : n < 64) : Spells (.char (letter n)) n :=
  spells_iff.mpr ⟨h, rfl⟩

/-- Letters with padding that fits are strict Base64. -/
theorem strict_spelled : ∀ {ns : List ℕ} {padding : ℕ}, (∀ n ∈ ns, n < 64) →
    paddingFits ns.length padding = true → Strict (spelled ns padding) (pack ns)
  | [], padding, _, hfits => by
    have hzero : padding = 0 := by simpa [paddingFits] using hfits
    rw [hzero]
    exact .empty
  | [_], _, _, hfits => nomatch hfits
  | [a, b], padding, h, hfits => by
    have htwo : padding = 2 := by simpa [paddingFits] using hfits
    simp only [List.forall_mem_cons] at h
    rw [htwo, pack_pair]
    exact .oneByte (spells_letter h.1) (spells_letter h.2.1)
  | [a, b, c], padding, h, hfits => by
    have hone : padding = 1 := by simpa [paddingFits] using hfits
    simp only [List.forall_mem_cons] at h
    rw [hone, pack_triple h.2.2.1]
    exact .twoBytes (spells_letter h.1) (spells_letter h.2.1) (spells_letter h.2.2.1)
  | a :: b :: c :: d :: rest, padding, h, hfits => by
    simp only [List.forall_mem_cons] at h
    obtain ⟨ha, hb, hc, hd, hrest⟩ := h
    rw [pack_group hc hd]
    cases rest with
    | nil =>
      exact .excess (spells_letter ha) (spells_letter hb) (spells_letter hc) (spells_letter hd)
        padding
    | cons e rest =>
      have hfits' : paddingFits (e :: rest).length padding = true :=
        (paddingFits_add_four_eq (Nat.succ_ne_zero rest.length)).symm.trans hfits
      exact .group (spells_letter ha) (spells_letter hb) (spells_letter hc) (spells_letter hd)
        (strict_spelled hrest hfits')

/-- **Strict Base64 is what is read as Base64**, and it is read to its bytes. -/
theorem decode?_eq_some_iff_strict {t : Text} {bs : Bytes} : decode? t = some bs ↔ Strict t bs := by
  rw [decode?_eq_some_iff]
  constructor
  · rintro ⟨ns, padding, hlt, rfl, hfits, rfl⟩
    exact strict_spelled hlt hfits
  · intro h
    induction h with
    | empty => exact ⟨[], 0, by simp, rfl, rfl, rfl⟩
    | @group p q r s a b c d t bs hp hq hr hs _ ih =>
      obtain ⟨ha, rfl⟩ := spells_iff.mp hp
      obtain ⟨hb, rfl⟩ := spells_iff.mp hq
      obtain ⟨hc, rfl⟩ := spells_iff.mp hr
      obtain ⟨hd, rfl⟩ := spells_iff.mp hs
      obtain ⟨ns, padding, hlt, rfl, hfits, rfl⟩ := ih
      refine ⟨a :: b :: c :: d :: ns, padding, ?_, rfl, paddingFits_add_four hfits,
        pack_group hc hd ns⟩
      simp only [List.forall_mem_cons]
      exact ⟨ha, hb, hc, hd, hlt⟩
    | @oneByte p q a b hp hq =>
      obtain ⟨ha, rfl⟩ := spells_iff.mp hp
      obtain ⟨hb, rfl⟩ := spells_iff.mp hq
      exact ⟨[a, b], 2, by simp [ha, hb], rfl, rfl, pack_pair a b⟩
    | @twoBytes p q r a b c hp hq hr =>
      obtain ⟨ha, rfl⟩ := spells_iff.mp hp
      obtain ⟨hb, rfl⟩ := spells_iff.mp hq
      obtain ⟨hc, rfl⟩ := spells_iff.mp hr
      exact ⟨[a, b, c], 1, by simp [ha, hb, hc], rfl, rfl, pack_triple hc⟩
    | @excess p q r s a b c d hp hq hr hs padding =>
      obtain ⟨ha, rfl⟩ := spells_iff.mp hp
      obtain ⟨hb, rfl⟩ := spells_iff.mp hq
      obtain ⟨hc, rfl⟩ := spells_iff.mp hr
      obtain ⟨hd, rfl⟩ := spells_iff.mp hs
      refine ⟨[a, b, c, d], padding, by simp [ha, hb, hc, hd], rfl,
        paddingFits_of_full (by simp) (by simp), ?_⟩
      exact (pack_group hc hd []).trans (List.append_nil _)

end Base64

end VerifiableEscrow
