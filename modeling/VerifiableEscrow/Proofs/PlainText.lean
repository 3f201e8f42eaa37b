import Mathlib.Data.List.Basic
import VerifiableEscrow.Text.Utf8

/-!
# Text that nothing changes

Two classes of text matter to the carriers.  A *plain* text consists of printable ASCII
characters that no string syntax escapes; names of fields and Base64 are of this kind.  A
*file-safe* text consists of ASCII without carriage returns; it may hold quotes and line feeds,
as a whole JSON text does.

* `Text.IsPlain.isFileSafe`: the first class lies in the second;
* `Text.IsFileSafe.decode?_encode`: its UTF-8 bytes, one for each character, read back;
* `Text.IsFileSafe.unifyLineEnds_eq`: reading a file does not touch its line ends.
-/

namespace VerifiableEscrow

/-- A code point that stands for itself in every carrier: printable ASCII, but neither a quote
nor a backslash. -/
def CodePoint.IsPlain (p : CodePoint) : Prop :=
  ∃ c : Char, p = .char c ∧ 32 ≤ c.toNat ∧ c.toNat ≤ 126 ∧ c ≠ '"' ∧ c ≠ '\\'

/-- A text of code points that stand for themselves. -/
def Text.IsPlain (t : Text) : Prop := ∀ p ∈ t, p.IsPlain

/-- A text of ASCII characters without carriage returns. -/
def Text.IsFileSafe (t : Text) : Prop :=
  ∀ p ∈ t, ∃ c : Char, p = .char c ∧ c.toNat < 128 ∧ c ≠ '\r'

namespace Text

/-- Characters are in the order of their numbers. -/
theorem toNat_le_toNat {c d : Char} (h : c ≤ d) : c.toNat ≤ d.toNat :=
  UInt32.le_iff_toNat_le.mp h

theorem IsFileSafe.append {t u : Text} (ht : t.IsFileSafe) (hu : u.IsFileSafe) :
    (t ++ u).IsFileSafe :=
  List.forall_mem_append.mpr ⟨ht, hu⟩

theorem IsPlain.isFileSafe {t : Text} (h : t.IsPlain) : t.IsFileSafe := by
  intro p hp
  obtain ⟨c, hc, hlow, hhigh, -⟩ := h p hp
  refine ⟨c, hc, by omega, ?_⟩
  rintro rfl
  exact absurd hlow (by decide)

theorem isFileSafe_ofChars {cs : List Char}
    (h : cs.all (fun c => c.toNat < 128 && c ≠ '\r') = true) : (ofChars cs).IsFileSafe := by
  intro p hp
  obtain ⟨c, hc, rfl⟩ := List.mem_map.mp hp
  have hsafe := List.all_eq_true.mp h c hc
  rw [Bool.and_eq_true, decide_eq_true_eq, decide_eq_true_eq] at hsafe
  exact ⟨c, rfl, hsafe⟩

/-- Whether a character stands for itself in every carrier. -/
def isPlainChar (c : Char) : Bool := 32 ≤ c.toNat && c.toNat ≤ 126 && c ≠ '"' && c ≠ '\\'

theorem isPlain_ofChars {cs : List Char} (h : cs.all isPlainChar = true) :
    (ofChars cs).IsPlain := by
  intro p hp
  obtain ⟨c, hc, rfl⟩ := List.mem_map.mp hp
  have hplain := List.all_eq_true.mp h c hc
  simp only [isPlainChar, Bool.and_eq_true, decide_eq_true_eq, and_assoc] at hplain
  exact ⟨c, rfl, hplain⟩

/-! ## UTF-8 -/

theorem encodePoint_ascii {c : Char} (h : c.toNat < 128) :
    Utf8.encodePoint (.char c) = [UInt8.ofNat c.toNat] :=
  if_pos h

theorem IsFileSafe.length_encode {t : Text} (h : t.IsFileSafe) :
    (Utf8.encode t).length = t.length := by
  induction t with
  | nil => rfl
  | cons p t ih =>
    obtain ⟨⟨c, rfl, hc, -⟩, ht⟩ := List.forall_mem_cons.mp h
    rw [Utf8.encode, List.flatMap_cons, encodePoint_ascii hc, List.singleton_append,
      List.length_cons, List.length_cons]
    exact congrArg Nat.succ (ih ht)

/-- A byte below 128 is read as the character of its number. -/
theorem decodeFrom?_ascii (halves : Bool) {c : Char} (h : c.toNat < 128) (bs : Bytes) :
    Utf8.decodeFrom? halves 0 0 0 (UInt8.ofNat c.toNat :: bs)
      = (Utf8.decodeFrom? halves 0 0 0 bs).map (CodePoint.char c :: ·) := by
  have hn : (UInt8.ofNat c.toNat).toNat = c.toNat := by
    rw [UInt8.toNat_ofNat']
    omega
  rw [Utf8.decodeFrom?]
  simp only [hn]
  rw [if_pos h, Char.ofNat_toNat]

/-- **The UTF-8 bytes of a file-safe text read back.** -/
theorem IsFileSafe.decode?_encode {t : Text} (h : t.IsFileSafe) :
    Utf8.decode? (Utf8.encode t) = some t := by
  rw [Utf8.decode?]
  induction t with
  | nil => rfl
  | cons p t ih =>
    obtain ⟨⟨c, rfl, hc, -⟩, ht⟩ := List.forall_mem_cons.mp h
    have hencode : Utf8.encode (.char c :: t) = UInt8.ofNat c.toNat :: Utf8.encode t := by
      rw [Utf8.encode, List.flatMap_cons, encodePoint_ascii hc]
      rfl
    rw [hencode, decodeFrom?_ascii false hc, ih ht]
    rfl

/-! ## Line ends -/

theorem IsFileSafe.unifyLineEnds_eq {t : Text} (h : t.IsFileSafe) : unifyLineEnds t = t := by
  have hne (p : CodePoint) (hp : p ∈ t) : p ≠ .char '\r' := by
    obtain ⟨c, rfl, -, hc⟩ := h p hp
    exact fun he => hc (CodePoint.char.inj he)
  fun_induction unifyLineEnds t with
  | case1 => rfl
  | case2 => exact absurd rfl (hne _ List.mem_cons_self)
  | case3 => exact absurd rfl (hne _ List.mem_cons_self)
  | case4 => exact absurd rfl (hne _ List.mem_cons_self)
  | case5 p rest _ _ ih =>
    have hrest := List.forall_mem_cons.mp h
    rw [ih hrest.2 fun q hq => hne q (List.mem_cons_of_mem p hq)]

end Text
end VerifiableEscrow
