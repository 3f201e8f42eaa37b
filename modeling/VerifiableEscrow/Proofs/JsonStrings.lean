import Mathlib.Data.Nat.Digits.Defs
import VerifiableEscrow.Proofs.JsonRoundTrip

/-!
# Strings of any characters

Every character has a form in a JSON string: itself, a letter behind a backslash, the escape of
its number, or the escapes of the two halves of a surrogate pair where four digits do not reach.
The reader takes each form for the character again, and in one step (`pointCarries_char`), so that
a string of characters carries whatever they are (`stringCarries_ofChars`).

It takes characters: of two halves that stand on their own, one behind the other, the escapes are
those of a pair, and the reader makes one character of them.
-/

namespace VerifiableEscrow

/-- The last digit of a numeral is apart from those before it, zeros in front included. -/
theorem Text.digits_succ {base width : Nat} (hbase : 1 < base) (hwidth : width ≠ 0) (n : Nat) :
    Text.digits base (width + 1) n
      = Text.digits base width (n / base) ++ [Nat.digitChar (n % base)] := by
  by_cases h : n < base
  · have hpad : List.replicate width '0' = List.replicate (width - 1) '0' ++ ['0'] := by
      rw [← List.replicate_succ', Nat.sub_one_add_one hwidth]
    rw [digits, digits, Nat.div_eq_of_lt h, Nat.mod_eq_of_lt h, Nat.toDigits_of_lt_base h,
      Nat.toDigits_of_lt_base (Nat.zero_lt_of_lt hbase)]
    rw [List.length_singleton, List.length_singleton, Nat.add_sub_cancel, hpad]
    rfl
  · rw [digits, digits, Nat.toDigits_of_base_le hbase (Nat.le_of_not_lt h)]
    rw [List.length_append, List.length_singleton, Nat.add_sub_add_right, List.append_assoc]

/-- The number of a character is below those of the halves of pairs, or beyond them. -/
theorem Text.toNat_cases (c : Char) :
    c.toNat < 0xD800 ∨ 0xE000 ≤ c.toNat ∧ c.toNat < 0x110000 := by
  rcases c.valid with h | ⟨hlow, hhigh⟩
  · exact .inl h
  · exact .inr ⟨hlow, hhigh⟩

theorem CodePoint.ofNat?_toNat (c : Char) : CodePoint.ofNat? c.toNat = some (.char c) := by
  rcases Text.toNat_cases c with h | ⟨hlow, hhigh⟩
  · rw [ofNat?, if_pos h, Char.ofNat_toNat]
  · rw [ofNat?, if_neg (by omega), dif_neg (by omega), if_pos hhigh, Char.ofNat_toNat]

namespace Json

/-! ## Escapes of four digits -/

theorem charValue?_digitChar : ∀ d < 16, Hex.charValue? (Nat.digitChar d) = some d := by decide

theorem isSafe_digitChar : ∀ d < 16, (Nat.digitChar d).toNat < 128 ∧ Nat.digitChar d ≠ '\r' := by
  decide

/-- The four digits of a number, one by one. -/
theorem digits_four {n : Nat} (h : n < 0x10000) :
    Text.digits 16 4 n = [Nat.digitChar (n / 16 / 16 / 16), Nat.digitChar (n / 16 / 16 % 16),
      Nat.digitChar (n / 16 % 16), Nat.digitChar (n % 16)] := by
  have htop : Text.digits 16 1 (n / 16 / 16 / 16) = [Nat.digitChar (n / 16 / 16 / 16)] := by
    rw [Text.digits, Nat.toDigits_of_lt_base (by omega)]
    rfl
  rw [Text.digits_succ (by decide) (by decide), Text.digits_succ (by decide) (by decide),
    Text.digits_succ (by decide) (by decide), htop]
  rfl

/-- The digits of an escape spell its number. -/
theorem fourDigits?_digits {n : Nat} (h : n < 0x10000) (t : Text) :
    fourDigits? (Text.ofChars (Text.digits 16 4 n) ++ t) = some (n, t) := by
  have hsum : ((n / 16 / 16 / 16 * 16 + n / 16 / 16 % 16) * 16 + n / 16 % 16) * 16 + n % 16
      = n := by omega
  rw [digits_four h]
  simp only [Text.ofChars_cons, Text.ofChars_nil, List.cons_append, List.nil_append, fourDigits?,
    Hex.value?, charValue?_digitChar (n / 16 / 16 / 16) (by omega),
    charValue?_digitChar (n / 16 / 16 % 16) (by omega),
    charValue?_digitChar (n / 16 % 16) (by omega), charValue?_digitChar (n % 16) (by omega),
    Option.bind_eq_bind, Option.bind_some, hsum]

theorem escape_append (n : Nat) (t : Text) :
    escape n ++ t = .char '\\' :: .char 'u' :: (Text.ofChars (Text.digits 16 4 n) ++ t) := rfl

theorem isFileSafe_escape {n : Nat} (h : n < 0x10000) : (escape n).IsFileSafe := by
  have hsafe (d : Nat) (hd : d < 16) :
      ∃ c : Char, CodePoint.char (Nat.digitChar d) = .char c ∧ c.toNat < 128 ∧ c ≠ '\r' :=
    ⟨_, rfl, isSafe_digitChar d hd⟩
  have hmark : (Text.ofChars ['\\', 'u']).IsFileSafe := Text.isFileSafe_ofChars (by decide)
  have hdigits : (Text.ofChars (Text.digits 16 4 n)).IsFileSafe := by
    rw [digits_four h]
    refine List.forall_mem_cons.mpr ⟨hsafe _ (by omega), ?_⟩
    refine List.forall_mem_cons.mpr ⟨hsafe _ (by omega), ?_⟩
    refine List.forall_mem_cons.mpr ⟨hsafe _ (by omega), ?_⟩
    exact List.forall_mem_singleton.mpr (hsafe _ (by omega))
  exact hmark.append hdigits

/-- An escape whose number is no half of a pair is read as the character of the number. -/
theorem longEscape?_digits {c : Char} (h : c.toNat < 0x10000) (t : Text) :
    longEscape? (Text.ofChars (Text.digits 16 4 c.toNat) ++ t) = some (.char c, t) := by
  have hhigh : ¬ (0xD800 ≤ c.toNat ∧ c.toNat < 0xDC00) := by
    have hc := Text.toNat_cases c
    omega
  rw [longEscape?, fourDigits?_digits h]
  simp only [Option.bind_eq_bind, Option.bind_some, if_neg hhigh, CodePoint.ofNat?_toNat]

/-- The escapes of the two halves of a pair are read as one character. -/
theorem longEscape?_pair {high low : Nat} {c : Char} (hhigh : 0xD800 ≤ high ∧ high < 0xDC00)
    (hlow : 0xDC00 ≤ low ∧ low < 0xE000)
    (hsum : 0x10000 + (high - 0xD800) * 0x400 + (low - 0xDC00) = c.toNat) (t : Text) :
    longEscape? (Text.ofChars (Text.digits 16 4 high) ++ (escape low ++ t))
      = some (.char c, t) := by
  have hpair : lowHalf? (escape low ++ t) = some (low, t) := by
    rw [escape_append, lowHalf?, fourDigits?_digits (by omega)]
    simp only [Option.bind_eq_bind, Option.bind_some, if_pos hlow]
  rw [longEscape?, fourDigits?_digits (by omega)]
  simp only [Option.bind_eq_bind, Option.bind_some, if_pos hhigh, hpair, hsum,
    CodePoint.ofNat?_toNat]

/-! ## Characters -/

/-- An escape with digits is one step of the reader. -/
theorem string?_longEscape {c : Char} {t u : Text} (h : longEscape? t = some (.char c, u))
    (fuel : Nat) : string? (fuel + 1) (.char '\\' :: .char 'u' :: t)
      = (string? fuel u).map fun r => (.char c :: r.1, r.2) := by
  rw [string?_escape, h, Option.bind_some]

/-- So is a letter behind a backslash. -/
theorem string?_shortEscape {c d : Char} (h : shortEscape? d = some c) (fuel : Nat) (t : Text) :
    string? (fuel + 1) (.char '\\' :: .char d :: t)
      = (string? fuel t).map fun r => (.char c :: r.1, r.2) := by
  have hd : d ≠ 'u' := by
    rintro rfl
    cases h
  rw [string?_letter hd, h, Option.bind_some]

/-- The characters that a letter behind a backslash stands for, with their letters. -/
def lettered : List (Char × Char) :=
  [('"', '"'), ('\\', '\\'), ('\n', 'n'), ('\r', 'r'), ('\t', 't'), ('\x08', 'b'), ('\x0c', 'f')]

theorem escaped_lettered : ∀ e ∈ lettered, escaped (.char e.1) = Text.ofChars ['\\', e.2]
    ∧ shortEscape? e.2 = some e.1 ∧ e.2.toNat < 128 ∧ e.2 ≠ '\r' := by decide

theorem pointCarries_lettered {e : Char × Char} (he : e ∈ lettered) : PointCarries (.char e.1) := by
  obtain ⟨hescaped, hread, hsafe⟩ := escaped_lettered e he
  refine ⟨?_, ?_, fun fuel t => ?_⟩
  · rw [hescaped]
    refine List.forall_mem_cons.mpr ⟨⟨'\\', rfl, by decide⟩, ?_⟩
    exact List.forall_mem_singleton.mpr ⟨e.2, rfl, hsafe⟩
  · rw [hescaped]
    exact List.cons_ne_nil _ _
  · rw [hescaped]
    exact string?_shortEscape hread fuel t

/-- A character that does not stand for itself and has no letter is escaped by its number. -/
theorem escaped_of_not_lettered {c : Char} (h : ∀ e ∈ lettered, c ≠ e.1)
    (hplain : ¬(32 ≤ c.toNat ∧ c.toNat ≤ 126)) : escaped (.char c)
      = if c.toNat < 0x10000 then escape c.toNat
        else escape (0xD800 + (c.toNat - 0x10000) / 0x400)
          ++ escape (0xDC00 + (c.toNat - 0x10000) % 0x400) := by
  have hc : (CodePoint.char c).toNat = c.toNat := rfl
  simp only [lettered, List.forall_mem_cons] at h
  obtain ⟨hquote, hslash, hn, hr, ht, hb, hf, -⟩ := h
  have h8 : c.toNat ≠ 8 := fun h => hb (Char.toNat_inj.mp h)
  have h12 : c.toNat ≠ 12 := fun h => hf (Char.toNat_inj.mp h)
  simp only [escaped, hc, CodePoint.char.injEq, hquote, hslash, hn, hr, ht, h8, h12, hplain,
    or_self, if_false]

/-- What is escaped by its number carries, by one escape or by two. -/
theorem pointCarries_of_escaped {c : Char} (h : escaped (.char c)
      = if c.toNat < 0x10000 then escape c.toNat
        else escape (0xD800 + (c.toNat - 0x10000) / 0x400)
          ++ escape (0xDC00 + (c.toNat - 0x10000) % 0x400)) : PointCarries (.char c) := by
  by_cases hshort : c.toNat < 0x10000
  · rw [if_pos hshort] at h
    refine ⟨?_, ?_, fun fuel t => ?_⟩
    · rw [h]
      exact isFileSafe_escape hshort
    · rw [h]
      exact List.cons_ne_nil _ _
    · rw [h, escape_append]
      exact string?_longEscape (longEscape?_digits hshort t) fuel
  · have hlimit := Text.toNat_cases c
    rw [if_neg hshort] at h
    refine ⟨?_, ?_, fun fuel t => ?_⟩
    · rw [h]
      exact (isFileSafe_escape (by omega)).append (isFileSafe_escape (by omega))
    · rw [h]
      exact List.cons_ne_nil _ _
    · rw [h, List.append_assoc, escape_append]
      refine string?_longEscape (longEscape?_pair ⟨?_, ?_⟩ ⟨?_, ?_⟩ ?_ t) fuel <;> omega

/-- **Every character carries.** -/
theorem pointCarries_char (c : Char) : PointCarries (.char c) := by
  by_cases hletter : ∃ e ∈ lettered, c = e.1
  · obtain ⟨e, he, rfl⟩ := hletter
    exact pointCarries_lettered he
  · have hne : ∀ e ∈ lettered, c ≠ e.1 := fun e he hc => hletter ⟨e, he, hc⟩
    by_cases hplain : 32 ≤ c.toNat ∧ c.toNat ≤ 126
    · have hquote := hne ('"', '"') (by decide)
      have hslash := hne ('\\', '\\') (by decide)
      exact pointCarries_of_isPlain ⟨c, rfl, hplain.1, hplain.2, hquote, hslash⟩
    · exact pointCarries_of_escaped (escaped_of_not_lettered hne hplain)

/-- **Every string of characters carries.** -/
theorem stringCarries_ofChars (cs : List Char) : StringCarries (Text.ofChars cs) := by
  refine stringCarries_of_points fun p hp => ?_
  obtain ⟨c, -, rfl⟩ := List.mem_map.mp hp
  exact pointCarries_char c

end Json
end VerifiableEscrow
