import Mathlib.Algebra.Group.Nat.Even
import VerifiableEscrow.Proofs.HexCase
import VerifiableEscrow.Proofs.HexNumeral
import VerifiableEscrow.Proofs.LeadingZeros
import VerifiableEscrow.Proofs.StrictBase64
import VerifiableEscrow.Proofs.WireFields

/-!
# The codec of exponents is exact

An exponent leaves the scheme as bytes without a zero byte in front, spelled in hexadecimal digits
where it is hashed and in Base64 where it is sent.  `LeadingZeros` says which bytes these are.  This
module carries that to the two spellings.

On the side of the digits the number of a text has two readings: place by place over the alphabet of
the lower case (`Hex.number`), and by the generous reader of numerals.  They agree on what is
written, and among the texts of `Hex.IsMinimal` the number leaves only one.

On the side of the wire the writer takes numbers of any size and the reader only those below the
group order.  The reader takes zero bytes in front, which the writer leaves out, so the text that
was read is not always the one that is written again.

* `integerDigits_eq_ok_iff`: the digits of a number;
* `Wire.scalarValue_of_bytes`, `Wire.scalarValue_eq_ok_iff`: the fields that are read;
* `Scalar.exactEncoding`: **the codec of exponents is exact**.
-/

namespace VerifiableEscrow

/-! ## Digits -/

namespace Hex

/-- The digits of the lower case in the order of their values. -/
def lowercase : Text := Text.of "0123456789abcdef"

/-- The number that digits of the lower case write, place by place. -/
def number (t : Text) : ℕ := t.foldl (fun n p => n * 16 + lowercase.idxOf p) 0

/-- Pairs of digits of the lower case.  The first pair is not that of the zero byte, unless it is
the only one. -/
structure IsMinimal (t : Text) : Prop where
  lowercase : ∀ p ∈ t, p ∈ lowercase
  even : Even t.length
  leading : ∀ rest, t = .char '0' :: .char '0' :: rest → rest = []

theorem lowercase_eq : lowercase = (List.range 16).map fun n => .char (digit n) := by decide

theorem mem_lowercase_iff {p : CodePoint} : p ∈ lowercase ↔ ∃ n < 16, .char (digit n) = p := by
  simp only [lowercase_eq, List.mem_map, List.mem_range]

theorem idxOf_digit : ∀ n < 16, lowercase.idxOf (.char (digit n)) = n := by decide

theorem digit_eq_zero : ∀ n < 16, digit n = '0' → n = 0 := by decide

/-- The places of a byte's two digits add it to the number so far. -/
theorem foldl_encode (bs : Bytes) (n : ℕ) :
    (encode bs).foldl (fun n p => n * 16 + lowercase.idxOf p) n
      = bs.foldl (fun n b => n * 256 + b.toNat) n := by
  induction bs generalizing n with
  | nil => rfl
  | cons b bs ih =>
    have hb := b.toNat_lt
    have hsum : (n * 16 + b.toNat / 16) * 16 + b.toNat % 16 = n * 256 + b.toNat := by omega
    rw [encode, pair, List.foldl_append, List.foldl_cons, List.foldl_cons, List.foldl_nil,
      idxOf_digit _ (by omega), idxOf_digit _ (by omega), hsum, ih, List.foldl_cons]

/-- Place by place, digits have the number of their bytes. -/
theorem number_encode (bs : Bytes) : number (encode bs) = BigEndian.toNat bs := foldl_encode bs 0

/-- Pairs of digits of the lower case are spelled by the writer. -/
theorem exists_encode_eq : ∀ {t : Text}, (∀ p ∈ t, p ∈ lowercase) → Even t.length →
    ∃ bs, encode bs = t
  | [], _, _ => ⟨[], rfl⟩
  | [_], _, heven => absurd heven Nat.not_even_one
  | p :: q :: rest, hdigits, heven => by
    simp only [List.forall_mem_cons] at hdigits
    obtain ⟨hp, hq, hrest⟩ := hdigits
    have hevenrest : Even rest.length := by
      rw [List.length_cons, List.length_cons, Nat.even_iff] at heven
      rw [Nat.even_iff]
      omega
    obtain ⟨m, hm, rfl⟩ := mem_lowercase_iff.mp hp
    obtain ⟨n, hn, rfl⟩ := mem_lowercase_iff.mp hq
    obtain ⟨bs, rfl⟩ := exists_encode_eq hrest hevenrest
    refine ⟨UInt8.ofNat (16 * m + n) :: bs, ?_⟩
    rw [encode, pair_ofNat hm hn]
    rfl

/-- Digits begin with those of the zero byte when the bytes begin with it. -/
theorem exists_of_encode_eq {bs : Bytes} {rest : Text}
    (h : encode bs = .char '0' :: .char '0' :: rest) : ∃ cs, bs = 0 :: cs ∧ encode cs = rest := by
  cases bs with
  | nil => cases h
  | cons b cs =>
    have hb := b.toNat_lt
    simp only [encode, pair, List.cons_append, List.nil_append, List.cons.injEq,
      CodePoint.char.injEq] at h
    obtain ⟨hhigh, hlow, hrest⟩ := h
    have hdiv := digit_eq_zero _ (by omega) hhigh
    have hmod := digit_eq_zero _ (by omega) hlow
    have hzero : b = 0 := UInt8.toNat_inj.mp (show b.toNat = 0 by omega)
    exact ⟨cs, by rw [hzero], hrest⟩

/-- The digits of bytes are minimal when the bytes have no zero in front, or only that. -/
theorem isMinimal_encode_iff {bs : Bytes} :
    IsMinimal (encode bs) ↔ ∀ rest, bs = 0 :: rest → rest = [] := by
  constructor
  · rintro h rest rfl
    have hempty := congrArg List.length (h.leading (encode rest) rfl)
    rw [length_encode, List.length_nil] at hempty
    exact List.length_eq_zero_iff.mp (by omega)
  · intro h
    refine ⟨fun p hp => mem_lowercase_iff.mpr (exists_digit_of_mem_encode hp), ?_,
      fun rest hrest => ?_⟩
    · rw [length_encode]
      exact even_two_mul _
    · obtain ⟨cs, rfl, rfl⟩ := exists_of_encode_eq hrest
      rw [h cs rfl]
      rfl

/-- Minimal digits, if there are any, are those of minimal bytes. -/
theorem IsMinimal.exists_bytes {t : Text} (h : IsMinimal t) (hne : t ≠ []) :
    ∃ bs, BigEndian.IsMinimal bs ∧ encode bs = t := by
  obtain ⟨bs, rfl⟩ := exists_encode_eq h.lowercase h.even
  refine ⟨bs, ⟨?_, isMinimal_encode_iff.mp h⟩, rfl⟩
  rintro rfl
  exact hne rfl

end Hex

/-- The reader of numerals finds the number that minimal digits write place by place. -/
theorem Numeral.hexadecimal?_of_isMinimal {t : Text} (h : Hex.IsMinimal t) (hne : t ≠ []) :
    hexadecimal? t = some (Hex.number t : ℤ) := by
  obtain ⟨bs, hbs, rfl⟩ := h.exists_bytes hne
  rw [hexadecimal?_encode hbs.nonempty, Hex.number_encode]

theorem integerDigits_natCast (n : ℕ) :
    integerDigits (.int n) = .ok (Hex.encode (scalarBytes n)) := rfl

/-- **The digits of a number** are the minimal ones that are read as it. -/
theorem integerDigits_eq_ok_iff {n : ℕ} {t : Text} : integerDigits (.int n) = .ok t
    ↔ Hex.IsMinimal t ∧ Numeral.hexadecimal? t = some (n : ℤ) := by
  rw [integerDigits_natCast, Except.ok.injEq]
  constructor
  · rintro rfl
    refine ⟨Hex.isMinimal_encode_iff.mpr (isMinimal_scalarBytes n).leading, ?_⟩
    rw [Numeral.hexadecimal?_encode (scalarBytes_ne_nil n), toNat_scalarBytes]
  · rintro ⟨hminimal, hread⟩
    have hne : t ≠ [] := by
      rintro rfl
      cases hread
    obtain ⟨bs, hbs, rfl⟩ := hminimal.exists_bytes hne
    rw [Numeral.hexadecimal?_encode hbs.nonempty, Option.some.injEq, Nat.cast_inj] at hread
    rw [scalarBytes_eq_iff.mpr ⟨hbs, hread⟩]

example : integerDigits (.int 255) = .ok (Text.of "ff")
    ∧ integerDigits (.int 256) = .ok (Text.of "0100") := by decide +kernel

/-- The residue that the digits of a number are read as. -/
theorem exists_scalarOfDigits (n : ℕ) : ∃ x : Scalar,
    scalarOfDigits (.text (Hex.encode (scalarBytes n))) = .ok x ∧ x.val = n % groupOrder := by
  refine ⟨_, scalarOfNumeral_encode (scalarBytes_ne_nil n), ?_⟩
  have hresidue : ((n : ℤ) % groupOrder).toNat = n % groupOrder := by
    rw [← Int.natCast_mod, Int.toNat_natCast]
  rw [toNat_scalarBytes]
  exact hresidue

theorem integerDigits_of_neg {z : ℤ} (h : z < 0) : integerDigits (.int z) = .error .negative := by
  obtain ⟨n, rfl⟩ := Int.eq_negSucc_of_lt_zero h
  rfl

/-! ## Fields -/

namespace Wire

open BigEndian (significant)

/-- A field of some bytes is read as their number, if that is below the group order. -/
theorem scalarValue_of_bytes {field : Text} {bs : Bytes} (h : Base64.decode? field = some bs)
    (hne : bs ≠ []) (name : String) : scalarValue field name
      = if BigEndian.toNat bs < groupOrder then .ok (.int (BigEndian.toNat bs))
        else .error (.wire (.notScalar name)) := by
  unfold scalarValue
  rw [scalar_of_bytes h hne]
  split_ifs with hlt
  · rfl
  · rfl

/-- **The fields that are read** are the strict Base64 of bytes, one at least, whose number is below
the group order. -/
theorem scalarValue_eq_ok_iff {field : Text} {name : String} {v : Value} :
    scalarValue field name = .ok v ↔ ∃ bs, Base64.Strict field bs ∧ bs ≠ []
      ∧ BigEndian.toNat bs < groupOrder ∧ v = .int (BigEndian.toNat bs) := by
  constructor
  · intro h
    obtain ⟨x, hx, -⟩ := Except.bind_eq_ok.mp h
    obtain ⟨bs, hbs, hscalar⟩ := Except.bind_eq_ok.mp hx
    have hdecode := fieldBytes_eq_ok_iff.mp hbs
    have hne : bs ≠ [] := by
      rw [Ne, ← List.isEmpty_iff]
      exact (Except.guard_eq_ok.mp hscalar).1
    rw [scalarValue_of_bytes hdecode hne] at h
    split_ifs at h with hlt
    exact ⟨bs, Base64.decode?_eq_some_iff_strict.mp hdecode, hne, hlt, (Except.ok.inj h).symm⟩
  · rintro ⟨bs, hstrict, hne, hlt, rfl⟩
    rw [scalarValue_of_bytes (Base64.decode?_eq_some_iff_strict.mpr hstrict) hne, if_pos hlt]

/-- A number of any size is sent, and read back below the group order only. -/
theorem scalarValue_scalarBytes (n : ℕ) (name : String) :
    scalarValue (Base64.encode (scalarBytes n)) name
      = if n < groupOrder then .ok (.int n) else .error (.wire (.notScalar name)) := by
  rw [scalarValue_of_bytes (Base64.decode?_encode _) (scalarBytes_ne_nil n), toNat_scalarBytes]

theorem scalarText_natCast (n : ℕ) :
    scalarText (.int n) = .ok (Base64.encode (scalarBytes n)) := rfl

/-- What was read is written without the zero bytes in front, except that zero keeps one. -/
theorem scalarText_of_scalarValue {field : Text} {name : String} {v : Value} {bs : Bytes}
    (h : scalarValue field name = .ok v) (hstrict : Base64.Strict field bs) :
    scalarText v = .ok (Base64.encode (significant bs)) := by
  obtain ⟨cs, hcs, -, -, rfl⟩ := scalarValue_eq_ok_iff.mp h
  rw [← Base64.decode?_eq_some_iff_strict] at hcs hstrict
  obtain rfl : cs = bs := Option.some.inj (hcs.symm.trans hstrict)
  rw [scalarText_natCast, scalarBytes_toNat]

end Wire

/-! ## Exactness -/

namespace Scalar

open BigEndian (significant)
open Wire (scalarText scalarValue)

/-- What a natural number is written as, in digits and in a field. -/
structure IsWritten (n : ℕ) (digits field : Text) : Prop where
  digits_eq : integerDigits (.int n) = .ok digits
  isMinimal : Hex.IsMinimal digits
  zero : n = 0 → digits = Text.of "00"
  number : Hex.number digits = n
  /-- No other minimal digits are read as the number. -/
  unique : ∀ t, Hex.IsMinimal t → Numeral.hexadecimal? t = some (n : ℤ) → t = digits
  residue : ∃ x : Scalar, scalarOfDigits (.text digits) = .ok x ∧ x.val = n % groupOrder
  field_eq : scalarText (.int n) = .ok field
  received : n < groupOrder → ∀ name, scalarValue field name = .ok (.int n)
  refused : groupOrder ≤ n → ∀ name, scalarValue field name = .error (.wire (.notScalar name))

/-- A codec of exponents without surprises: it is said what every number is written as, which fields
are read, and what is written of them again. -/
structure ExactEncoding : Prop where
  natural : ∀ n : ℕ, ∃ digits field, IsWritten n digits field
  /-- The number that minimal digits are read as is the one that they write place by place. -/
  hexadecimal : ∀ t : Text, Hex.IsMinimal t → t ≠ [] →
    Numeral.hexadecimal? t = some (Hex.number t : ℤ)
  negative : ∀ z : ℤ, z < 0 → integerDigits (.int z) = .error .negative
  /-- The fields that are read are the strict Base64 of bytes, one at least, whose number is below
  the group order. -/
  received_iff : ∀ (field : Text) (name : String) (v : Value), scalarValue field name = .ok v
    ↔ ∃ bs, Base64.Strict field bs ∧ bs ≠ [] ∧ BigEndian.toNat bs < groupOrder
      ∧ v = .int (BigEndian.toNat bs)
  /-- What was read is written without the zero bytes in front, except that zero keeps one. -/
  rewritten : ∀ (field : Text) (name : String) (v : Value) (bs : Bytes),
    scalarValue field name = .ok v → Base64.Strict field bs →
    scalarText v = .ok (Base64.encode (significant bs))

theorem exists_isWritten (n : ℕ) : ∃ digits field, IsWritten n digits field := by
  have hwritten := integerDigits_natCast n
  refine ⟨_, _, hwritten, (integerDigits_eq_ok_iff.mp hwritten).1, ?_, ?_, ?_,
    exists_scalarOfDigits n, Wire.scalarText_natCast n, ?_, ?_⟩
  · rintro rfl
    decide
  · rw [Hex.number_encode, toNat_scalarBytes]
  · intro t htminimal htread
    exact Except.ok.inj ((integerDigits_eq_ok_iff.mpr ⟨htminimal, htread⟩).symm.trans hwritten)
  · intro hlt name
    rw [Wire.scalarValue_scalarBytes, if_pos hlt]
  · intro hle name
    rw [Wire.scalarValue_scalarBytes, if_neg (Nat.not_lt.mpr hle)]

/-- **The codec of exponents is exact.** -/
theorem exactEncoding : ExactEncoding where
  natural := exists_isWritten
  hexadecimal _ := Numeral.hexadecimal?_of_isMinimal
  negative _ := integerDigits_of_neg
  received_iff _ _ _ := Wire.scalarValue_eq_ok_iff
  rewritten _ _ _ _ := Wire.scalarText_of_scalarValue

/-- A field with two zero bytes in front is read and written without them, the group order is
written and not read, and below zero nothing is written. -/
theorem exactEncoding_boundaries :
    scalarValue (Text.of "AAAB") "x" = .ok (.int 1)
      ∧ Base64.Strict (Text.of "AAAB") [0, 0, 1]
      ∧ scalarText (.int 1) = .ok (Text.of "AQ==")
      ∧ (∃ field, scalarText (.int groupOrder) = .ok field
        ∧ scalarValue field "x" = .error (.wire (.notScalar "x")))
      ∧ integerDigits (.int (-1)) = .error .negative := by
  have hbytes : Base64.Strict (Text.of "AAAB") [0, 0, 1] :=
    Base64.decode?_eq_some_iff_strict.mp (by decide +kernel)
  have hread : scalarValue (Text.of "AAAB") "x" = .ok (.int 1) :=
    (exactEncoding.received_iff _ _ _).mpr
      ⟨[0, 0, 1], hbytes, List.cons_ne_nil _ _, by decide +kernel, rfl⟩
  have hrewritten := exactEncoding.rewritten _ _ _ _ hread hbytes
  have hone : Base64.encode (significant [0, 0, 1]) = Text.of "AQ==" := by decide +kernel
  obtain ⟨digits, field, horder⟩ := exactEncoding.natural groupOrder
  exact ⟨hread, hbytes, hone ▸ hrewritten, ⟨field, horder.field_eq, horder.refused le_rfl "x"⟩,
    exactEncoding.negative (-1) (by decide)⟩

end Scalar
end VerifiableEscrow
