import Mathlib.Data.List.TakeWhile
import VerifiableEscrow.Json.Reader

/-!
# The reader of JSON, sign by sign

What a value is can be told by the first sign behind the blanks, and so can what comes behind an
item or an entry.  The equations of this module say this for all the readers at once, with one
reader for a single sign (`sign?`) and the others put together from it.  What is proved about the
readers follows these equations, part by part.

* `value?_succ`: a value is what its first sign opens;
* `items?_succ`, `entries?_succ`: an item or an entry, and what stands behind it;
* `string?_escape`, `string?_letter`, `string?_plain`: one step of the reader of a string.
-/

namespace VerifiableEscrow
namespace Json

/-! ## Blanks -/

theorem skipBlanks_append {blanks : Text} (h : ∀ p ∈ blanks, isBlank p = true) (t : Text) :
    skipBlanks (blanks ++ t) = skipBlanks t :=
  List.dropWhile_append_of_pos h

theorem skipBlanks_skipBlanks (t : Text) : skipBlanks (skipBlanks t) = skipBlanks t := by
  have hblanks : ∀ p ∈ t.takeWhile isBlank, isBlank p = true := fun p => List.mem_takeWhile_imp
  have hsplit : t.takeWhile isBlank ++ skipBlanks t = t := List.takeWhile_append_dropWhile
  have h := skipBlanks_append hblanks (skipBlanks t)
  rw [hsplit] at h
  exact h.symm

theorem skipBlanks_cons {p : CodePoint} (h : isBlank p = false) (t : Text) :
    skipBlanks (p :: t) = p :: t :=
  List.dropWhile_cons_of_neg (by rw [h]; decide)

theorem value?_blank (fuel : Nat) {blanks : Text} (h : ∀ p ∈ blanks, isBlank p = true) (t : Text) :
    value? fuel (blanks ++ t) = value? fuel t := by
  cases fuel with
  | zero => rfl
  | succ fuel => simp only [value?, skipBlanks_append h]

theorem value?_skipBlanks (fuel : Nat) (t : Text) : value? fuel (skipBlanks t) = value? fuel t := by
  cases fuel with
  | zero => rfl
  | succ fuel => rw [value?, value?, skipBlanks_skipBlanks]

/-! ## Signs -/

/-- A sign behind blanks. -/
def sign? (c : Char) (t : Text) : Option (Unit × Text) :=
  (expect? [c] (skipBlanks t)).map fun rest => ((), rest)

theorem sign?_of_cons {c : Char} {t u : Text} (h : skipBlanks t = .char c :: u) :
    sign? c t = some ((), u) := by
  have hsign : expect? [c] (.char c :: u) = some u := if_pos rfl
  rw [sign?, h, hsign]
  rfl

theorem sign?_of_ne {c : Char} {t : Text} (h : ∀ u, skipBlanks t ≠ .char c :: u) :
    sign? c t = none := by
  rw [sign?]
  cases hskip : skipBlanks t with
  | nil => rfl
  | cons p u =>
    have hp : p ≠ .char c := fun hp => h u (by rw [hskip, hp])
    have hsign : expect? [c] (p :: u) = none := if_neg hp
    rw [hsign]
    rfl

/-- Another sign than the one that stands there. -/
theorem sign?_other {c d : Char} {t u : Text} (h : skipBlanks t = .char d :: u) (hne : d ≠ c) :
    sign? c t = none :=
  sign?_of_ne fun _ hv => hne (CodePoint.char.inj (List.cons.inj (h.symm.trans hv)).1)

/-! ## Lists -/

/-- What the reader of a list does behind an item. -/
def afterItem (fuel : Nat) (t : Text) : Option (List Value × Text) :=
  (sign? ',' t).elim ((sign? ']' t).map fun r => ([], r.2)) fun r => items? fuel r.2

/-- A list that goes on is an item and what stands behind it. -/
theorem items?_succ (fuel : Nat) (t : Text) :
    items? (fuel + 1) t = (value? fuel t).bind fun r =>
      (afterItem fuel r.2).map fun s => (r.1 :: s.1, s.2) := by
  rw [items?]
  cases value? fuel t with
  | none => rfl
  | some r =>
    simp only [Option.bind_eq_bind, Option.bind_some, afterItem]
    split
    next u hu =>
      rw [sign?_of_cons hu, Option.elim_some]
      cases items? fuel u <;> rfl
    next u hu =>
      rw [sign?_other hu (by decide), Option.elim_none, sign?_of_cons hu]
      rfl
    next hcomma hbracket =>
      rw [sign?_of_ne hcomma, sign?_of_ne hbracket]
      rfl

theorem items?_skipBlanks (fuel : Nat) (t : Text) : items? fuel (skipBlanks t) = items? fuel t := by
  cases fuel with
  | zero => rfl
  | succ fuel => rw [items?_succ, items?_succ, value?_skipBlanks]

/-! ## Mappings -/

/-- What the reader of a mapping does behind an entry. -/
def afterEntry (fuel : Nat) (es : List (Value × Value)) (t : Text) :
    Option (List (Value × Value) × Text) :=
  (sign? ',' t).elim ((sign? '\x7d' t).map fun r => (es, r.2)) fun r => entries? fuel es r.2

/-- A mapping that goes on is a key, a colon, a value and what stands behind it. -/
theorem entries?_succ (fuel : Nat) (es : List (Value × Value)) (t : Text) :
    entries? (fuel + 1) es t = (sign? '"' t).bind fun q =>
      (string? (q.2.length + 1) q.2).bind fun s => (sign? ':' s.2).bind fun c =>
        (value? fuel c.2).bind fun r => afterEntry fuel (Value.insert es (.text s.1) r.1) r.2 := by
  rw [entries?]
  split
  next u hu =>
    rw [sign?_of_cons hu, Option.bind_some]
    cases string? (u.length + 1) u with
    | none => rfl
    | some s =>
      simp only [Option.bind_eq_bind, Option.bind_some]
      split
      next w hw =>
        rw [sign?_of_cons hw, Option.bind_some]
        refine Option.bind_congr fun r _ => ?_
        rw [afterEntry]
        split
        next x hx => rw [sign?_of_cons hx, Option.elim_some]
        next x hx =>
          rw [sign?_other hx (by decide), Option.elim_none, sign?_of_cons hx]
          rfl
        next hcomma hbrace =>
          rw [sign?_of_ne hcomma, sign?_of_ne hbrace]
          rfl
      next hcolon =>
        rw [sign?_of_ne hcolon]
        rfl
  next hquote =>
    rw [sign?_of_ne hquote]
    rfl

theorem entries?_skipBlanks (fuel : Nat) (es : List (Value × Value)) (t : Text) :
    entries? fuel es (skipBlanks t) = entries? fuel es t := by
  cases fuel with
  | zero => rfl
  | succ fuel => rw [entries?, entries?, skipBlanks_skipBlanks]

/-! ## Values -/

/-- What a bracket opens. -/
def listFrom (fuel : Nat) (t : Text) : Option (Value × Text) :=
  (sign? ']' t).elim ((items? fuel t).map fun r => (.list r.1, r.2)) fun r => some (.list [], r.2)

/-- What a brace opens. -/
def dictFrom (fuel : Nat) (t : Text) : Option (Value × Text) :=
  (sign? '\x7d' t).elim ((entries? fuel [] t).map fun r => (.dict r.1, r.2)) fun r =>
    some (.dict [], r.2)

/-- What a quote opens. -/
def textFrom (t : Text) : Option (Value × Text) :=
  (string? (t.length + 1) t).map fun r => (.text r.1, r.2)

/-- A value is what its first sign opens. -/
theorem value?_succ (fuel : Nat) (t : Text) : value? (fuel + 1) t
    = (sign? '"' t).elim
        ((sign? '[' t).elim
          ((sign? '\x7b' t).elim (scalar? (skipBlanks t)) fun r => dictFrom fuel r.2)
          fun r => listFrom fuel r.2)
        fun r => textFrom r.2 := by
  rw [value?]
  split
  next u hu =>
    rw [sign?_of_cons hu, Option.elim_some, textFrom]
    cases string? (u.length + 1) u <;> rfl
  next u hu =>
    rw [sign?_other hu (by decide), Option.elim_none, sign?_of_cons hu, Option.elim_some, listFrom]
    split
    next w hw =>
      rw [sign?_of_cons hw]
      rfl
    next hw =>
      rw [sign?_of_ne hw, Option.elim_none, items?_skipBlanks]
      cases items? fuel u <;> rfl
  next u hu =>
    rw [sign?_other hu (by decide), Option.elim_none, sign?_other hu (by decide),
      Option.elim_none, sign?_of_cons hu, Option.elim_some, dictFrom]
    split
    next w hw =>
      rw [sign?_of_cons hw]
      rfl
    next hw =>
      rw [sign?_of_ne hw, Option.elim_none, entries?_skipBlanks]
      cases entries? fuel [] u <;> rfl
  next hquote hbracket hbrace =>
    rw [sign?_of_ne hquote, sign?_of_ne hbracket, sign?_of_ne hbrace]
    rfl

/-- What begins with no blank, quote or bracket is read as a value without parts. -/
theorem value?_scalar {p : CodePoint} (hblank : isBlank p = false) (hquote : p ≠ .char '"')
    (hbracket : p ≠ .char '[') (hbrace : p ≠ .char '\x7b') (fuel : Nat) (t : Text) :
    value? (fuel + 1) (p :: t) = scalar? (p :: t) := by
  rw [value?, skipBlanks_cons hblank]
  split
  next heq => exact absurd (List.cons.inj heq).1 hquote
  next heq => exact absurd (List.cons.inj heq).1 hbracket
  next heq => exact absurd (List.cons.inj heq).1 hbrace
  next => rfl

/-! ## Strings -/

/-- Behind a backslash and its letter the code point of an escape is read. -/
theorem string?_escape (fuel : Nat) (t : Text) :
    string? (fuel + 1) (.char '\\' :: .char 'u' :: t) = (longEscape? t).bind fun r =>
      (string? fuel r.2).map fun s => (r.1 :: s.1, s.2) := by
  rw [string?]
  cases longEscape? t with
  | none => rfl
  | some r =>
    simp only [Option.bind_eq_bind, Option.bind_some]
    exact Option.map_eq_bind.symm

/-- Behind a backslash any other letter stands for one character. -/
theorem string?_letter {c : Char} (h : c ≠ 'u') (fuel : Nat) (t : Text) :
    string? (fuel + 1) (.char '\\' :: .char c :: t) = (shortEscape? c).bind fun d =>
      (string? fuel t).map fun s => (.char d :: s.1, s.2) := by
  rw [string?]
  · cases shortEscape? c with
    | none => rfl
    | some d =>
      simp only [Option.bind_eq_bind, Option.bind_some]
      exact Option.map_eq_bind.symm
  · exact h

/-- Any other code point stands for itself, unless it is a control character. -/
theorem string?_plain {p : CodePoint} (hquote : p ≠ .char '"') (hslash : p ≠ .char '\\')
    (fuel : Nat) (t : Text) : string? (fuel + 1) (p :: t)
      = if p.toNat < 0x20 then none else (string? fuel t).map fun s => (p :: s.1, s.2) := by
  rw [string?]
  · simp only [Option.bind_eq_bind, Option.map_eq_bind]
    rfl
  · exact hquote
  · exact hslash

end Json
end VerifiableEscrow
