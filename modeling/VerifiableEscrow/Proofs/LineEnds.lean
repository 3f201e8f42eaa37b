import VerifiableEscrow.Proofs.JsonReading
import VerifiableEscrow.Proofs.PlainText

/-!
# JSON does not mind how lines end

A text that comes from a file has its line ends unified, one that comes as a text has not, and yet
both are read as the same JSON.  Outside of strings a line end is a blank, however it is written,
and the reader never stops in the middle of blanks.  Inside of strings no way of writing one is
admitted.

This is a property of each reader (`Steady`): with unified line ends it answers the same and leaves
the same, with unified line ends.  It is put together along the way in which readers are: one after
another (`Steady.bind`), one in place of another (`Steady.elim`), behind blanks (`Steady.skipping`),
and by the code point at the front (`Steady.of_head`).

A text gets shorter where two code points become one line end, and so does the fuel for it.  Hence
steadiness also says that no reader leaves more than it was given, and with that any fuel that
covers the text will do (`agrees`).

* `steady_scalar?`, `steady_string?`, `steadyTo`: the readers, from the leaves up;
* `read?_unifyLineEnds`: **a text is read the same with its line ends unified**.
-/

namespace VerifiableEscrow

namespace Text

theorem unifyLineEnds_cons {p : CodePoint} (h : p ≠ .char '\r') (t : Text) :
    unifyLineEnds (p :: t) = p :: unifyLineEnds t := by
  rw [unifyLineEnds]
  · exact fun hp _ => h hp
  · exact fun _ _ hp _ => h hp

/-- A carriage return becomes a line feed, and may take one with it. -/
theorem exists_unifyLineEnds_return (t : Text) :
    ∃ u : Text, unifyLineEnds (.char '\r' :: t) = .char '\n' :: unifyLineEnds u
      ∧ (t = u ∨ t = .char '\n' :: u) := by
  cases t with
  | nil => exact ⟨[], rfl, .inl rfl⟩
  | cons p t =>
    by_cases h : p = .char '\n'
    · exact ⟨t, by rw [unifyLineEnds, if_pos h], .inr (by rw [h])⟩
    · exact ⟨p :: t, by rw [unifyLineEnds, if_neg h], .inl rfl⟩

theorem length_unifyLineEnds_le (t : Text) : (unifyLineEnds t).length ≤ t.length := by
  fun_induction unifyLineEnds t with
  | case1 => exact Nat.le_refl _
  | case2 => exact Nat.le_refl _
  | case3 rest ih => simp only [List.length_cons]; omega
  | case4 p rest _ ih => simp only [List.length_cons] at ih ⊢; omega
  | case5 p rest _ _ ih => simp only [List.length_cons]; omega

theorem isEmpty_unifyLineEnds (t : Text) : (unifyLineEnds t).isEmpty = t.isEmpty := by
  fun_cases unifyLineEnds t <;> rfl

end Text

namespace Json

open Text (unifyLineEnds unifyLineEnds_cons exists_unifyLineEnds_return length_unifyLineEnds_le)

theorem skipBlanks_unifyLineEnds (t : Text) :
    skipBlanks (unifyLineEnds t) = unifyLineEnds (skipBlanks t) := by
  have hfeed (u : Text) : skipBlanks (.char '\n' :: u) = skipBlanks u :=
    List.dropWhile_cons_of_pos rfl
  have hreturn (u : Text) : skipBlanks (.char '\r' :: u) = skipBlanks u :=
    List.dropWhile_cons_of_pos rfl
  fun_induction unifyLineEnds t with
  | case1 => rfl
  | case2 => rfl
  | case3 rest ih => rw [hfeed, hreturn, hfeed, ih]
  | case4 p rest _ ih => rw [hfeed, hreturn, ih]
  | case5 p rest hlast hreturn' ih =>
    have hp : p ≠ .char '\r' := by
      rintro rfl
      cases rest with
      | nil => exact hlast rfl rfl
      | cons q rest => exact hreturn' q rest rfl rfl
    cases hblank : isBlank p with
    | false => rw [skipBlanks_cons hblank, skipBlanks_cons hblank, unifyLineEnds_cons hp]
    | true =>
      rw [skipBlanks, List.dropWhile_cons_of_pos hblank, skipBlanks,
        List.dropWhile_cons_of_pos hblank]
      exact ih

theorem length_skipBlanks_le (t : Text) : (skipBlanks t).length ≤ t.length :=
  (List.dropWhile_suffix isBlank).length_le

/-! ## Steady readers -/

/-- A reader that does not mind how lines end, and leaves no more than it was given. -/
structure Steady {α : Type} (f : Text → Option (α × Text)) : Prop where
  unified : ∀ t, f (unifyLineEnds t) = (f t).map fun r => (r.1, unifyLineEnds r.2)
  length_le : ∀ t r, f t = some r → r.2.length ≤ t.length

namespace Steady

variable {α β : Type} {f : Text → Option (α × Text)}

theorem of_none : Steady fun _ => (none : Option (α × Text)) :=
  ⟨fun _ => rfl, fun _ _ h => nomatch h⟩

theorem of_pure (a : α) : Steady fun t => some (a, t) := by
  refine ⟨fun _ => rfl, fun t r h => ?_⟩
  cases h
  exact Nat.le_refl _

/-- Readers one or another, by what is known before reading. -/
theorem ite (hf : Steady f) {g : Text → Option (α × Text)} (hg : Steady g) (P : Prop)
    [Decidable P] : Steady fun t => if P then f t else g t := by
  by_cases h : P
  · simp only [if_pos h]
    exact hf
  · simp only [if_neg h]
    exact hg

/-- Readers one in place of another: the second goes on behind the first, the third stands in where
the first fails. -/
theorem elim (hf : Steady f) {g : α × Text → Option (β × Text)}
    (hg : ∀ a, Steady fun t => g (a, t)) {h : Text → Option (β × Text)} (hh : Steady h) :
    Steady fun t => (f t).elim (h t) g := by
  refine ⟨fun t => ?_, fun t r hr => ?_⟩
  · rw [hf.unified]
    cases f t with
    | none => exact hh.unified t
    | some r => exact (hg r.1).unified r.2
  · cases hft : f t with
    | none =>
      rw [hft] at hr
      exact hh.length_le t r hr
    | some s =>
      rw [hft] at hr
      exact Nat.le_trans ((hg s.1).length_le s.2 r hr) (hf.length_le t s hft)

/-- Readers one after another. -/
theorem bind (hf : Steady f) {g : α × Text → Option (β × Text)}
    (hg : ∀ a, Steady fun t => g (a, t)) : Steady fun t => (f t).bind g := by
  refine ⟨fun t => ?_, fun t r hr => ?_⟩
  · rw [hf.unified]
    cases f t with
    | none => rfl
    | some r => exact (hg r.1).unified r.2
  · obtain ⟨s, hs, hr⟩ := Option.bind_eq_some_iff.mp hr
    exact Nat.le_trans ((hg s.1).length_le s.2 r hr) (hf.length_le t s hs)

theorem map (hf : Steady f) (k : α → β) : Steady fun t => (f t).map fun r => (k r.1, r.2) := by
  have hbind := hf.bind (g := fun r => some (k r.1, r.2)) fun a => of_pure (k a)
  refine ⟨fun t => ?_, fun t r hr => hbind.length_le t r ?_⟩
  · rw [Option.map_eq_bind, Option.map_eq_bind (x := f t)]
    exact hbind.unified t
  · rw [← hr, Option.map_eq_bind]
    rfl

/-- What reads on from the front of a text, whatever way it takes it from there. -/
def GoesOn (f : Text → Option (α × Text)) (p : CodePoint) : Prop :=
  ∃ g, Steady g ∧ ((∀ t, f (p :: t) = g (p :: t)) ∨ ∀ t, f (p :: t) = g t)

theorem GoesOn.unified {p : CodePoint} (h : GoesOn f p) (hp : p ≠ .char '\r') (t : Text) :
    f (p :: unifyLineEnds t) = (f (p :: t)).map fun r => (r.1, unifyLineEnds r.2) := by
  obtain ⟨g, hg, heq | heq⟩ := h
  · rw [heq, heq, ← hg.unified, unifyLineEnds_cons hp]
  · rw [heq, heq, ← hg.unified]

theorem GoesOn.length_le {p : CodePoint} (h : GoesOn f p) {t : Text} {r : α × Text}
    (hr : f (p :: t) = some r) : r.2.length ≤ t.length + 1 := by
  obtain ⟨g, hg, heq | heq⟩ := h
  · rw [heq] at hr
    exact hg.length_le _ r hr
  · rw [heq] at hr
    exact Nat.le_succ_of_le (hg.length_le _ r hr)

/-- A reader that decides by the code point at the front and takes no line end there. -/
theorem of_head (hnil : f [] = none) (hreturn : ∀ t, f (.char '\r' :: t) = none)
    (hfeed : ∀ t, f (.char '\n' :: t) = none)
    (hhead : ∀ p, p ≠ .char '\r' → p ≠ .char '\n' → GoesOn f p) : Steady f := by
  have hgoes (p : CodePoint) (hp : p ≠ .char '\r') : GoesOn f p := by
    by_cases hn : p = .char '\n'
    · subst hn
      exact ⟨_, of_none, .inr hfeed⟩
    · exact hhead p hp hn
  refine ⟨fun t => ?_, fun t r hr => ?_⟩
  · cases t with
    | nil =>
      rw [unifyLineEnds, hnil]
      rfl
    | cons p t =>
      by_cases hp : p = .char '\r'
      · subst hp
        obtain ⟨u, hu, -⟩ := exists_unifyLineEnds_return t
        rw [hu, hfeed, hreturn]
        rfl
      · rw [unifyLineEnds_cons hp]
        exact (hgoes p hp).unified hp t
  · cases t with
    | nil =>
      rw [hnil] at hr
      cases hr
    | cons p t =>
      by_cases hp : p = .char '\r'
      · subst hp
        rw [hreturn] at hr
        cases hr
      · exact (hgoes p hp).length_le hr

/-- Passing over blanks first. -/
theorem skipping (hf : Steady f) : Steady fun t => f (skipBlanks t) := by
  refine ⟨fun t => ?_, fun t r hr => ?_⟩
  · rw [skipBlanks_unifyLineEnds]
    exact hf.unified (skipBlanks t)
  · exact Nat.le_trans (hf.length_le _ r hr) (length_skipBlanks_le t)

end Steady

open Steady (GoesOn)

/-! ## Words and numbers -/

/-- Reading a word, which has no line end in it. -/
theorem steady_expect? {α : Type} (cs : List Char) (h : '\r' ∉ cs ∧ '\n' ∉ cs) (a : α) :
    Steady fun t => (expect? cs t).map fun rest => (a, rest) := by
  induction cs with
  | nil => exact Steady.of_pure a
  | cons c cs ih =>
    rw [List.mem_cons, List.mem_cons, not_or, not_or] at h
    obtain ⟨⟨hreturn, hreturns⟩, hfeed, hfeeds⟩ := h
    have hne {p : CodePoint} (hp : p ≠ .char c) (t : Text) : expect? (c :: cs) (p :: t) = none :=
      if_neg hp
    refine Steady.of_head rfl (fun t => ?_) (fun t => ?_) fun p _ _ => ?_
    · rw [hne fun hc => hreturn (CodePoint.char.inj hc)]
      rfl
    · rw [hne fun hc => hfeed (CodePoint.char.inj hc)]
      rfl
    · by_cases hp : p = .char c
      · refine ⟨_, ih ⟨hreturns, hfeeds⟩, .inr fun t => ?_⟩
        exact congrArg (Option.map fun rest => (a, rest)) (if_pos hp)
      · refine ⟨_, Steady.of_none, .inr fun t => ?_⟩
        exact congrArg (Option.map fun rest => (a, rest)) (hne hp t)

theorem steady_digits : Steady fun t => some (digits t) := by
  refine ⟨fun t => ?_, fun t r hr => ?_⟩
  · show some (digits (unifyLineEnds t)) = some ((digits t).1, unifyLineEnds (digits t).2)
    induction t with
    | nil => rfl
    | cons p t ih =>
      by_cases hp : p = .char '\r'
      · subst hp
        obtain ⟨u, hu, -⟩ := exists_unifyLineEnds_return t
        have hreturn : digits (.char '\r' :: t) = ([], .char '\r' :: t) := rfl
        rw [hreturn, hu]
        rfl
      · rw [unifyLineEnds_cons hp]
        cases hdigit : isDigit p with
        | false =>
          have hstop (u : Text) : digits (p :: u) = ([], p :: u) := by
            rw [digits, List.takeWhile_cons_of_neg (by simp [hdigit]),
              List.dropWhile_cons_of_neg (by simp [hdigit])]
          rw [hstop, hstop, unifyLineEnds_cons hp]
        | true =>
          have hgo (u : Text) : digits (p :: u) = (p :: (digits u).1, (digits u).2) := by
            rw [digits, List.takeWhile_cons_of_pos hdigit, List.dropWhile_cons_of_pos hdigit]
            rfl
          rw [hgo, hgo, Option.some.inj ih]
  · cases hr
    exact (List.dropWhile_suffix isDigit).length_le

/-- Digits, one at least. -/
theorem steady_someDigits :
    Steady fun t => if (digits t).1.isEmpty then none else some (digits t) :=
  steady_digits.bind (g := fun r => if r.1.isEmpty then none else some r) fun ds =>
    Steady.of_none.ite (Steady.of_pure ds) (ds.isEmpty = true)

theorem steady_integerDigits? : Steady integerDigits? := by
  refine Steady.of_head rfl (fun _ => rfl) (fun _ => rfl) fun p _ _ => ?_
  by_cases hp : p = .char '0'
  · subst hp
    exact ⟨_, Steady.of_pure [.char '0'], .inr fun _ => rfl⟩
  · refine ⟨_, steady_someDigits, .inl fun t => ?_⟩
    unfold integerDigits?
    split
    next heq => exact absurd (List.cons.inj heq).1 hp
    next => rfl

/-- The digits behind a point, where there are some. -/
theorem fractionDigits_eq (t : Text) : some (fractionDigits t)
    = (((expect? ['.'] t).map fun u => ((), u)).bind fun r =>
        if (digits r.2).1.isEmpty then none else some (digits r.2)).elim (some ([], t)) some := by
  unfold fractionDigits
  split
  next u =>
    have hpoint : expect? ['.'] (.char '.' :: u) = some u := rfl
    rw [hpoint]
    dsimp only [Option.map_some, Option.bind_some]
    cases (digits u).1.isEmpty <;> rfl
  next h =>
    have hpoint : expect? ['.'] t = none := by
      cases t with
      | nil => rfl
      | cons p u => exact if_neg fun hp => h u (by rw [hp])
    rw [hpoint]
    rfl

theorem steady_fractionDigits : Steady fun t => some (fractionDigits t) := by
  simp only [fractionDigits_eq]
  exact ((steady_expect? ['.'] (by decide) ()).bind (g := fun r =>
    if (digits r.2).1.isEmpty then none else some (digits r.2)) fun _ => steady_someDigits).elim
    (g := some) Steady.of_pure (Steady.of_pure [])

theorem exponentSign_eq (t : Text) : some (exponentSign t)
    = ((expect? ['-'] t).map fun u => (true, u)).elim
        (((expect? ['+'] t).map fun u => (false, u)).elim (some (false, t)) some) some := by
  unfold exponentSign
  split
  next => rfl
  next => rfl
  next hminus hplus =>
    have hsigns : expect? ['-'] t = none ∧ expect? ['+'] t = none := by
      cases t with
      | nil => exact ⟨rfl, rfl⟩
      | cons p u =>
        exact ⟨if_neg fun hp => hminus u (by rw [hp]), if_neg fun hp => hplus u (by rw [hp])⟩
    rw [hsigns.1, hsigns.2]
    rfl

theorem steady_exponentSign : Steady fun t => some (exponentSign t) := by
  simp only [exponentSign_eq]
  exact (steady_expect? ['-'] (by decide) true).elim (g := some) Steady.of_pure
    ((steady_expect? ['+'] (by decide) false).elim (g := some) Steady.of_pure
      (Steady.of_pure false))

theorem steady_power? : Steady power? := by
  refine Steady.of_head rfl (fun _ => rfl) (fun _ => rfl) fun p _ _ => ?_
  cases p with
  | half s => exact ⟨_, Steady.of_none, .inr fun _ => rfl⟩
  | char c =>
    by_cases hc : c = 'e' ∨ c = 'E'
    · have hrest := steady_exponentSign.bind (g := fun r =>
        (if (digits r.2).1.isEmpty then none else some (digits r.2)).map fun d =>
          (if r.1 then -(numberOf d.1 : Int) else numberOf d.1, d.2))
        fun negative => steady_someDigits.map fun ds =>
          if negative then -(numberOf ds : Int) else numberOf ds
      refine ⟨_, hrest, .inr fun t => ?_⟩
      rw [power?, if_pos hc]
      dsimp only [Option.bind_some]
      cases (digits (exponentSign t).2).1.isEmpty <;> rfl
    · exact ⟨_, Steady.of_none, .inr fun t => by rw [power?, if_neg hc]⟩

/-- A number is a double where it has a fraction or a power, and an integer where it has none. -/
def numberFrom (negative : Bool) (whole fraction : Text) : Option Int → Value
  | some e =>
      .readDouble (Binary64.ofDecimal negative (numberOf (whole ++ fraction)) (e - fraction.length))
  | none =>
      if fraction.isEmpty then .int (if negative then -(numberOf whole : Int) else numberOf whole)
      else .readDouble (Binary64.ofDecimal negative (numberOf (whole ++ fraction))
        (-(fraction.length : Int)))

theorem magnitude?_eq (negative : Bool) (t : Text) :
    magnitude? negative t = (integerDigits? t).bind fun w =>
      (some (fractionDigits w.2)).bind fun r =>
      (power? r.2).elim (some (numberFrom negative w.1 r.1 none, r.2)) fun e =>
        some (numberFrom negative w.1 r.1 (some e.1), e.2) := by
  rw [magnitude?]
  cases integerDigits? t with
  | none => rfl
  | some w =>
    simp only [Option.bind_eq_bind, Option.bind_some]
    cases power? (fractionDigits w.2).2 with
    | none => cases h : (fractionDigits w.2).1.isEmpty <;> simp [numberFrom, h]
    | some e => rfl

theorem steady_magnitude? (negative : Bool) : Steady (magnitude? negative) := by
  simp only [funext (magnitude?_eq negative)]
  refine steady_integerDigits?.bind fun whole => ?_
  refine steady_fractionDigits.bind (g := fun r =>
    (power? r.2).elim (some (numberFrom negative whole r.1 none, r.2)) fun e =>
      some (numberFrom negative whole r.1 (some e.1), e.2)) fun fraction => ?_
  exact steady_power?.elim (g := fun e => some (numberFrom negative whole fraction (some e.1), e.2))
    (fun e => Steady.of_pure (numberFrom negative whole fraction (some e)))
    (Steady.of_pure (numberFrom negative whole fraction none))

theorem number?_eq (negative : Bool) (t : Text) :
    number? negative t = ((expect? "Infinity".toList t).map fun rest =>
      (Value.readDouble (Binary64.ofMagnitude negative Binary64.infinityBits), rest)).elim
        (magnitude? negative t) some := by
  rw [number?]
  cases expect? "Infinity".toList t <;> rfl

theorem steady_number? (negative : Bool) : Steady (number? negative) := by
  simp only [funext (number?_eq negative)]
  exact (steady_expect? "Infinity".toList (by decide) _).elim (g := some) Steady.of_pure
    (steady_magnitude? negative)

theorem steady_scalar? : Steady scalar? := by
  have hword {v : Value} (cs : List Char) (h : '\r' ∉ cs ∧ '\n' ∉ cs) := steady_expect? cs h v
  refine Steady.of_head rfl (fun _ => rfl) (fun _ => rfl) fun p _ _ => ?_
  by_cases hn : p = .char 'n'
  · subst hn
    exact ⟨_, hword "null".toList (by decide), .inl fun _ => rfl⟩
  by_cases ht : p = .char 't'
  · subst ht
    exact ⟨_, hword "true".toList (by decide), .inl fun _ => rfl⟩
  by_cases hf : p = .char 'f'
  · subst hf
    exact ⟨_, hword "false".toList (by decide), .inl fun _ => rfl⟩
  by_cases hN : p = .char 'N'
  · subst hN
    exact ⟨_, hword "NaN".toList (by decide), .inl fun _ => rfl⟩
  by_cases hminus : p = .char '-'
  · subst hminus
    exact ⟨_, steady_number? true, .inr fun _ => rfl⟩
  refine ⟨_, steady_number? false, .inl fun t => ?_⟩
  unfold scalar?
  split
  next heq => exact absurd (List.cons.inj heq).1 hn
  next heq => exact absurd (List.cons.inj heq).1 ht
  next heq => exact absurd (List.cons.inj heq).1 hf
  next heq => exact absurd (List.cons.inj heq).1 hN
  next heq => exact absurd (List.cons.inj heq).1 hminus
  next => rfl

/-! ## Strings -/

/-- Reads a number of hexadecimal digits, on top of those read before. -/
def hexDigits? (acc : Nat) : Nat → Text → Option (Nat × Text)
  | 0, t => some (acc, t)
  | _ + 1, [] => none
  | count + 1, p :: t => (Hex.value? p).bind fun d => hexDigits? (acc * 16 + d) count t

theorem fourDigits?_eq (t : Text) : fourDigits? t = hexDigits? 0 4 t := by
  rcases t with _ | ⟨p, _ | ⟨q, _ | ⟨r, _ | ⟨s, t⟩⟩⟩⟩ <;> simp [fourDigits?, hexDigits?]

theorem steady_hexDigits? (acc count : Nat) : Steady (hexDigits? acc count) := by
  induction count generalizing acc with
  | zero => exact Steady.of_pure acc
  | succ count ih =>
    refine Steady.of_head rfl (fun _ => rfl) (fun _ => rfl) fun p _ _ => ?_
    cases h : Hex.value? p with
    | none => exact ⟨_, Steady.of_none, .inr fun t => by rw [hexDigits?, h]; rfl⟩
    | some d => exact ⟨_, ih (acc * 16 + d), .inr fun t => by rw [hexDigits?, h]; rfl⟩

theorem steady_fourDigits? : Steady fourDigits? := by
  rw [funext fourDigits?_eq]
  exact steady_hexDigits? 0 4

theorem lowHalf?_eq (t : Text) : lowHalf? t
    = ((expect? ['\\', 'u'] t).map fun u => ((), u)).bind fun r => (fourDigits? r.2).bind fun s =>
        if 0xDC00 ≤ s.1 ∧ s.1 < 0xE000 then some s else none := by
  unfold lowHalf?
  split
  next u => rfl
  next h =>
    have hmark : expect? ['\\', 'u'] t = none := by
      rcases t with _ | ⟨p, _ | ⟨q, u⟩⟩
      · rfl
      · by_cases hp : p = .char '\\' <;> simp [expect?, hp]
      · by_cases hp : p = .char '\\'
        · by_cases hq : q = .char 'u'
          · exact absurd (by rw [hp, hq]) (h u)
          · simp [expect?, hp, hq]
        · simp [expect?, hp]
    rw [hmark]
    rfl

theorem steady_lowHalf? : Steady lowHalf? := by
  rw [funext lowHalf?_eq]
  refine (steady_expect? ['\\', 'u'] (by decide) ()).bind fun _ => ?_
  refine steady_fourDigits?.bind (g := fun s =>
    if 0xDC00 ≤ s.1 ∧ s.1 < 0xE000 then some s else none) fun n => ?_
  exact (Steady.of_pure n).ite Steady.of_none (0xDC00 ≤ n ∧ n < 0xE000)

/-- A code point, where a number has one. -/
theorem steady_ofNat? (n : Nat) : Steady fun t => (CodePoint.ofNat? n).map fun p => (p, t) := by
  cases CodePoint.ofNat? n with
  | none => exact Steady.of_none
  | some p => exact Steady.of_pure p

/-- An escape stands for its own number, or with the one behind it for the number of their pair. -/
theorem longEscape?_eq (t : Text) : longEscape? t = (fourDigits? t).bind fun r =>
    (if 0xD800 ≤ r.1 ∧ r.1 < 0xDC00 then lowHalf? r.2 else none).elim
      ((CodePoint.ofNat? r.1).map fun p => (p, r.2)) fun s =>
        (CodePoint.ofNat? (0x10000 + (r.1 - 0xD800) * 0x400 + (s.1 - 0xDC00))).map fun p =>
          (p, s.2) := by
  have hmap (n : Nat) (u : Text) : ((CodePoint.ofNat? n).map fun p => (p, u))
      = (CodePoint.ofNat? n).bind fun p => some (p, u) := Option.map_eq_bind
  simp only [hmap]
  -- Every step is a rewriting: the numbers in here are too large to be unfolded.
  rw [longEscape?, Option.bind_eq_bind]
  cases fourDigits? t with
  | none => rw [Option.bind_none, Option.bind_none]
  | some r =>
    rw [Option.bind_some, Option.bind_some]
    rcases r with ⟨n, rest⟩
    dsimp only
    cases (if 0xD800 ≤ n ∧ n < 0xDC00 then lowHalf? rest else none) with
    | none => rw [Option.elim_none, Option.bind_eq_bind]
    | some s => rw [Option.elim_some, Option.bind_eq_bind]

theorem steady_longEscape? : Steady longEscape? := by
  rw [funext longEscape?_eq]
  refine steady_fourDigits?.bind fun n => ?_
  have hpair : Steady fun t => if 0xD800 ≤ n ∧ n < 0xDC00 then lowHalf? t else none :=
    steady_lowHalf?.ite Steady.of_none _
  exact hpair.elim
    (g := fun s => (CodePoint.ofNat? (0x10000 + (n - 0xD800) * 0x400 + (s.1 - 0xDC00))).map
      fun p => (p, s.2))
    (fun low => steady_ofNat? (0x10000 + (n - 0xD800) * 0x400 + (low - 0xDC00))) (steady_ofNat? n)

/-! ### The reader of strings -/

theorem steady_string? (fuel : Nat) : Steady (string? fuel) := by
  induction fuel with
  | zero => exact Steady.of_none
  | succ fuel ih =>
    refine Steady.of_head rfl (fun _ => rfl) (fun _ => rfl) fun p _ _ => ?_
    by_cases hquote : p = .char '"'
    · subst hquote
      exact ⟨_, Steady.of_pure [], .inr fun _ => rfl⟩
    by_cases hslash : p = .char '\\'
    · subst hslash
      refine ⟨fun t => string? (fuel + 1) (.char '\\' :: t), ?_, .inr fun _ => rfl⟩
      refine Steady.of_head rfl (fun _ => rfl) (fun _ => rfl) fun q _ _ => ?_
      cases q with
      | half s => exact ⟨_, Steady.of_none, .inr fun _ => rfl⟩
      | char c =>
        by_cases hc : c = 'u'
        · subst hc
          exact ⟨_, steady_longEscape?.bind (g := fun r => (string? fuel r.2).map fun s =>
            (r.1 :: s.1, s.2)) fun p => ih.map (p :: ·), .inr (string?_escape fuel)⟩
        · cases h : shortEscape? c with
          | none =>
            refine ⟨_, Steady.of_none, .inr fun t => ?_⟩
            simp only [string?_letter hc, h]
            rfl
          | some d =>
            refine ⟨_, ih.map (.char d :: ·), .inr fun t => ?_⟩
            simp only [string?_letter hc, h]
            rfl
    · by_cases hlow : p.toNat < 0x20
      · exact ⟨_, Steady.of_none, .inr fun t => by rw [string?_plain hquote hslash, if_pos hlow]⟩
      · exact ⟨_, ih.map (p :: ·), .inr fun t => by rw [string?_plain hquote hslash, if_neg hlow]⟩

/-- Any fuel will do that covers the text. -/
theorem string?_fuel {fuel fuel' : Nat} {t : Text} (h : t.length < fuel) (h' : t.length < fuel') :
    string? fuel t = string? fuel' t := by
  induction fuel generalizing fuel' t with
  | zero => exact absurd h (Nat.not_lt_zero _)
  | succ fuel ih =>
    obtain ⟨fuel', rfl⟩ := Nat.exists_eq_succ_of_ne_zero (Nat.ne_zero_of_lt h')
    rcases t with _ | ⟨p, t⟩
    · rfl
    rw [List.length_cons] at h h'
    by_cases hquote : p = .char '"'
    · subst hquote
      rfl
    by_cases hslash : p = .char '\\'
    · subst hslash
      rcases t with _ | ⟨q, t⟩
      · rfl
      rw [List.length_cons] at h h'
      cases q with
      | half s => rfl
      | char c =>
        by_cases hc : c = 'u'
        · subst hc
          rw [string?_escape, string?_escape]
          refine Option.bind_congr fun r hr => ?_
          have hlength := steady_longEscape?.length_le t r hr
          rw [ih (show r.2.length < fuel by omega) (show r.2.length < fuel' by omega)]
        · rw [string?_letter hc, string?_letter hc,
            ih (show t.length < fuel by omega) (show t.length < fuel' by omega)]
    · rw [string?_plain hquote hslash, string?_plain hquote hslash,
        ih (show t.length < fuel by omega) (show t.length < fuel' by omega)]

/-- The reader of a string with the fuel that values give it. -/
theorem steady_string?_length : Steady fun t => string? (t.length + 1) t := by
  refine ⟨fun t => ?_, fun t => (steady_string? (t.length + 1)).length_le t⟩
  have hlength := length_unifyLineEnds_le t
  rw [← (steady_string? (t.length + 1)).unified]
  exact string?_fuel (Nat.lt_succ_self _) (by omega)

/-! ## Values -/

theorem length_sign?_lt {c : Char} {t : Text} {r : Unit × Text} (h : sign? c t = some r) :
    r.2.length < t.length := by
  have hlength := length_skipBlanks_le t
  by_cases hsign : ∃ u, skipBlanks t = .char c :: u
  · obtain ⟨u, hu⟩ := hsign
    rw [sign?_of_cons hu] at h
    cases h
    rw [hu, List.length_cons] at hlength
    exact hlength
  · rw [sign?_of_ne (not_exists.mp hsign)] at h
    cases h

theorem steady_sign? {c : Char} (h : '\r' ∉ [c] ∧ '\n' ∉ [c]) : Steady (sign? c) :=
  (steady_expect? [c] h ()).skipping

/-- What a bounded nesting of readers is proved to be, one level on top of the other. -/
structure SteadyTo (fuel : Nat) : Prop where
  value : Steady (value? fuel)
  items : Steady (items? fuel)
  entries : ∀ es, Steady (entries? fuel es)

theorem steady_textFrom : Steady textFrom := by
  unfold textFrom
  exact steady_string?_length.map Value.text

theorem SteadyTo.listFrom {fuel : Nat} (h : SteadyTo fuel) : Steady (listFrom fuel) := by
  unfold Json.listFrom
  exact (steady_sign? (c := ']') (by decide)).elim (g := fun r => some (Value.list [], r.2))
    (fun _ => Steady.of_pure (Value.list [])) (h.items.map Value.list)

theorem SteadyTo.dictFrom {fuel : Nat} (h : SteadyTo fuel) : Steady (dictFrom fuel) := by
  unfold Json.dictFrom
  exact (steady_sign? (c := '\x7d') (by decide)).elim (g := fun r => some (Value.dict [], r.2))
    (fun _ => Steady.of_pure (Value.dict [])) ((h.entries []).map Value.dict)

theorem SteadyTo.afterItem {fuel : Nat} (h : SteadyTo fuel) : Steady (afterItem fuel) := by
  unfold Json.afterItem
  exact (steady_sign? (by decide)).elim (g := fun r => items? fuel r.2) (fun _ => h.items)
    ((steady_sign? (by decide)).map fun _ => [])

theorem SteadyTo.afterEntry {fuel : Nat} (h : SteadyTo fuel) (es : List (Value × Value)) :
    Steady (afterEntry fuel es) := by
  unfold Json.afterEntry
  exact (steady_sign? (by decide)).elim (g := fun r => entries? fuel es r.2)
    (fun _ => h.entries es) ((steady_sign? (by decide)).map fun _ => es)

theorem SteadyTo.succ {fuel : Nat} (h : SteadyTo fuel) : SteadyTo (fuel + 1) := by
  refine ⟨?_, ?_, fun es => ?_⟩
  · rw [funext (value?_succ fuel)]
    refine (steady_sign? (by decide)).elim (g := fun r => textFrom r.2)
      (fun _ => steady_textFrom) ?_
    refine (steady_sign? (by decide)).elim (g := fun r => Json.listFrom fuel r.2)
      (fun _ => h.listFrom) ?_
    exact (steady_sign? (by decide)).elim (g := fun r => Json.dictFrom fuel r.2)
      (fun _ => h.dictFrom) steady_scalar?.skipping
  · rw [funext (items?_succ fuel)]
    exact h.value.bind (g := fun r => (Json.afterItem fuel r.2).map fun s => (r.1 :: s.1, s.2))
      fun v => h.afterItem.map (v :: ·)
  · rw [funext (entries?_succ fuel es)]
    refine (steady_sign? (by decide)).bind fun _ => ?_
    refine steady_string?_length.bind (g := fun s => (sign? ':' s.2).bind fun c =>
      (value? fuel c.2).bind fun r => Json.afterEntry fuel (Value.insert es (.text s.1) r.1) r.2)
      fun key => ?_
    refine (steady_sign? (c := ':') (by decide)).bind (g := fun c => (value? fuel c.2).bind fun r =>
      Json.afterEntry fuel (Value.insert es (.text key) r.1) r.2) fun _ => ?_
    exact h.value.bind (g := fun r => Json.afterEntry fuel (Value.insert es (.text key) r.1) r.2)
      fun v => h.afterEntry (Value.insert es (.text key) v)

theorem steadyTo (fuel : Nat) : SteadyTo fuel := by
  induction fuel with
  | zero => exact ⟨Steady.of_none, Steady.of_none, fun _ => Steady.of_none⟩
  | succ fuel ih => exact ih.succ

/-! ## Fuel -/

/-- An amount of fuel reads like any other one, from a text that both cover. -/
structure Agrees (fuel : Nat) : Prop where
  value : ∀ (fuel' : Nat) (t : Text), 2 * t.length < fuel → 2 * t.length < fuel' →
    value? fuel t = value? fuel' t
  items : ∀ (fuel' : Nat) (t : Text), 2 * t.length + 1 < fuel → 2 * t.length + 1 < fuel' →
    items? fuel t = items? fuel' t
  entries : ∀ (fuel' : Nat) (es : List (Value × Value)) (t : Text), 2 * t.length + 1 < fuel →
    2 * t.length + 1 < fuel' → entries? fuel es t = entries? fuel' es t

variable {fuel fuel' : Nat}

theorem Agrees.listFrom (h : Agrees fuel) {t : Text} (hfuel : 2 * t.length + 1 < fuel)
    (hfuel' : 2 * t.length + 1 < fuel') : listFrom fuel t = listFrom fuel' t := by
  rw [Json.listFrom, Json.listFrom, h.items fuel' t hfuel hfuel']

theorem Agrees.dictFrom (h : Agrees fuel) {t : Text} (hfuel : 2 * t.length + 1 < fuel)
    (hfuel' : 2 * t.length + 1 < fuel') : dictFrom fuel t = dictFrom fuel' t := by
  rw [Json.dictFrom, Json.dictFrom, h.entries fuel' [] t hfuel hfuel']

/-- Behind a comma the text is shorter by one code point, and so covered by two less of fuel. -/
theorem Agrees.afterItem (h : Agrees fuel) {t : Text} (hfuel : 2 * t.length < fuel)
    (hfuel' : 2 * t.length < fuel') : afterItem fuel t = afterItem fuel' t := by
  rw [Json.afterItem, Json.afterItem]
  cases hcomma : sign? ',' t with
  | none => rfl
  | some r =>
    have hlength := length_sign?_lt hcomma
    exact h.items fuel' r.2 (by omega) (by omega)

theorem Agrees.afterEntry (h : Agrees fuel) (es : List (Value × Value)) {t : Text}
    (hfuel : 2 * t.length < fuel) (hfuel' : 2 * t.length < fuel') :
    afterEntry fuel es t = afterEntry fuel' es t := by
  rw [Json.afterEntry, Json.afterEntry]
  cases hcomma : sign? ',' t with
  | none => rfl
  | some r =>
    have hlength := length_sign?_lt hcomma
    exact h.entries fuel' es r.2 (by omega) (by omega)

theorem Agrees.value?_succ (h : Agrees fuel) {t : Text} (hfuel : 2 * t.length < fuel + 1)
    (hfuel' : 2 * t.length < fuel' + 1) : value? (fuel + 1) t = value? (fuel' + 1) t := by
  rw [Json.value?_succ, Json.value?_succ]
  cases hquote : sign? '"' t with
  | some r => rfl
  | none =>
    cases hbracket : sign? '[' t with
    | some r =>
      have hlength := length_sign?_lt hbracket
      exact h.listFrom (by omega) (by omega)
    | none =>
      cases hbrace : sign? '\x7b' t with
      | some r =>
        have hlength := length_sign?_lt hbrace
        exact h.dictFrom (by omega) (by omega)
      | none => rfl

theorem Agrees.items?_succ (h : Agrees fuel) {t : Text} (hfuel : 2 * t.length < fuel)
    (hfuel' : 2 * t.length < fuel') : items? (fuel + 1) t = items? (fuel' + 1) t := by
  rw [Json.items?_succ, Json.items?_succ, h.value fuel' t hfuel hfuel']
  refine Option.bind_congr fun r hr => ?_
  have hlength := (steadyTo fuel').value.length_le t r hr
  have hafter : Json.afterItem fuel r.2 = Json.afterItem fuel' r.2 :=
    h.afterItem (by omega) (by omega)
  rw [hafter]

theorem Agrees.entries?_succ (h : Agrees fuel) (es : List (Value × Value)) {t : Text}
    (hfuel : 2 * t.length < fuel) (hfuel' : 2 * t.length < fuel') :
    entries? (fuel + 1) es t = entries? (fuel' + 1) es t := by
  rw [Json.entries?_succ, Json.entries?_succ]
  refine Option.bind_congr fun q hq => Option.bind_congr fun s hs => ?_
  refine Option.bind_congr fun c hc => ?_
  have hq := length_sign?_lt hq
  have hs := (steady_string? (q.2.length + 1)).length_le q.2 s hs
  have hc := length_sign?_lt hc
  rw [h.value fuel' c.2 (by omega) (by omega)]
  refine Option.bind_congr fun r hr => ?_
  have hr := (steadyTo fuel').value.length_le c.2 r hr
  exact h.afterEntry _ (by omega) (by omega)

theorem agrees (fuel : Nat) : Agrees fuel := by
  induction fuel with
  | zero =>
    exact ⟨fun _ _ h => absurd h (Nat.not_lt_zero _), fun _ _ h => absurd h (Nat.not_lt_zero _),
      fun _ _ _ h => absurd h (Nat.not_lt_zero _)⟩
  | succ fuel ih =>
    refine ⟨fun fuel' t h h' => ?_, fun fuel' t h h' => ?_, fun fuel' es t h h' => ?_⟩ <;>
      obtain ⟨fuel', rfl⟩ := Nat.exists_eq_succ_of_ne_zero (Nat.ne_zero_of_lt h')
    · exact ih.value?_succ h h'
    · exact ih.items?_succ (by omega) (by omega)
    · exact ih.entries?_succ es (by omega) (by omega)

/-! ## Whole texts -/

theorem read?_eq (t : Text) : read? t = (value? (2 * t.length + 2) t).bind fun r =>
    if (skipBlanks r.2).isEmpty then some r.1 else none := rfl

/-- **A text is read the same with its line ends unified.** -/
theorem read?_unifyLineEnds (t : Text) : read? (unifyLineEnds t) = read? t := by
  have hlength := length_unifyLineEnds_le t
  rw [read?_eq, read?_eq, (agrees _).value (2 * t.length + 2) _ (by omega) (by omega),
    (steadyTo _).value.unified]
  cases value? (2 * t.length + 2) t with
  | none => rfl
  | some r =>
    rw [Option.map_some, Option.bind_some, Option.bind_some, skipBlanks_unifyLineEnds,
      Text.isEmpty_unifyLineEnds]

end Json
end VerifiableEscrow
