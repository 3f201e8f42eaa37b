import VerifiableEscrow.Proofs.JsonStrings

/-!
# JSON data reads back

What JSON has a form for, and gives back in the same kind, is built from the three words,
integers, strings of characters, lists, and mappings whose keys are different strings (`IsData`).
Strings and mappings carry by what is known of them.  Numbers bring in the one condition on what
follows, and lists are read like mappings without the keys.

* `roundTrips_int`: the digits of an integer of any size are read as the integer;
* `roundTrips_list`: a list carries when its items do;
* `roundTrips_of_isData`: **data carries**, by induction on how it is built.
-/

namespace VerifiableEscrow
namespace Json

/-! ## Decimal numerals -/

theorem isDigit_of_isDigit {c : Char} (h : c.isDigit = true) :
    isDigit (.char c) = true ∧ digit? (.char c) = some (c.toNat - 48) := by
  have hrange : '0' ≤ c ∧ c ≤ '9' := by
    rw [Char.isDigit, Bool.and_eq_true, decide_eq_true_eq, decide_eq_true_eq] at h
    exact h
  have hdigit : digit? (.char c) = some (c.toNat - 48) := if_pos hrange
  exact ⟨by rw [isDigit, hdigit]; rfl, hdigit⟩

/-- A decimal digit is none of the signs that the reader of values looks for. -/
theorem ne_of_isDigit {c d : Char} (h : c.isDigit = true) (hd : d.isDigit = false) : c ≠ d := by
  rintro rfl
  rw [h] at hd
  cases hd

/-- The numeral of a number. -/
def numeral (n : Nat) : Text := Text.ofChars (Nat.toDigits 10 n)

theorem ofInt_natCast (n : Nat) : Text.ofInt n = numeral n := by
  show Text.of (Nat.repr n) = _
  rw [Nat.repr_eq_ofList_toDigits, Text.of, String.toList_ofList, numeral]

theorem ofInt_negSucc (n : Nat) : Text.ofInt (.negSucc n) = .char '-' :: numeral (n + 1) := by
  show Text.of ("-" ++ Nat.repr (n + 1)) = _
  have hdigits : (String.ofList (Nat.toDigits 10 (n + 1))).toList = Nat.toDigits 10 (n + 1) :=
    String.toList_ofList
  rw [Nat.repr_eq_ofList_toDigits, Text.of, String.toList_append, Text.ofChars_append, hdigits]
  rfl

theorem isDigit_of_mem_numeral {n : Nat} {p : CodePoint} (h : p ∈ numeral n) :
    ∃ c : Char, p = .char c ∧ c.isDigit = true := by
  obtain ⟨c, hc, rfl⟩ := List.mem_map.mp h
  exact ⟨c, rfl, Nat.isDigit_of_mem_toDigits (by decide) (by decide) hc⟩

theorem isFileSafe_numeral (n : Nat) : (numeral n).IsFileSafe := by
  intro p hp
  obtain ⟨c, rfl, hc⟩ := isDigit_of_mem_numeral hp
  refine ⟨c, rfl, ?_, ne_of_isDigit hc (by decide)⟩
  rw [Char.isDigit, Bool.and_eq_true, decide_eq_true_eq, decide_eq_true_eq] at hc
  exact Nat.lt_of_le_of_lt (Text.toNat_le_toNat hc.2) (by decide)

theorem digitChar_of_ne_zero :
    ∀ d < 10, d ≠ 0 → (Nat.digitChar d).isDigit = true ∧ Nat.digitChar d ≠ '0' := by decide

/-- The numeral of a number other than zero does not begin with a zero. -/
theorem exists_numeral_eq_cons {n : Nat} (h : n ≠ 0) :
    ∃ (d : Char) (t : Text), numeral n = .char d :: t ∧ d.isDigit = true ∧ d ≠ '0' := by
  induction n using Nat.strongRecOn with
  | ind n ih =>
    by_cases hn : n < 10
    · refine ⟨Nat.digitChar n, [], ?_, digitChar_of_ne_zero n hn h⟩
      rw [numeral, Nat.toDigits_of_lt_base hn]
      rfl
    · obtain ⟨d, t, ht, hd⟩ := ih (n / 10) (by omega) (by omega)
      refine ⟨d, t ++ [.char (Nat.digitChar (n % 10))], ?_, hd⟩
      have hsplit : numeral n = numeral (n / 10) ++ [.char (Nat.digitChar (n % 10))] := by
        rw [numeral, Nat.toDigits_of_base_le (by decide) (by omega), Text.ofChars_append]
        rfl
      rw [hsplit, ht]
      rfl

/-- Digits add to the number read so far as they do everywhere. -/
theorem foldl_digit? {cs : List Char} (h : ∀ c ∈ cs, c.isDigit = true) (acc : Nat) :
    (Text.ofChars cs).foldl (fun n p => n * 10 + (digit? p).getD 0) acc
      = Nat.ofDigitChars 10 cs acc := by
  induction cs generalizing acc with
  | nil => rfl
  | cons c cs ih =>
    obtain ⟨hc, hcs⟩ := List.forall_mem_cons.mp h
    rw [Text.ofChars_cons, List.foldl_cons, ih hcs, Nat.ofDigitChars_cons,
      (isDigit_of_isDigit hc).2, Nat.mul_comm acc]
    rfl

theorem numberOf_numeral (n : Nat) : numberOf (numeral n) = n := by
  have hdigits : ∀ c ∈ Nat.toDigits 10 n, c.isDigit = true :=
    fun c hc => Nat.isDigit_of_mem_toDigits (by decide) (by decide) hc
  rw [numberOf, numeral, foldl_digit? hdigits, Nat.ofDigitChars_ten_toDigits]

/-! ## Reading integers -/

section Integers

variable {rest : Text}

theorem digits_of_stops (hrest : Stops rest) : digits rest = ([], rest) := by
  cases rest with
  | nil => rfl
  | cons p rest =>
    have hp := hrest p rfl
    simp only [continuesNumber, Bool.or_eq_false_iff] at hp
    rw [digits, List.takeWhile_cons_of_neg (by simp [hp]),
      List.dropWhile_cons_of_neg (by simp [hp])]

/-- The digits of an integer are all of its numeral. -/
theorem integerDigits?_numeral (n : Nat) (hrest : Stops rest) :
    integerDigits? (numeral n ++ rest) = some (numeral n, rest) := by
  by_cases h : n = 0
  · subst h
    rfl
  · obtain ⟨d, t, ht, hd, hzero⟩ := exists_numeral_eq_cons h
    have hall : ∀ p ∈ numeral n, isDigit p = true := by
      intro p hp
      obtain ⟨c, rfl, hc⟩ := isDigit_of_mem_numeral hp
      exact (isDigit_of_isDigit hc).1
    have hrest' := Prod.mk.inj (digits_of_stops hrest)
    have hdigits : digits (numeral n ++ rest) = (numeral n, rest) := by
      rw [digits, List.takeWhile_append_of_pos hall, List.dropWhile_append_of_pos hall, hrest'.1,
        hrest'.2, List.append_nil]
    rw [ht] at hdigits ⊢
    rw [List.cons_append] at hdigits ⊢
    unfold integerDigits?
    split
    next heq => exact absurd (CodePoint.char.inj (List.cons.inj heq).1) hzero
    next =>
      rw [hdigits]
      rfl

theorem fractionDigits_of_stops (hrest : Stops rest) : fractionDigits rest = ([], rest) := by
  unfold fractionDigits
  split
  next t => exact absurd (hrest (.char '.') rfl) (by decide)
  next => rfl

theorem power?_of_stops (hrest : Stops rest) : power? rest = none := by
  unfold power?
  split
  next c t =>
    refine if_neg ?_
    rintro (rfl | rfl)
    · exact absurd (hrest (.char 'e') rfl) (by decide)
    · exact absurd (hrest (.char 'E') rfl) (by decide)
  next => rfl

theorem magnitude?_numeral (negative : Bool) (n : Nat) (hrest : Stops rest) :
    magnitude? negative (numeral n ++ rest)
      = some (.int (if negative then -(n : Int) else n), rest) := by
  rw [magnitude?, integerDigits?_numeral n hrest]
  simp only [Option.bind_eq_bind, Option.bind_some, fractionDigits_of_stops hrest,
    power?_of_stops hrest, List.isEmpty_nil, if_true, numberOf_numeral]

theorem exists_numeral (n : Nat) :
    ∃ (d : Char) (t : Text), numeral n = .char d :: t ∧ d.isDigit = true := by
  by_cases h : n = 0
  · subst h
    exact ⟨'0', [], rfl, by decide⟩
  · obtain ⟨d, t, ht, hd, -⟩ := exists_numeral_eq_cons h
    exact ⟨d, t, ht, hd⟩

theorem number?_numeral (negative : Bool) (n : Nat) (hrest : Stops rest) :
    number? negative (numeral n ++ rest)
      = some (.int (if negative then -(n : Int) else n), rest) := by
  have hword : expect? "Infinity".toList (numeral n ++ rest) = none := by
    obtain ⟨d, t, ht, hd⟩ := exists_numeral n
    rw [ht]
    exact if_neg fun h => ne_of_isDigit hd (by decide) (CodePoint.char.inj h)
  rw [number?, hword]
  exact magnitude?_numeral negative n hrest

theorem scalar?_numeral (n : Nat) (hrest : Stops rest) :
    scalar? (numeral n ++ rest) = some (.int n, rest) := by
  have hnumber := number?_numeral false n hrest
  obtain ⟨d, t, ht, hd⟩ := exists_numeral n
  have hne {c : Char} (hc : c.isDigit = false) {u : Text}
      (h : CodePoint.char d :: (t ++ rest) = .char c :: u) : False :=
    ne_of_isDigit hd hc (CodePoint.char.inj (List.cons.inj h).1)
  rw [ht, List.cons_append] at hnumber ⊢
  unfold scalar?
  split
  next heq => exact (hne (by decide) heq).elim
  next heq => exact (hne (by decide) heq).elim
  next heq => exact (hne (by decide) heq).elim
  next heq => exact (hne (by decide) heq).elim
  next heq => exact (hne (by decide) heq).elim
  next => exact hnumber

theorem scalar?_minus (n : Nat) (hrest : Stops rest) :
    scalar? (.char '-' :: (numeral n ++ rest)) = some (.int (-(n : Int)), rest) :=
  number?_numeral true n hrest

end Integers

/-- A value without parts carries when its text does not look like one with parts. -/
theorem carries_scalar {layout : Layout} {depth : Nat} {v : Value} {p : CodePoint} {t : Text}
    (hdraft : draft layout depth v = .piece (p :: t)) (hsafe : Text.IsFileSafe (p :: t))
    (hp : isBlank p = false ∧ p ≠ .char '"' ∧ p ≠ .char '[' ∧ p ≠ .char '\x7b')
    (hread : ∀ rest, Stops rest → scalar? (p :: t ++ rest) = some (v, rest)) :
    Carries layout depth v (p :: t) := by
  refine ⟨hdraft, hsafe, fun fuel rest hrest hfuel => ?_⟩
  obtain ⟨fuel, rfl⟩ := Nat.exists_eq_succ_of_ne_zero (Nat.ne_zero_of_lt hfuel)
  rw [List.cons_append, value?_scalar hp.1 hp.2.1 hp.2.2.1 hp.2.2.2]
  exact hread rest hrest

/-- A word of JSON is safe in a file. -/
theorem isFileSafe_word {w : String} (h : w = "null" ∨ w = "true" ∨ w = "false") :
    Text.IsFileSafe (Text.of w) := by
  rcases h with rfl | rfl | rfl <;> exact Text.isFileSafe_ofChars (by decide)

theorem roundTrips_null : RoundTrips .null := fun _ _ =>
  ⟨_, carries_scalar (p := .char 'n') rfl (isFileSafe_word (.inl rfl)) (by decide) fun _ _ => rfl⟩

theorem roundTrips_bool (b : Bool) : RoundTrips (.bool b) := fun _ _ => by
  cases b with
  | true =>
    exact ⟨_, carries_scalar (p := .char 't') rfl (isFileSafe_word (.inr (.inl rfl))) (by decide)
      fun _ _ => rfl⟩
  | false =>
    exact ⟨_, carries_scalar (p := .char 'f') rfl (isFileSafe_word (.inr (.inr rfl))) (by decide)
      fun _ _ => rfl⟩

/-- **An integer carries**, of whatever size it is. -/
theorem roundTrips_int (n : Int) : RoundTrips (.int n) := by
  intro layout depth
  have hdraft : draft layout depth (.int n) = .piece (Text.ofInt n) := rfl
  cases n with
  | ofNat n =>
    obtain ⟨d, t, ht, hd⟩ := exists_numeral n
    have htext : Text.ofInt (.ofNat n) = .char d :: t := (ofInt_natCast n).trans ht
    refine ⟨.char d :: t, carries_scalar (htext ▸ hdraft) (ht ▸ isFileSafe_numeral n) ?_ ?_⟩
    · have hne (c : Char) (hc : c.isDigit = false) : CodePoint.char d ≠ .char c :=
        fun h => ne_of_isDigit hd hc (CodePoint.char.inj h)
      refine ⟨?_, hne _ (by decide), hne _ (by decide), hne _ (by decide)⟩
      simp [isBlank, hne ' ' (by decide), hne '\t' (by decide), hne '\n' (by decide),
        hne '\r' (by decide)]
    · intro rest hrest
      rw [← ht]
      exact scalar?_numeral n hrest
  | negSucc n =>
    refine ⟨.char '-' :: numeral (n + 1), carries_scalar ?_ ?_ (by decide) ?_⟩
    · rw [hdraft, ofInt_negSucc]
    · exact List.forall_mem_cons.mpr ⟨⟨'-', rfl, by decide⟩, isFileSafe_numeral (n + 1)⟩
    · exact fun rest hrest => scalar?_minus (n + 1) hrest

/-! ## Lists -/

/-- One item is read, with blanks in front of it. -/
theorem items?_item {layout : Layout} {depth : Nat} {v : Value} {t : Text}
    (hv : Carries layout depth v t) {blanks : Text} (hblanks : ∀ p ∈ blanks, isBlank p = true)
    {fuel : Nat} (hfuel : 2 * t.length < fuel) {rest : Text} (hrest : Stops rest) :
    items? (fuel + 1) (blanks ++ (t ++ rest))
      = (afterItem fuel rest).map fun r => (v :: r.1, r.2) := by
  rw [items?_succ, value?_blank fuel hblanks, hv.reads fuel rest hrest hfuel]
  rfl

/-- The items behind the first one, written as a text that is read up to the closing bracket. -/
structure ItemsCarry (layout : Layout) (depth : Nat) (vs : List Value) (t : Text) : Prop where
  drafted : draftItems layout depth vs = .piece t
  fileSafe : t.IsFileSafe
  isTail : IsTail t
  reads : ∀ fuel (blanks rest : Text), 2 * t.length < fuel → (∀ p ∈ blanks, isBlank p = true) →
    afterItem fuel (t ++ (blanks ++ .char ']' :: rest)) = some (vs, rest)

theorem itemsCarry_nil (layout : Layout) (depth : Nat) : ItemsCarry layout depth [] [] where
  drafted := rfl
  fileSafe := fun p hp => absurd hp List.not_mem_nil
  isTail := .inl rfl
  reads := by
    intro fuel blanks rest _ hblanks
    have hclose := (skipBlanks_append hblanks (.char ']' :: rest)).trans (skipBlanks_cons rfl rest)
    rw [List.nil_append, afterItem, sign?_other hclose (by decide), sign?_of_cons hclose]
    rfl

theorem itemsCarry_cons {layout : Layout} {depth : Nat} {v : Value} {vs : List Value}
    {tv t : Text} (hv : Carries layout depth v tv) (hvs : ItemsCarry layout depth vs t) :
    ItemsCarry layout depth (v :: vs) (layout.separator depth ++ (tv ++ t)) := by
  obtain ⟨blanks', hseparator, hblanks', hsafe⟩ := exists_separator layout depth
  have hcomma : Text.IsFileSafe (.char ',' :: blanks') :=
    List.forall_mem_cons.mpr ⟨⟨',', rfl, by decide⟩, hsafe⟩
  refine ⟨?_, ?_, ?_, ?_⟩
  · have hdraft : draftItems layout depth (v :: vs)
        = .piece (layout.separator depth) ++ draft layout depth v
          ++ draftItems layout depth vs := rfl
    rw [hdraft, hv.drafted, hvs.drafted, ← List.append_assoc]
    rfl
  · rw [hseparator]
    exact hcomma.append (hv.fileSafe.append hvs.fileSafe)
  · rw [hseparator]
    exact .inr ⟨_, rfl⟩
  · intro fuel blanks rest hfuel hblanks
    rw [hseparator] at hfuel ⊢
    simp only [List.length_append, List.length_cons] at hfuel
    obtain ⟨fuel, rfl⟩ := Nat.exists_eq_succ_of_ne_zero (Nat.ne_zero_of_lt hfuel)
    -- The comma pays for the step to the next item.
    have hitem := items?_item hv hblanks' (show 2 * tv.length < fuel by omega)
      (hvs.isTail.stops hblanks (p := .char ']') (by decide) rest)
    rw [afterItem, List.cons_append, List.cons_append, sign?_of_cons (skipBlanks_cons rfl _),
      Option.elim_some]
    simp only [List.append_assoc]
    rw [hitem, hvs.reads fuel blanks rest (by omega) hblanks]
    rfl

theorem exists_itemsCarry {vs : List Value} (h : ∀ v ∈ vs, RoundTrips v) (layout : Layout)
    (depth : Nat) : ∃ t, ItemsCarry layout depth vs t := by
  induction vs with
  | nil => exact ⟨[], itemsCarry_nil layout depth⟩
  | cons v vs ih =>
    obtain ⟨hv, hvs⟩ := List.forall_mem_cons.mp h
    obtain ⟨t, ht⟩ := ih hvs
    obtain ⟨tv, htv⟩ := hv layout depth
    exact ⟨_, itemsCarry_cons htv ht⟩

/-- What a value is read from does not begin with a closing bracket. -/
theorem head_ne_bracket {fuel : Nat} {t : Text} {r : Value × Text} (h : value? fuel t = some r)
    (u : Text) : skipBlanks t ≠ .char ']' :: u := by
  intro hu
  cases fuel with
  | zero => cases h
  | succ fuel =>
    rw [value?, hu] at h
    cases h

/-- A bracket in front of items opens a list. -/
theorem value?_bracket {fuel : Nat} {t : Text} {r : List Value × Text}
    (h : items? fuel t = some r) (hclose : ∀ u, skipBlanks t ≠ .char ']' :: u) :
    value? (fuel + 1) (.char '[' :: t) = some (.list r.1, r.2) := by
  have hopen : skipBlanks (.char '[' :: t) = .char '[' :: t :=
    skipBlanks_cons rfl t
  rw [value?_succ, sign?_other hopen (by decide), Option.elim_none, sign?_of_cons hopen,
    Option.elim_some, listFrom, sign?_of_ne hclose, h]
  rfl

theorem roundTrips_list_nil : RoundTrips (.list []) := by
  intro layout depth
  refine ⟨Text.of "[]", rfl, Text.isFileSafe_ofChars (by decide), ?_⟩
  intro fuel rest _ hfuel
  obtain ⟨fuel, rfl⟩ := Nat.exists_eq_succ_of_ne_zero (Nat.ne_zero_of_lt hfuel)
  rfl

/-- **A list carries** when its items do. -/
theorem roundTrips_list {vs : List Value} (h : ∀ v ∈ vs, RoundTrips v) : RoundTrips (.list vs) := by
  cases vs with
  | nil => exact roundTrips_list_nil
  | cons v vs =>
    intro layout depth
    obtain ⟨hv, hvs⟩ := List.forall_mem_cons.mp h
    obtain ⟨t, ht⟩ := exists_itemsCarry hvs layout (depth + 1)
    obtain ⟨tv, htv⟩ := hv layout (depth + 1)
    refine ⟨.char '[' :: layout.lead (depth + 1) ++ tv ++ t ++ (layout.lead depth ++ Text.of "]"),
      ?_, ?_, ?_⟩
    · have hdraft : draft layout depth (.list (v :: vs))
          = .piece (.char '[' :: layout.lead (depth + 1)) ++ draft layout (depth + 1) v
            ++ draftItems layout (depth + 1) vs ++ .piece (layout.lead depth ++ Text.of "]") := rfl
      rw [hdraft, htv.drafted, ht.drafted]
      rfl
    · have hopen : Text.IsFileSafe (.char '[' :: layout.lead (depth + 1)) :=
        List.forall_mem_cons.mpr ⟨⟨'[', rfl, by decide⟩, isFileSafe_lead layout (depth + 1)⟩
      have hclose : (Text.of "]").IsFileSafe := Text.isFileSafe_ofChars (by decide)
      exact ((hopen.append htv.fileSafe).append ht.fileSafe).append
        ((isFileSafe_lead layout depth).append hclose)
    · intro fuel rest _ hfuel
      simp only [List.length_append, List.length_cons] at hfuel
      obtain ⟨fuel, rfl⟩ := Nat.exists_eq_add_of_le' (show 2 ≤ fuel by omega)
      have hblanks := isBlank_lead layout (depth + 1)
      have hstops := ht.isTail.stops (isBlank_lead layout depth) (p := .char ']') (by decide) rest
      have hshort : 2 * tv.length < fuel := by omega
      have hitems := items?_item htv hblanks hshort hstops
      rw [ht.reads fuel (layout.lead depth) rest (by omega) (isBlank_lead layout depth)] at hitems
      have hvalue := htv.reads fuel _ hstops hshort
      rw [← value?_blank fuel hblanks] at hvalue
      have hclose : Text.of "]" ++ rest = .char ']' :: rest := rfl
      simp only [List.append_assoc, List.cons_append, hclose]
      exact value?_bracket hitems (head_ne_bracket hvalue)

/-! ## Data -/

/-- Data that JSON gives back in the same kind: the words, integers, strings of characters, lists,
and mappings with different strings of characters for keys. -/
inductive IsData : Value → Prop
  | null : IsData .null
  | bool (b : Bool) : IsData (.bool b)
  | int (n : Int) : IsData (.int n)
  | text (cs : List Char) : IsData (.text (Text.ofChars cs))
  | list {vs : List Value} (items : ∀ v ∈ vs, IsData v) : IsData (.list vs)
  | dict {es : List (Text × Value)} (keys : ∀ e ∈ es, ∃ cs : List Char, e.1 = Text.ofChars cs)
      (distinct : (es.map Prod.fst).Nodup) (contents : ∀ e ∈ es, IsData e.2) :
      IsData (.dict (Value.ofEntries es))

/-- **Data carries**, in both layouts. -/
theorem roundTrips_of_isData {v : Value} (h : IsData v) : RoundTrips v := by
  induction h with
  | null => exact roundTrips_null
  | bool b => exact roundTrips_bool b
  | int n => exact roundTrips_int n
  | text cs => exact roundTrips_text (stringCarries_ofChars cs)
  | list _ ih => exact roundTrips_list ih
  | dict keys distinct _ ih =>
    refine roundTrips_dict (fun e he => ?_) ih distinct
    obtain ⟨cs, hcs⟩ := keys e he
    rw [hcs]
    exact stringCarries_ofChars cs

end Json
end VerifiableEscrow
