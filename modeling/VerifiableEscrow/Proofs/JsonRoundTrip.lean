import VerifiableEscrow.Json.Writer
import VerifiableEscrow.Proofs.JsonReading
import VerifiableEscrow.Proofs.Mappings
import VerifiableEscrow.Proofs.PlainText

/-!
# JSON reads back

A value *carries* in a layout when writing it is complete and reading finds it again at the
front of whatever follows, unless that goes on with a number: nothing but what is behind them
tells where the digits of a number end (`Stops`).  Stated like this the property is put together
from the parts of a value: a mapping carries when its contents do and its keys are different
strings.  It is the same for both layouts, since they differ in blanks only, and the reader passes
over blanks.

The fuel of the reader is accounted for by the length of what is read: a value inside another
one costs two steps, and it is shorter than the other one by a bracket and a quote at least.

* `roundTrips_text`, `roundTrips_dict`: what carries in every layout;
* `read?_of_carries`: a text that holds nothing else is read as the value;
* `Carries.fileSafe`: what is written is ASCII with plain line ends, so that files keep it.
-/

namespace VerifiableEscrow

namespace Json

/-! ## Blanks -/

theorem isBlank_lead (layout : Layout) (depth : Nat) :
    ∀ p ∈ layout.lead depth, isBlank p = true := by
  intro p hp
  cases layout with
  | line => cases hp
  | indented =>
    rcases List.mem_cons.mp hp with rfl | hp
    · rfl
    · rw [List.eq_of_mem_replicate hp]
      rfl

theorem isFileSafe_lead (layout : Layout) (depth : Nat) : (layout.lead depth).IsFileSafe := by
  intro p hp
  cases layout with
  | line => cases hp
  | indented =>
    rcases List.mem_cons.mp hp with rfl | hp
    · exact ⟨'\n', rfl, by decide⟩
    · rw [List.eq_of_mem_replicate hp]
      exact ⟨' ', rfl, by decide⟩

/-- What stands between two items is a comma and blanks. -/
theorem exists_separator (layout : Layout) (depth : Nat) :
    ∃ blanks : Text, layout.separator depth = .char ',' :: blanks
      ∧ (∀ p ∈ blanks, isBlank p = true) ∧ blanks.IsFileSafe := by
  cases layout with
  | line =>
    refine ⟨[.char ' '], rfl, ?_, ?_⟩
    · intro p hp
      rw [List.mem_singleton.mp hp]
      rfl
    · exact Text.isFileSafe_ofChars (show [' '].all _ = true by decide)
  | indented =>
    exact ⟨Layout.indented.lead depth, rfl, isBlank_lead .indented depth,
      isFileSafe_lead .indented depth⟩

/-! ## Where numbers end -/

/-- Whether a number may go on with a code point: a digit, a point or the letter of a power. -/
def continuesNumber (p : CodePoint) : Bool :=
  isDigit p || p = .char '.' || p = .char 'e' || p = .char 'E'

/-- A number ends in front of a text, which does not begin with what a number may go on with. -/
def Stops (t : Text) : Prop := ∀ p ∈ t.head?, continuesNumber p = false

theorem stops_nil : Stops [] := fun _ hp => nomatch hp

theorem stops_cons {p : CodePoint} (h : continuesNumber p = false) (t : Text) :
    Stops (p :: t) := by
  intro q hq
  rw [← Option.some.inj hq]
  exact h

theorem continuesNumber_of_isBlank {p : CodePoint} (h : isBlank p = true) :
    continuesNumber p = false := by
  simp only [isBlank, Bool.or_eq_true, decide_eq_true_eq] at h
  rcases h with ((rfl | rfl) | rfl) | rfl <;> decide

theorem stops_append {blanks t : Text} (hblanks : ∀ p ∈ blanks, isBlank p = true) (h : Stops t) :
    Stops (blanks ++ t) := by
  cases blanks with
  | nil => exact h
  | cons p _ => exact stops_cons (continuesNumber_of_isBlank (hblanks p List.mem_cons_self)) _

/-- The text of what stands behind the first item: it is empty or begins with a comma. -/
def IsTail (t : Text) : Prop := t = [] ∨ ∃ u : Text, t = .char ',' :: u

theorem IsTail.stops {t blanks : Text} (h : IsTail t) (hblanks : ∀ p ∈ blanks, isBlank p = true)
    {p : CodePoint} (hp : continuesNumber p = false) (rest : Text) :
    Stops (t ++ (blanks ++ p :: rest)) := by
  rcases h with rfl | ⟨u, rfl⟩
  · rw [List.nil_append]
    exact stops_append hblanks (stops_cons hp rest)
  · exact stops_cons (by decide) _

/-! ## Strings -/

/-- A string that is written in a way that files keep and that reads back. -/
structure StringCarries (s : Text) : Prop where
  fileSafe : Text.IsFileSafe (s.flatMap escaped)
  reads : ∀ fuel rest, (s.flatMap escaped).length < fuel →
    string? fuel (s.flatMap escaped ++ .char '"' :: rest) = some (s, rest)

theorem escaped_of_isPlain {p : CodePoint} (h : p.IsPlain) : escaped p = [p] := by
  obtain ⟨c, rfl, hlow, hhigh, hquote, hslash⟩ := h
  have hc : (CodePoint.char c).toNat = c.toNat := rfl
  have hn : c ≠ '\n' := by rintro rfl; exact absurd hlow (by decide)
  have hr : c ≠ '\r' := by rintro rfl; exact absurd hlow (by decide)
  have ht : c ≠ '\t' := by rintro rfl; exact absurd hlow (by decide)
  simp only [escaped, hc, CodePoint.char.injEq, hquote, hslash, hn, hr, ht, or_self, if_false]
  rw [if_neg (by omega), if_neg (by omega), if_pos ⟨hlow, hhigh⟩]

theorem string?_cons_of_isPlain {p : CodePoint} (h : p.IsPlain) (fuel : Nat) (t : Text) :
    string? (fuel + 1) (p :: t) = (string? fuel t).map fun r => (p :: r.1, r.2) := by
  obtain ⟨c, rfl, hlow, hhigh, hquote, hslash⟩ := h
  have hc : ¬ (CodePoint.char c).toNat < 0x20 := by
    rw [show (CodePoint.char c).toNat = c.toNat from rfl]
    omega
  have hne {d : Char} (h : c ≠ d) : CodePoint.char c ≠ .char d := fun heq =>
    h (CodePoint.char.inj heq)
  rw [string?_plain (hne hquote) (hne hslash), if_neg hc]

/-- A code point that is written in a way that files keep and that the reader of strings takes
for it in one step. -/
structure PointCarries (p : CodePoint) : Prop where
  fileSafe : (escaped p).IsFileSafe
  ne_nil : escaped p ≠ []
  reads : ∀ fuel t, string? (fuel + 1) (escaped p ++ t)
    = (string? fuel t).map fun r => (p :: r.1, r.2)

/-- A string carries when its code points do. -/
theorem stringCarries_of_points {s : Text} (h : ∀ p ∈ s, PointCarries p) : StringCarries s := by
  refine ⟨?_, ?_⟩
  · intro q hq
    obtain ⟨p, hp, hq⟩ := List.mem_flatMap.mp hq
    exact (h p hp).fileSafe q hq
  · intro fuel rest hfuel
    obtain ⟨fuel, rfl⟩ := Nat.exists_eq_succ_of_ne_zero (Nat.ne_zero_of_lt hfuel)
    induction s generalizing fuel with
    | nil => rfl
    | cons p s ih =>
      obtain ⟨hp, hs⟩ := List.forall_mem_cons.mp h
      have hlength := List.length_pos_iff.mpr hp.ne_nil
      rw [List.flatMap_cons, List.length_append] at hfuel
      obtain ⟨fuel, rfl⟩ := Nat.exists_eq_succ_of_ne_zero (show fuel ≠ 0 by omega)
      rw [List.flatMap_cons, List.append_assoc, hp.reads, ih hs fuel (by omega)]
      rfl

theorem pointCarries_of_isPlain {p : CodePoint} (h : p.IsPlain) : PointCarries p := by
  have hescaped := escaped_of_isPlain h
  refine ⟨?_, ?_, fun fuel t => ?_⟩
  · rw [hescaped]
    exact Text.IsPlain.isFileSafe (List.forall_mem_singleton.mpr h)
  · rw [hescaped]
    exact List.cons_ne_nil p []
  · rw [hescaped, List.singleton_append]
    exact string?_cons_of_isPlain h fuel t

/-- A string of code points that stand for themselves carries. -/
theorem stringCarries_of_isPlain {s : Text} (h : s.IsPlain) : StringCarries s :=
  stringCarries_of_points fun p hp => pointCarries_of_isPlain (h p hp)

theorem quoted_append (s rest : Text) :
    quoted s ++ rest = .char '"' :: (s.flatMap escaped ++ .char '"' :: rest) := by
  simp [quoted]

theorem StringCarries.isFileSafe_quoted {s : Text} (h : StringCarries s) :
    (quoted s).IsFileSafe := by
  have hquote : (Text.ofChars ['"']).IsFileSafe := Text.isFileSafe_ofChars (by decide)
  exact (hquote.append h.fileSafe).append hquote

/-! ## Values -/

/-- A value that is written as a text, in a layout and inside a number of brackets, in a way
that files keep and that reads back in front of whatever ends a number. -/
structure Carries (layout : Layout) (depth : Nat) (v : Value) (t : Text) : Prop where
  drafted : draft layout depth v = .piece t
  fileSafe : t.IsFileSafe
  reads : ∀ fuel rest, Stops rest → 2 * t.length < fuel →
    value? fuel (t ++ rest) = some (v, rest)

/-- A value that carries in every layout. -/
def RoundTrips (v : Value) : Prop := ∀ layout depth, ∃ t, Carries layout depth v t

theorem roundTrips_text {s : Text} (h : StringCarries s) : RoundTrips (.text s) := by
  intro layout depth
  refine ⟨quoted s, rfl, h.isFileSafe_quoted, ?_⟩
  intro fuel rest _ hfuel
  obtain ⟨fuel, rfl⟩ := Nat.exists_eq_succ_of_ne_zero (Nat.ne_zero_of_lt hfuel)
  have hread := h.reads ((s.flatMap escaped ++ .char '"' :: rest).length + 1) rest (by
    rw [List.length_append]
    omega)
  rw [quoted_append, value?, skipBlanks_cons rfl]
  simp only [hread]
  rfl

/-! ## Mappings -/

/-- The text of a key with the colon behind it. -/
def keyed (key : Text) : Text := quoted key ++ Text.of ": "

theorem keyed_append (key rest : Text) : keyed key ++ rest
    = .char '"' :: (key.flatMap escaped ++ .char '"' :: (Text.of ": " ++ rest)) := by
  rw [keyed, List.append_assoc, quoted_append]

theorem skipBlanks_keyed (key rest : Text) : skipBlanks (keyed key ++ rest)
    = .char '"' :: (key.flatMap escaped ++ .char '"' :: (Text.of ": " ++ rest)) := by
  rw [keyed_append]
  exact skipBlanks_cons rfl _

theorem isFileSafe_keyed {key : Text} (h : StringCarries key) : (keyed key).IsFileSafe :=
  h.isFileSafe_quoted.append (Text.isFileSafe_ofChars (by decide))

/-- One entry is read, with blanks in front of it. -/
theorem entries?_entry {layout : Layout} {depth : Nat} {key : Text} {v : Value} {t : Text}
    (hkey : StringCarries key) (hv : Carries layout depth v t) {es : List (Text × Value)}
    (hfresh : key ∉ es.map Prod.fst) {blanks : Text} (hblanks : ∀ p ∈ blanks, isBlank p = true)
    {fuel : Nat} (hfuel : 2 * t.length < fuel) {rest : Text} (hrest : Stops rest) :
    entries? (fuel + 1) (Value.ofEntries es) (blanks ++ (keyed key ++ (t ++ rest)))
      = afterEntry fuel (Value.ofEntries (es ++ [(key, v)])) rest := by
  have hread := hkey.reads
    ((key.flatMap escaped ++ .char '"' :: (Text.of ": " ++ (t ++ rest))).length + 1)
    (Text.of ": " ++ (t ++ rest)) (by
      rw [List.length_append]
      omega)
  have hcolon : skipBlanks (Text.of ": " ++ (t ++ rest))
      = .char ':' :: ([.char ' '] ++ (t ++ rest)) := rfl
  have hspace : ∀ p ∈ [CodePoint.char ' '], isBlank p = true := by
    intro p hp
    rw [List.mem_singleton.mp hp]
    rfl
  have hquote := (skipBlanks_append hblanks (keyed key ++ (t ++ rest))).trans
    (skipBlanks_keyed key (t ++ rest))
  rw [entries?_succ, sign?_of_cons hquote, Option.bind_some, hread, Option.bind_some,
    sign?_of_cons hcolon, Option.bind_some, value?_blank fuel hspace,
    hv.reads fuel rest hrest hfuel, Option.bind_some, Value.insert_ofEntries hfresh]

/-- The entries behind the first one, written as a text that is read up to the closing brace. -/
structure TailCarries (layout : Layout) (depth : Nat) (es : List (Text × Value)) (t : Text) :
    Prop where
  drafted : draftEntries layout depth (Value.ofEntries es) = .piece t
  fileSafe : t.IsFileSafe
  isTail : IsTail t
  reads : ∀ (front : List (Text × Value)) fuel (blanks rest : Text), 2 * t.length < fuel →
    (∀ p ∈ blanks, isBlank p = true) → ((front ++ es).map Prod.fst).Nodup →
    afterEntry fuel (Value.ofEntries front) (t ++ (blanks ++ .char '\x7d' :: rest))
      = some (Value.ofEntries (front ++ es), rest)

theorem tailCarries_nil (layout : Layout) (depth : Nat) : TailCarries layout depth [] [] where
  drafted := rfl
  fileSafe := fun p hp => absurd hp List.not_mem_nil
  isTail := .inl rfl
  reads := by
    intro front fuel blanks rest _ hblanks _
    have hclose := (skipBlanks_append hblanks (.char '\x7d' :: rest)).trans
      (skipBlanks_cons rfl rest)
    rw [List.nil_append, List.append_nil, afterEntry, sign?_other hclose (by decide),
      sign?_of_cons hclose]
    rfl

theorem tailCarries_cons {layout : Layout} {depth : Nat} {key : Text} {v : Value}
    {es : List (Text × Value)} {tv t : Text} (hkey : StringCarries key)
    (hv : Carries layout depth v tv) (hes : TailCarries layout depth es t) :
    TailCarries layout depth ((key, v) :: es)
      (layout.separator depth ++ (keyed key ++ (tv ++ t))) := by
  obtain ⟨blanks', hseparator, hblanks', hsafe⟩ := exists_separator layout depth
  have hcomma : Text.IsFileSafe (.char ',' :: blanks') := by
    refine List.forall_mem_cons.mpr ⟨⟨',', rfl, by decide⟩, hsafe⟩
  refine ⟨?_, ?_, ?_, ?_⟩
  · have hdraft : draftEntries layout depth (Value.ofEntries ((key, v) :: es))
        = .piece (layout.separator depth) ++ .piece (keyed key) ++ draft layout depth v
          ++ draftEntries layout depth (Value.ofEntries es) := rfl
    rw [hdraft, hv.drafted, hes.drafted, ← List.append_assoc, ← List.append_assoc]
    rfl
  · rw [hseparator]
    exact hcomma.append ((isFileSafe_keyed hkey).append (hv.fileSafe.append hes.fileSafe))
  · rw [hseparator]
    exact .inr ⟨_, rfl⟩
  · intro front fuel blanks rest hfuel hblanks hnodup
    have hlength : (keyed key).length ≠ 0 := by simp [keyed, quoted]
    rw [hseparator] at hfuel ⊢
    simp only [List.length_append, List.length_cons] at hfuel
    obtain ⟨fuel, rfl⟩ := Nat.exists_eq_succ_of_ne_zero (Nat.ne_zero_of_lt hfuel)
    -- The separator has a comma at least, which pays for the step to the next entry.
    have hshort : 2 * tv.length < fuel := by omega
    have hentry := entries?_entry hkey hv (Value.fresh_of_nodup hnodup) hblanks' hshort
      (hes.isTail.stops hblanks (p := .char '\x7d') (by decide) rest)
    rw [afterEntry, List.cons_append, List.cons_append, sign?_of_cons (skipBlanks_cons rfl _),
      Option.elim_some]
    simp only [List.append_assoc]
    rw [hentry, hes.reads (front ++ [(key, v)]) fuel blanks rest (by omega) hblanks]
    · rw [List.append_assoc, List.singleton_append]
    · rw [List.append_assoc, List.singleton_append]
      exact hnodup

theorem exists_tailCarries {es : List (Text × Value)} (hkeys : ∀ e ∈ es, StringCarries e.1)
    (hvalues : ∀ e ∈ es, RoundTrips e.2) (layout : Layout) (depth : Nat) :
    ∃ t, TailCarries layout depth es t := by
  induction es with
  | nil => exact ⟨[], tailCarries_nil layout depth⟩
  | cons e es ih =>
    obtain ⟨hkey, hkeys⟩ := List.forall_mem_cons.mp hkeys
    obtain ⟨hvalue, hvalues⟩ := List.forall_mem_cons.mp hvalues
    obtain ⟨t, ht⟩ := ih hkeys hvalues
    obtain ⟨tv, htv⟩ := hvalue layout depth
    exact ⟨_, tailCarries_cons hkey htv ht⟩

/-- A brace in front of a key opens a mapping. -/
theorem value?_brace (fuel : Nat) {blanks : Text} (hblanks : ∀ p ∈ blanks, isBlank p = true)
    (key rest : Text) :
    value? (fuel + 1) (.char '\x7b' :: (blanks ++ (keyed key ++ rest)))
      = (entries? fuel [] (keyed key ++ rest)).map fun r => (.dict r.1, r.2) := by
  have hopen : skipBlanks (.char '\x7b' :: (blanks ++ (keyed key ++ rest)))
      = .char '\x7b' :: (blanks ++ (keyed key ++ rest)) := skipBlanks_cons rfl _
  have hkeyed := skipBlanks_append hblanks (keyed key ++ rest)
  rw [value?_succ, sign?_other hopen (by decide), Option.elim_none, sign?_other hopen (by decide),
    Option.elim_none, sign?_of_cons hopen, Option.elim_some, dictFrom,
    sign?_other (hkeyed.trans (skipBlanks_keyed key rest)) (by decide), Option.elim_none,
    ← entries?_skipBlanks, hkeyed, entries?_skipBlanks]

theorem roundTrips_dict_nil : RoundTrips (.dict []) := by
  intro layout depth
  refine ⟨Text.of "\x7b\x7d", rfl, Text.isFileSafe_ofChars (by decide), ?_⟩
  intro fuel rest _ hfuel
  obtain ⟨fuel, rfl⟩ := Nat.exists_eq_succ_of_ne_zero (Nat.ne_zero_of_lt hfuel)
  rfl

/-- **A mapping carries** when its contents do and its keys are different strings. -/
theorem roundTrips_dict {es : List (Text × Value)} (hkeys : ∀ e ∈ es, StringCarries e.1)
    (hvalues : ∀ e ∈ es, RoundTrips e.2) (hnodup : (es.map Prod.fst).Nodup) :
    RoundTrips (.dict (Value.ofEntries es)) := by
  cases es with
  | nil => exact roundTrips_dict_nil
  | cons e es =>
    intro layout depth
    obtain ⟨key, v⟩ := e
    obtain ⟨hkey, hkeys⟩ := List.forall_mem_cons.mp hkeys
    obtain ⟨hvalue, hvalues⟩ := List.forall_mem_cons.mp hvalues
    obtain ⟨t, ht⟩ := exists_tailCarries hkeys hvalues layout (depth + 1)
    obtain ⟨tv, htv⟩ := hvalue layout (depth + 1)
    refine ⟨.char '\x7b' :: layout.lead (depth + 1) ++ keyed key ++ tv ++ t
      ++ (layout.lead depth ++ Text.of "\x7d"), ?_, ?_, ?_⟩
    · have hdraft : draft layout depth (.dict (Value.ofEntries ((key, v) :: es)))
          = .piece (.char '\x7b' :: layout.lead (depth + 1)) ++ .piece (keyed key)
            ++ draft layout (depth + 1) v ++ draftEntries layout (depth + 1) (Value.ofEntries es)
            ++ .piece (layout.lead depth ++ Text.of "\x7d") := rfl
      rw [hdraft, htv.drafted, ht.drafted]
      rfl
    · have hopen : Text.IsFileSafe (.char '\x7b' :: layout.lead (depth + 1)) :=
        List.forall_mem_cons.mpr ⟨⟨'\x7b', rfl, by decide⟩, isFileSafe_lead layout (depth + 1)⟩
      have hclose : (Text.of "\x7d").IsFileSafe := Text.isFileSafe_ofChars (by decide)
      exact (((hopen.append (isFileSafe_keyed hkey)).append htv.fileSafe).append ht.fileSafe).append
        ((isFileSafe_lead layout depth).append hclose)
    · intro fuel rest _ hfuel
      have hlength : (keyed key).length ≠ 0 := by simp [keyed, quoted]
      simp only [List.length_append, List.length_cons] at hfuel
      obtain ⟨fuel, rfl⟩ := Nat.exists_eq_add_of_le' (show 2 ≤ fuel by omega)
      have hentry : entries? (fuel + 1) (Value.ofEntries []) ([] ++ (keyed key ++ (tv ++
          (t ++ (layout.lead depth ++ .char '\x7d' :: rest)))))
            = afterEntry fuel (Value.ofEntries [(key, v)])
                (t ++ (layout.lead depth ++ .char '\x7d' :: rest)) :=
        entries?_entry hkey htv List.not_mem_nil (fun p hp => absurd hp List.not_mem_nil)
          (by omega) (ht.isTail.stops (isBlank_lead layout depth) (by decide) rest)
      have hrest := ht.reads [(key, v)] fuel (layout.lead depth) rest (by omega)
        (isBlank_lead layout depth) hnodup
      rw [hrest, List.nil_append] at hentry
      have hclose : Text.of "\x7d" ++ rest = .char '\x7d' :: rest := rfl
      simp only [List.append_assoc, List.cons_append, hclose]
      rw [value?_brace (fuel + 1) (isBlank_lead layout (depth + 1))]
      exact congrArg (Option.map _) hentry

/-! ## Whole texts -/

/-- A text that holds a value and nothing else is read as the value. -/
theorem read?_of_carries {layout : Layout} {v : Value} {t : Text} (h : Carries layout 0 v t) :
    read? t = some v := by
  have hread := h.reads (2 * t.length + 2) [] stops_nil (by omega)
  rw [List.append_nil] at hread
  rw [read?, hread]
  rfl

theorem write?_of_carries {layout : Layout} {v : Value} {t : Text} (h : Carries layout 0 v t) :
    write? layout v = some t := by
  rw [write?, h.drafted]
  rfl

end Json
end VerifiableEscrow
