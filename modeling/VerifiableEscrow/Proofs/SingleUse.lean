import VerifiableEscrow.Proofs.SafeReading
import VerifiableEscrow.Wire.Registry

/-!
# A parcel is used up once

Calls on a parcel come in any order, on the parcel itself and on the proof inside it, and with
anything in place of an issuer.  The two flags are linked.  A call on a ciphertext gets to the
proof inside when the argument is an issuer and the elements decode (`Contents.Reaches`), and
then it uses up the proof as well, or fails because the proof has been used up before.

What one call leaves is said by `left_openWith` and `left_openInner`, in terms of two operations
on contents that touch the inner flag only.  The runs follow by induction over the calls.

* `opened_after`, `innerOpened_after`: the flags after any calls, in terms of the calls alone;
* `unopened_after`: nothing but the flags changes;
* `length_builds_le`: at most one proof is built of the fields inside;
* `usedOnce`: **a parcel is used up once**, over any calls and for the call that comes next;
* `Registry.getElem?_after`: parcels that wait together do not disturb one another.
-/

namespace VerifiableEscrow
namespace Wire

/-! ## Calls -/

/-- A call on a parcel, or on the proof inside it, with what should be an issuer. -/
structure Call where
  inner : Bool
  issuer : Value

namespace Parcel

/-- What a call does. -/
def call (p : Parcel) (c : Call) : Attempt Parcel Value :=
  if c.inner then p.openInner c.issuer else p.openWith c.issuer

/-- The parcel after calls. -/
def after (p : Parcel) (calls : List Call) : Parcel := calls.foldl (fun q c => (q.call c).left) p

/-- Whether the proof inside has been opened. -/
def innerOpened (p : Parcel) : Bool := p.inner?.any Parcel.opened

theorem call_outer (p : Parcel) (v : Value) : p.call ⟨false, v⟩ = p.openWith v := rfl

theorem call_inner (p : Parcel) (v : Value) : p.call ⟨true, v⟩ = p.openInner v := rfl

theorem after_cons (p : Parcel) (c : Call) (calls : List Call) :
    p.after (c :: calls) = (p.call c).left.after calls := rfl

theorem after_append (p : Parcel) (calls more : List Call) :
    p.after (calls ++ more) = (p.after calls).after more := List.foldl_append

end Parcel

/-! ## What a call touches -/

namespace Contents

/-- The contents with the proof inside not opened. -/
def unopened : Contents → Contents
  | .ciphertext e1 e2 info label inner _ => .ciphertext e1 e2 info label inner false
  | c => c

/-- The contents with the proof inside opened. -/
def spent : Contents → Contents
  | .ciphertext e1 e2 info label inner _ => .ciphertext e1 e2 info label inner true
  | c => c

theorem unopened_spent (c : Contents) : c.spent.unopened = c.unopened := by cases c <;> rfl

theorem form_unopened (c : Contents) : c.unopened.form = c.form := by cases c <;> rfl

end Contents

/-- A field whose text is the Base64 of a valid element. -/
def HoldsElement (t : Text) : Prop :=
  ∃ bs, Base64.decode? t = some bs ∧ Element.isElement (.text (Hex.encode bs)) = true

/-- Both elements in front of the proof inside decode. -/
def Contents.ElementsDecode : Contents → Prop
  | .ciphertext e1 e2 _ _ _ _ => HoldsElement e1 ∧ HoldsElement e2
  | _ => False

/-- A first call on contents gets to the proof inside: the argument is an issuer, and both
elements decode. -/
def Contents.Reaches (c : Contents) (v : Value) : Prop :=
  (Issuer.ofValue? v).isSome = true ∧ c.ElementsDecode

/-- What does not depend on the inner flag is the same for contents that differ in nothing else. -/
theorem Contents.congr_unopened {α : Type} {f : Contents → α} (hf : ∀ c, f c.unopened = f c)
    {c c' : Contents} (h : c'.unopened = c.unopened) : f c' = f c := by
  rw [← hf c', h, hf]

theorem Contents.reaches_congr {c c' : Contents} (h : c'.unopened = c.unopened) (v : Value) :
    c'.Reaches v ↔ c.Reaches v :=
  iff_of_eq (Contents.congr_unopened (f := fun c => c.Reaches v) (fun c => by cases c <;> rfl) h)

/-! ## One attempt -/

section Attempts

variable {σ α : Type}

theorem left_finish (form : Form) (issuer : Issuer) (left : σ) (events : List Event)
    (result : Except Fault α) : (finish form issuer left events result).left = left := by
  unfold finish
  split
  next => rfl
  next => split <;> rfl

/-- Ending an attempt may fail but gives nothing of its own. -/
theorem ok_of_finish {form : Form} {issuer : Issuer} {left : σ} {events : List Event}
    {result : Except Fault α} {a : α} (h : (finish form issuer left events result).outcome = .ok a) :
    result = .ok a := by
  unfold finish at h
  split at h
  next => cases h
  next =>
    split at h
    next => exact h
    next => cases h

theorem left_openProof (fields : ProofFields) (opened : Bool) (issuer : Issuer) :
    (openProof fields opened issuer).left = true := by
  unfold openProof
  split
  next => rfl
  next => exact left_finish _ _ _ _ _

theorem ok_of_openProof {fields : ProofFields} {opened : Bool} {issuer : Issuer} {proof : Proof}
    (h : (openProof fields opened issuer).outcome = .ok proof) :
    opened = false ∧ fields.decode = .ok proof := by
  unfold openProof at h
  split at h
  next => cases h
  next hopened => exact ⟨Bool.eq_false_iff.mpr hopened, ok_of_finish h⟩

/-- Reading an element fails by a fault of its field, not by one of earlier calls. -/
theorem element_cases (t : Text) (name : String) :
    (HoldsElement t ∧ ∃ digits, element t name = .ok digits)
      ∨ (¬HoldsElement t ∧ ∃ why, element t name = .error (.wire why)
          ∧ ∀ form, why ≠ .alreadyOpened form) := by
  unfold element fieldBytes HoldsElement
  cases Base64.decode? t with
  | none =>
    refine .inr ⟨?_, .notBase64 name, rfl, fun form h => nomatch h⟩
    rintro ⟨bs, hbs, -⟩
    cases hbs
  | some bs =>
    by_cases h : Element.isElement (.text (Hex.encode bs)) = true
    · exact .inl ⟨⟨bs, rfl, h⟩, Hex.encode bs, if_pos h⟩
    · refine .inr ⟨?_, .notElement name, if_neg h, fun form h => nomatch h⟩
      rintro ⟨bs', hbs', h'⟩
      cases hbs'
      exact h h'

/-- A first attempt on a ciphertext gets to the proof inside, or stops at an element before. -/
theorem openContents_ciphertext (e1 e2 info : Text) (label : Option Bytes) (inner : ProofFields)
    (innerOpened : Bool) (issuer : Issuer) :
    ((HoldsElement e1 ∧ HoldsElement e2) ∧ ∃ p1 p2,
        openContents (.ciphertext e1 e2 info label inner innerOpened) issuer
          = finish .ciphertext issuer (.ciphertext e1 e2 info label inner true)
              (openProof inner innerOpened issuer).events
              ((openProof inner innerOpened issuer).outcome.map fun proof =>
                Ciphertext.toValue ⟨.text p1, .text p2, proof.toValue, label⟩))
      ∨ (¬(HoldsElement e1 ∧ HoldsElement e2) ∧ ∃ why,
          openContents (.ciphertext e1 e2 info label inner innerOpened) issuer
            = ⟨.ciphertext e1 e2 info label inner innerOpened, [], .error (.wire why)⟩
          ∧ ∀ form, why ≠ .alreadyOpened form) := by
  rw [openContents]
  rcases element_cases e1 "E1" with ⟨h1, p1, hp1⟩ | ⟨h1, why, hwhy, hne⟩
  · rcases element_cases e2 "E2" with ⟨h2, p2, hp2⟩ | ⟨h2, why, hwhy, hne⟩
    · refine .inl ⟨⟨h1, h2⟩, p1, p2, ?_⟩
      rw [hp1, hp2, ← left_openProof inner innerOpened issuer]
      rfl
    · refine .inr ⟨fun h => h2 h.2, why, ?_, hne⟩
      rw [hp1, hwhy]
      rfl
  · refine .inr ⟨fun h => h1 h.1, why, ?_, hne⟩
    rw [hwhy]
    rfl

/-- What a first attempt leaves: the proof inside is used up if the elements decode. -/
theorem left_openContents (c : Contents) (issuer : Issuer) :
    (c.ElementsDecode ∧ (openContents c issuer).left = c.spent)
      ∨ (¬c.ElementsDecode ∧ (openContents c issuer).left = c) := by
  cases c with
  | ciphertext e1 e2 info label inner innerOpened =>
    rcases openContents_ciphertext e1 e2 info label inner innerOpened issuer
      with ⟨hdecode, p1, p2, hopen⟩ | ⟨hdecode, why, hopen, -⟩
    · exact .inl ⟨hdecode, by rw [hopen, left_finish, Contents.spent]⟩
    · exact .inr ⟨hdecode, by rw [hopen]⟩
  | _ => exact .inr ⟨fun h => h.elim, left_finish _ _ _ _ _⟩

end Attempts

namespace Parcel

/-- What a first call on a parcel leaves. -/
theorem left_openWith {p : Parcel} (h : p.opened = false) (v : Value) :
    (p.contents.Reaches v ∧ (p.openWith v).left = ⟨p.contents.spent, true⟩)
      ∨ (¬p.contents.Reaches v ∧ (p.openWith v).left = ⟨p.contents, true⟩) := by
  rw [openWith, h, if_neg Bool.false_ne_true]
  cases hv : Issuer.ofValue? v with
  | none => exact .inr ⟨fun hreaches => by simp [Contents.Reaches, hv] at hreaches, rfl⟩
  | some issuer =>
    have hissuer : (Issuer.ofValue? v).isSome = true := by rw [hv, Option.isSome_some]
    rcases left_openContents p.contents issuer with ⟨hdecode, hleft⟩ | ⟨hdecode, hleft⟩
    · exact .inl ⟨⟨hissuer, hdecode⟩, by rw [← hleft]⟩
    · refine .inr ⟨fun hreaches => hdecode hreaches.2, ?_⟩
      dsimp only
      rw [hleft]

/-- A call on the proof inside uses it up and leaves the parcel around it alone. -/
theorem left_openInner (p : Parcel) (v : Value) :
    (p.openInner v).left = ⟨p.contents.spent, p.opened⟩ := by
  obtain ⟨contents, opened⟩ := p
  cases contents with
  | ciphertext e1 e2 info label inner innerOpened =>
    rw [openInner]
    dsimp only
    rw [opened_openWith]
    rfl
  | _ => rfl

/-! ### The flags -/

theorem innerOpened_mk (contents : Contents) (opened : Bool) :
    innerOpened ⟨contents, opened⟩ = innerOpened ⟨contents, false⟩ := by
  cases contents <;> rfl

theorem innerOpened_of_fresh {p : Parcel} (h : p.contents.Fresh) : p.innerOpened = false := by
  obtain ⟨contents, opened⟩ := p
  cases contents with
  | ciphertext _ _ _ _ _ _ => exact h.2
  | _ => rfl

theorem form_of_innerOpened {p : Parcel} (h : p.innerOpened = true) : p.form = .ciphertext := by
  obtain ⟨contents, opened⟩ := p
  cases contents with
  | ciphertext _ _ _ _ _ _ => rfl
  | _ => cases h

theorem innerOpened_spent (p : Parcel) :
    innerOpened ⟨p.contents.spent, true⟩ = true ↔ p.form = .ciphertext := by
  obtain ⟨contents, opened⟩ := p
  cases contents <;> simp [innerOpened, inner?, Contents.spent, form]

/-- A call changes nothing but the flags. -/
theorem unopened_call (p : Parcel) (c : Call) :
    (p.call c).left.contents.unopened = p.contents.unopened := by
  obtain ⟨_ | _, v⟩ := c
  · rw [call_outer]
    cases hopened : p.opened with
    | true => rw [openWith_of_opened hopened]
    | false =>
      rcases left_openWith hopened v with ⟨-, hleft⟩ | ⟨-, hleft⟩
      · rw [hleft, Contents.unopened_spent]
      · rw [hleft]
  · rw [call_inner, left_openInner, Contents.unopened_spent]

theorem opened_call (p : Parcel) (c : Call) :
    (p.call c).left.opened = true ↔ p.opened = true ∨ c.inner = false := by
  obtain ⟨_ | _, v⟩ := c
  · rw [call_outer, opened_openWith]
    simp
  · rw [call_inner, left_openInner]
    simp

/-- A call uses up the proof inside if it is made on it, or if it is the first on the parcel and
gets there. -/
theorem innerOpened_call (p : Parcel) (c : Call) :
    (p.call c).left.innerOpened = true ↔ p.innerOpened = true
      ∨ p.form = .ciphertext ∧ (c.inner = true ∨ p.opened = false ∧ p.contents.Reaches c.issuer) := by
  obtain ⟨_ | _, v⟩ := c
  · rw [call_outer]
    cases hopened : p.opened with
    | true => simp [openWith_of_opened hopened]
    | false =>
      rcases left_openWith hopened v with ⟨hreaches, hleft⟩ | ⟨hreaches, hleft⟩
      · rw [hleft, innerOpened_spent]
        exact ⟨fun h => .inr ⟨h, .inr ⟨rfl, hreaches⟩⟩,
          fun h => h.elim form_of_innerOpened And.left⟩
      · rw [hleft, innerOpened_mk, ← innerOpened_mk p.contents p.opened]
        simp [hreaches]
  · rw [call_inner, left_openInner, innerOpened_mk, ← innerOpened_mk p.contents.spent true,
      innerOpened_spent]
    simp [or_iff_right_of_imp form_of_innerOpened]

/-! ## Any number of calls -/

theorem unopened_after (p : Parcel) (calls : List Call) :
    (p.after calls).contents.unopened = p.contents.unopened := by
  induction calls generalizing p with
  | nil => rfl
  | cons c calls ih => rw [after_cons, ih, unopened_call]

theorem opened_after (p : Parcel) (calls : List Call) :
    (p.after calls).opened = true ↔ p.opened = true ∨ ∃ c ∈ calls, c.inner = false := by
  induction calls generalizing p with
  | nil => simp [after]
  | cons c calls ih =>
    rw [after_cons, ih, opened_call, or_assoc]
    simp

/-- The proof inside is used up by the first call on it, or by the first call on the parcel if
that gets there; which calls come later does not matter. -/
theorem innerOpened_after (p : Parcel) (calls : List Call) :
    (p.after calls).innerOpened = true ↔ p.innerOpened = true
      ∨ p.form = .ciphertext ∧ ((∃ c ∈ calls, c.inner = true)
        ∨ p.opened = false ∧ ∃ first, calls.find? (fun c => !c.inner) = some first
            ∧ p.contents.Reaches first.issuer) := by
  induction calls generalizing p with
  | nil => simp [after]
  | cons c calls ih =>
    have hcontents := unopened_call p c
    have hreaches := Contents.reaches_congr hcontents
    have hopened : (p.call c).left.opened = false ↔ p.opened = false ∧ c.inner = true := by
      rw [← Bool.not_eq_true, opened_call, not_or, Bool.not_eq_true, Bool.not_eq_false]
    have hform : (p.call c).left.form = p.form :=
      Contents.congr_unopened Contents.form_unopened hcontents
    rw [after_cons, ih, innerOpened_call, hform, hopened]
    cases hinner : c.inner with
    | true =>
      -- the call uses the proof up, and what the others do adds nothing
      simp only [hreaches, List.exists_mem_cons_iff, List.find?_cons, hinner, Bool.not_true,
        true_or, and_true]
      rw [or_assoc, or_iff_left_of_imp And.left]
    | false =>
      -- the call is the first on the parcel and uses it up, so no later one gets to the proof
      simp only [hreaches, List.exists_mem_cons_iff, List.find?_cons, hinner, Bool.not_false,
        Option.some.injEq, exists_eq_left', Bool.false_eq_true, and_false, false_and, or_false,
        false_or]
      rw [or_assoc, ← and_or_left, or_comm (b := ∃ c ∈ calls, c.inner = true)]

/-! ## What calls answer -/

theorem outcome_of_opened {p : Parcel} {c : Call} (h : p.opened = true) (hc : c.inner = false) :
    (p.call c).outcome = .error (.wire (.alreadyOpened p.form.name)) := by
  obtain ⟨inner, v⟩ := c
  obtain rfl : inner = false := hc
  rw [call_outer, openWith_of_opened h]

theorem exists_ciphertext {p : Parcel} (h : p.form = .ciphertext) :
    ∃ e1 e2 info label inner innerOpened opened,
      p = ⟨.ciphertext e1 e2 info label inner innerOpened, opened⟩ := by
  obtain ⟨contents, opened⟩ := p
  cases contents with
  | ciphertext e1 e2 info label inner innerOpened =>
    exact ⟨e1, e2, info, label, inner, innerOpened, opened, rfl⟩
  | _ => cases h

theorem exists_ciphertext_of_innerOpened {p : Parcel} (h : p.innerOpened = true) :
    ∃ e1 e2 info label inner opened, p = ⟨.ciphertext e1 e2 info label inner true, opened⟩ := by
  obtain ⟨e1, e2, info, label, inner, innerOpened, opened, rfl⟩ :=
    exists_ciphertext (form_of_innerOpened h)
  obtain rfl : innerOpened = true := h
  exact ⟨e1, e2, info, label, inner, opened, rfl⟩

theorem outcome_inner_of_innerOpened {p : Parcel} {c : Call} (h : p.innerOpened = true)
    (hc : c.inner = true) :
    (p.call c).outcome = .error (.wire (.alreadyOpened Form.proof.name)) := by
  obtain ⟨inner, v⟩ := c
  obtain rfl : inner = true := hc
  obtain ⟨e1, e2, info, label, fields, opened, rfl⟩ := exists_ciphertext_of_innerOpened h
  rw [call_inner, openInner]
  rfl

/-- A call on a ciphertext whose proof has been used up says so exactly when it gets there. -/
theorem outcome_outer_of_innerOpened {p : Parcel} {c : Call} (h : p.innerOpened = true)
    (hc : c.inner = false) :
    (p.call c).outcome = .error (.wire (.alreadyOpened Form.proof.name))
      ↔ p.opened = false ∧ p.contents.Reaches c.issuer := by
  obtain ⟨inner, v⟩ := c
  obtain rfl : inner = false := hc
  obtain ⟨e1, e2, info, label, fields, opened, rfl⟩ := exists_ciphertext_of_innerOpened h
  rw [call_outer, openWith]
  cases opened with
  | true =>
    have hnames : Form.ciphertext.name ≠ Form.proof.name := by decide
    simp [form, hnames]
  | false =>
    rw [if_neg Bool.false_ne_true]
    cases hv : Issuer.ofValue? v with
    | none => simp [Contents.Reaches, hv]
    | some issuer =>
      dsimp only
      rcases openContents_ciphertext e1 e2 info label fields true issuer
        with ⟨hdecode, p1, p2, hopen⟩ | ⟨hdecode, why, hopen, hne⟩
      · rw [hopen]
        exact iff_of_true rfl ⟨rfl, by rw [hv, Option.isSome_some], hdecode⟩
      · rw [hopen]
        refine iff_of_false (fun heq => ?_) fun hreaches => hdecode hreaches.2.2
        cases heq
        exact hne _ rfl

/-! ## The proofs that are built -/

/-- The proof that a call builds of the fields inside: the call finds them unopened and uses
them up, for an issuer. -/
def build? (p : Parcel) (c : Call) : Option Proof :=
  match p.contents with
  | .ciphertext _ _ _ _ inner false =>
      if (Issuer.ofValue? c.issuer).isSome ∧ (p.call c).left.innerOpened = true then
        inner.decode.toOption
      else none
  | _ => none

/-- The proofs that calls build of the fields inside, one after another. -/
def builds (p : Parcel) : List Call → List Proof
  | [] => []
  | c :: calls => (p.build? c).toList ++ (p.call c).left.builds calls

theorem build?_of_innerOpened {p : Parcel} (h : p.innerOpened = true) (c : Call) :
    p.build? c = none := by
  obtain ⟨e1, e2, info, label, fields, opened, rfl⟩ := exists_ciphertext_of_innerOpened h
  rfl

theorem innerOpened_of_build? {p : Parcel} {c : Call} {proof : Proof}
    (h : p.build? c = some proof) : (p.call c).left.innerOpened = true := by
  unfold build? at h
  split at h
  next =>
    split_ifs at h with hcall
    exact hcall.2
  next => cases h

theorem builds_of_innerOpened {p : Parcel} (h : p.innerOpened = true) (calls : List Call) :
    p.builds calls = [] := by
  induction calls generalizing p with
  | nil => rfl
  | cons c calls ih =>
    rw [builds, build?_of_innerOpened h, ih ((innerOpened_call p c).mpr (.inl h))]
    rfl

/-- **At most one proof is built**, since the call that builds one uses the fields up. -/
theorem length_builds_le (p : Parcel) (calls : List Call) : (p.builds calls).length ≤ 1 := by
  induction calls generalizing p with
  | nil => exact Nat.zero_le 1
  | cons c calls ih =>
    rw [builds]
    cases h : p.build? c with
    | none => exact ih _
    | some proof =>
      rw [builds_of_innerOpened (innerOpened_of_build? h)]
      exact Nat.le_refl 1

/-- A call on a parcel gives something only if it is the first, and for an issuer. -/
theorem ok_of_openWith {p : Parcel} {v w : Value} (h : (p.openWith v).outcome = .ok w) :
    p.opened = false ∧ ∃ issuer, Issuer.ofValue? v = some issuer
      ∧ (openContents p.contents issuer).outcome = .ok w := by
  unfold openWith at h
  split at h
  next => cases h
  next hopened =>
    split at h
    next => cases h
    next issuer hv => exact ⟨Bool.eq_false_iff.mpr hopened, issuer, hv, h⟩

theorem build?_eq_some {e1 e2 info : Text} {label : Option Bytes} {fields : ProofFields}
    {opened : Bool} {c : Call} {issuer : Issuer} {proof : Proof}
    (hissuer : Issuer.ofValue? c.issuer = some issuer)
    (hcall : c.inner = true ∨ opened = false ∧ HoldsElement e1 ∧ HoldsElement e2)
    (hdecode : fields.decode = .ok proof) :
    build? ⟨.ciphertext e1 e2 info label fields false, opened⟩ c = some proof := by
  have hissome : (Issuer.ofValue? c.issuer).isSome = true := by rw [hissuer, Option.isSome_some]
  have hleft : (call ⟨.ciphertext e1 e2 info label fields false, opened⟩ c).left.innerOpened
      = true := by
    refine (innerOpened_call _ c).mpr (.inr ⟨rfl, hcall.imp_right ?_⟩)
    exact fun h => ⟨h.1, hissome, h.2⟩
  rw [build?]
  dsimp only
  rw [if_pos ⟨hissome, hleft⟩, hdecode]
  rfl

/-- What a call on a ciphertext or on the proof inside gives is the proof that it builds, by
itself or in the ciphertext. -/
theorem exists_build?_of_ok {p : Parcel} {c : Call} {w : Value}
    (hform : p.form = .ciphertext) (h : (p.call c).outcome = .ok w) :
    ∃ proof, p.build? c = some proof ∧ if c.inner then w = proof.toValue
      else ∃ e1 e2 label, w = Ciphertext.toValue ⟨e1, e2, proof.toValue, label⟩ := by
  obtain ⟨inner, v⟩ := c
  obtain ⟨e1, e2, info, label, fields, innerOpened, opened, rfl⟩ := exists_ciphertext hform
  cases inner with
  | true =>
    rw [call_inner, openInner] at h
    obtain ⟨hfirst, issuer, hissuer, hopen⟩ := ok_of_openWith h
    obtain rfl : innerOpened = false := hfirst
    have hproof := ok_of_finish hopen
    cases hdecode : fields.decode with
    | error fault =>
      rw [hdecode] at hproof
      cases hproof
    | ok proof =>
      rw [hdecode] at hproof
      exact ⟨proof, build?_eq_some hissuer (.inl rfl) hdecode, (Except.ok.inj hproof).symm⟩
  | false =>
    rw [call_outer] at h
    obtain ⟨hfirst, issuer, hissuer, hopen⟩ := ok_of_openWith h
    rcases openContents_ciphertext e1 e2 info label fields innerOpened issuer
      with ⟨helements, p1, p2, heq⟩ | ⟨-, why, heq, -⟩
    · rw [heq] at hopen
      have hproof := ok_of_finish hopen
      cases hattempt : (openProof fields innerOpened issuer).outcome with
      | error fault =>
        rw [hattempt] at hproof
        cases hproof
      | ok proof =>
        obtain ⟨rfl, hdecode⟩ := ok_of_openProof hattempt
        rw [hattempt] at hproof
        refine ⟨proof, build?_eq_some hissuer (.inr ⟨hfirst, helements⟩) hdecode, ?_⟩
        exact ⟨.text p1, .text p2, label, (Except.ok.inj hproof).symm⟩
    · rw [heq] at hopen
      cases hopen

end Parcel

/-! ## Over any calls -/

/-- What holds of a parcel after calls, and of the call that comes next. -/
structure UsedOnce (p : Parcel) (calls : List Call) (c : Call) : Prop where
  /-- The fields, the label and the proof inside are what they were. -/
  fields : (p.after calls).fields = p.fields
  label : (p.after calls).label = p.label
  inner : (p.after calls).inner?.map Parcel.contents = p.inner?.map Parcel.contents
  /-- Any call on the parcel uses it up, whatever came of the call. -/
  opened : (p.after calls).opened = true ↔ ∃ c' ∈ calls, c'.inner = false
  /-- The proof inside is used up by any call on it, or by the first call on the parcel if that
  gets there. -/
  innerOpened : (p.after calls).innerOpened = true ↔ p.form = .ciphertext
    ∧ ((∃ c' ∈ calls, c'.inner = true) ∨ ∃ first, calls.find? (fun c' => !c'.inner) = some first
        ∧ p.contents.Reaches first.issuer)
  /-- A call on what has been used up fails. -/
  again : c.inner = false → (p.after calls).opened = true →
    ((p.after calls).call c).outcome = .error (.wire (.alreadyOpened p.form.name))
  againInner : c.inner = true → (p.after calls).innerOpened = true →
    ((p.after calls).call c).outcome = .error (.wire (.alreadyOpened Form.proof.name))
  /-- A call on a ciphertext gets to the proof inside exactly when it is the first on the
  ciphertext, for an issuer, and the elements decode.  That uses the proof up, or fails because
  it has been used up before. -/
  reaches : c.inner = false → p.form = .ciphertext →
    ((∀ c' ∈ calls, c'.inner = true) ∧ p.contents.Reaches c.issuer
      ↔ if (p.after calls).innerOpened then
          ((p.after calls).call c).outcome = .error (.wire (.alreadyOpened Form.proof.name))
        else ((p.after calls).call c).left.innerOpened = true)
  /-- What a call on a ciphertext or on the proof inside gives, it gives for a proof that was not
  used up before and is used up after, and which the call has built. -/
  gives : p.form = .ciphertext → ∀ w, ((p.after calls).call c).outcome = .ok w →
    (p.after calls).innerOpened = false ∧ ((p.after calls).call c).left.innerOpened = true
      ∧ ∃ proof, (p.after calls).build? c = some proof ∧ if c.inner then w = proof.toValue
          else ∃ e1 e2 label, w = Ciphertext.toValue ⟨e1, e2, proof.toValue, label⟩
  /-- At most one proof is ever built of the fields inside. -/
  built : (p.builds calls).length ≤ 1

/-- **A parcel is used up once**, over any calls and for the call that comes next. -/
theorem usedOnce {target : Target} {v : Value} {p : Parcel} (h : pack target v = .ok p)
    (calls : List Call) (c : Call) : UsedOnce p calls c := by
  obtain ⟨hopened, hfresh, -⟩ := (pack_meets target v).of_ok h
  have hinner : p.innerOpened = false := Parcel.innerOpened_of_fresh hfresh
  have hcontents := p.unopened_after calls
  have hform : (p.after calls).form = p.form :=
    Contents.congr_unopened Contents.form_unopened hcontents
  have hreaches := Contents.reaches_congr hcontents
  have hfirst : (p.after calls).opened = false ↔ ∀ c' ∈ calls, c'.inner = true := by
    rw [← Bool.not_eq_true, Parcel.opened_after]
    simp [hopened]
  exact {
    fields := Contents.congr_unopened (f := fun c => Parcel.fields ⟨c, false⟩)
      (fun c => by cases c <;> rfl) hcontents
    label := Contents.congr_unopened (f := fun c => Parcel.label ⟨c, false⟩)
      (fun c => by cases c <;> rfl) hcontents
    inner := Contents.congr_unopened
      (f := fun c => (Parcel.inner? ⟨c, false⟩).map Parcel.contents)
      (fun c => by cases c <;> rfl) hcontents
    opened := by
      rw [Parcel.opened_after]
      simp [hopened]
    innerOpened := by
      rw [Parcel.innerOpened_after]
      simp [hopened, hinner]
    again := fun hc hused => by rw [Parcel.outcome_of_opened hused hc, hform]
    againInner := fun hc hused => Parcel.outcome_inner_of_innerOpened hused hc
    reaches := fun hc hciphertext => by
      rw [← hfirst, ← hreaches]
      cases hused : (p.after calls).innerOpened with
      | true =>
        rw [if_pos rfl]
        exact (Parcel.outcome_outer_of_innerOpened hused hc).symm
      | false =>
        rw [if_neg Bool.false_ne_true, Parcel.innerOpened_call, hused, hc, hform]
        simp [hciphertext]
    gives := fun hciphertext w hw => by
      obtain ⟨proof, hbuild, hgiven⟩ :=
        Parcel.exists_build?_of_ok (hform.trans hciphertext) hw
      refine ⟨?_, Parcel.innerOpened_of_build? hbuild, proof, hbuild, hgiven⟩
      rw [← Bool.not_eq_true]
      intro hused
      rw [Parcel.build?_of_innerOpened hused] at hbuild
      cases hbuild
    built := p.length_builds_le calls }

/-- A ciphertext of the generator, with a one in every field of its proof. -/
def sample : Parcel :=
  ⟨.ciphertext (Base64.encode Point.generator.bytes) (Base64.encode Point.generator.bytes) noLabel
    none ⟨Base64.encode [1], Base64.encode [1], Base64.encode [1], Base64.encode [1]⟩ false, false⟩

theorem pack_sample :
    pack (some (Text.of Form.ciphertext.name)) sample.contents.toValue = .ok sample := rfl

theorem reaches_sample : sample.contents.Reaches (Domain.ofGenerator .sha256).issuer.toValue := by
  have hgenerator : HoldsElement (Base64.encode Point.generator.bytes) :=
    ⟨_, Base64.decode?_encode _, isCompressed_generator.isElement⟩
  exact ⟨rfl, hgenerator, hgenerator⟩

/-- Where the proof inside is opened first, the call on the ciphertext around it gets there and
fails. -/
theorem usedOnce_sample :
    pack (some (Text.of Form.ciphertext.name)) sample.contents.toValue = .ok sample
      ∧ UsedOnce sample [⟨true, .null⟩] ⟨false, (Domain.ofGenerator .sha256).issuer.toValue⟩
      ∧ ((sample.after [⟨true, .null⟩]).call
          ⟨false, (Domain.ofGenerator .sha256).issuer.toValue⟩).outcome
        = .error (.wire (.alreadyOpened Form.proof.name)) := by
  have hused := usedOnce pack_sample [⟨true, .null⟩]
    ⟨false, (Domain.ofGenerator .sha256).issuer.toValue⟩
  have hreached := (hused.reaches rfl rfl).mp
    ⟨List.forall_mem_singleton.mpr rfl, reaches_sample⟩
  exact ⟨pack_sample, hused, hreached⟩

/-! ## In the registry -/

namespace Registry

/-- The registry after calls on parcels by their handles. -/
def after (r : Registry) (uses : List (ParcelHandle × Value)) : Registry :=
  uses.foldl (fun r use => (r.openWith use.1 use.2).left) r

/-- The calls that are made on the parcel with a number. -/
def callsOn (number : Nat) (uses : List (ParcelHandle × Value)) : List Call :=
  (uses.filter fun use => use.1.number = number).map fun use => ⟨use.1.inner, use.2⟩

/-- A handle's call answers like the call on its parcel. -/
theorem outcome_openWith {r : Registry} {handle : ParcelHandle} {p : Parcel}
    (h : r.parcels[handle.number]? = some p) (v : Value) :
    (r.openWith handle v).outcome = (p.call ⟨handle.inner, v⟩).outcome := by
  rw [openWith, h]
  rfl

theorem map_after_nil (p : Option Parcel) : (p.map fun p => p.after []) = p := by
  cases p <;> rfl

/-- One call: the parcel that it is made on changes, and no other does. -/
theorem getElem?_openWith (r : Registry) (handle : ParcelHandle) (v : Value) (number : Nat) :
    (r.openWith handle v).left.parcels[number]?
      = r.parcels[number]?.map fun p => p.after (callsOn number [(handle, v)]) := by
  unfold openWith
  by_cases hnumber : handle.number = number
  · subst hnumber
    cases h : r.parcels[handle.number]? with
    | none => rw [h, Option.map_none]
    | some p =>
      obtain ⟨hlt, -⟩ := List.getElem?_eq_some_iff.mp h
      simp only [List.getElem?_set_self hlt, Option.map_some, callsOn, List.filter_cons,
        decide_true, if_true, List.filter_nil, List.map_cons, List.map_nil]
      rfl
  · have hcalls : callsOn number [(handle, v)] = [] := by simp [callsOn, hnumber]
    rw [hcalls, map_after_nil]
    split
    next => rfl
    next p _ => exact List.getElem?_set_ne hnumber

/-- **Parcels that wait together do not disturb one another**: each is as if only the calls on it
had been made. -/
theorem getElem?_after (r : Registry) (uses : List (ParcelHandle × Value)) (number : Nat) :
    (r.after uses).parcels[number]?
      = r.parcels[number]?.map fun p => p.after (callsOn number uses) := by
  induction uses generalizing r with
  | nil => exact (map_after_nil _).symm
  | cons use uses ih =>
    have hcalls : callsOn number (use :: uses) = callsOn number [use] ++ callsOn number uses := by
      rw [callsOn, ← List.singleton_append, List.filter_append, List.map_append]
      rfl
    rw [show r.after (use :: uses) = (r.openWith use.1 use.2).left.after uses from rfl, ih,
      getElem?_openWith, Option.map_map, hcalls]
    exact congrArg (Option.map · _) (funext fun p => (p.after_append _ _).symm)

end Registry

end Wire
end VerifiableEscrow
