import VerifiableEscrow.Proofs.CanonicalText

/-!
# Valid elements are a module over the integers

An operation on elements decodes its operands, computes with points and encodes the outcome, and
an integer of any size acts through its residue modulo the group order.  On texts of members all of
this is the arithmetic of an abelian group: a residue acts on a member as the integer itself
(`smul_ofInt`), and the outcome is a text of the one spelling that compressing gives.  So the laws
of a module hold between texts, letter by letter, whatever the case of the operands.

The operands must be texts of members.  A point that the group order does not annihilate would
tell an integer from its residue.

* `scale_int`: an integer raises an element to itself;
* `multiScale_eq_total`: what a list of elements and integers sums up to;
* `moduleLaws_of_isElement`: **the laws**, and that every outcome is a valid element again.
-/

namespace VerifiableEscrow

open scoped PrimeField Member

namespace Element

/-- A computation gives a valid element, spelled as compressing spells it. -/
def GivesElement (x : Except Fault Text) : Prop := ∃ t, x = .ok t ∧ IsCanonical t

/-- Two computations give the same valid element, letter by letter. -/
def Agree (x y : Except Fault Text) : Prop := x = y ∧ GivesElement x

theorem givesElement_of_eq {x : Except Fault Text} {g : Member} (h : x = .ok g.point.compress) :
    GivesElement x :=
  ⟨_, h, isCanonical_compress g⟩

/-- Computations whose outcomes are texts of one member agree. -/
theorem agree_of_eq {x y : Except Fault Text} {g g' : Member} (hx : x = .ok g.point.compress)
    (hy : y = .ok g'.point.compress) (h : g = g') : Agree x y := by
  subst h
  exact ⟨hx.trans hy.symm, givesElement_of_eq hx⟩

/-- The residue of an integer acts as the integer. -/
theorem smul_ofInt (n : ℤ) (g : Member) : Scalar.ofInt n • g = n • g := by
  rw [Scalar.ofInt_eq_cast, Int.cast_smul_eq_zsmul]

theorem scale_int {v : Value} {g : Member} (h : Encodes v g) (n : ℤ) :
    scale v (.int n) = .ok (n • g).point.compress := by
  rw [scale_eq h (exponent_int n), smul_ofInt]

/-- The text of the identity is that of the member zero. -/
theorem identity_eq_compress : identity = (0 : Member).point.compress := rfl

theorem ofScalar_int (n : ℤ) : ofScalar (.int n) = .ok (n • Member.generator).point.compress := by
  rw [ofScalar_of_exponent (exponent_int n), smul_ofInt]

/-! ## The laws -/

section Laws

variable {a b c : Text} {A B C : Member}

theorem agree_combine_comm (ha : Encodes (.text a) A) (hb : Encodes (.text b) B) :
    Agree (combine (.text a) (.text b)) (combine (.text b) (.text a)) :=
  agree_of_eq (combine_eq ha hb) (combine_eq hb ha) (add_comm A B)

theorem agree_combine_assoc (ha : Encodes (.text a) A) (hb : Encodes (.text b) B)
    (hc : Encodes (.text c) C) :
    Agree (do combine (.text (← combine (.text a) (.text b))) (.text c))
      (do combine (.text a) (.text (← combine (.text b) (.text c)))) := by
  refine agree_of_eq ?_ ?_ (add_assoc A B C)
  · exact (Except.bind_of_ok (combine_eq ha hb)).trans (combine_eq (encodes_compress _) hc)
  · exact (Except.bind_of_ok (combine_eq hb hc)).trans (combine_eq ha (encodes_compress _))

/-- The identity leaves an element as it is, except that its text comes out in the lower case. -/
theorem agree_combine_identity (ha : Encodes (.text a) A) :
    Agree (combine (.text a) (.text identity)) (.ok (Hex.lower a)) := by
  rw [← compress_of_uncompress ha]
  exact agree_of_eq (combine_eq ha encodes_identity) rfl (add_zero A)

theorem agree_combine_inverse (ha : Encodes (.text a) A) :
    Agree (do combine (.text a) (.text (← scale (.text a) (.int (-1))))) (.ok identity) := by
  have hzero : A + (-1 : ℤ) • A = 0 := by rw [neg_one_zsmul, add_neg_cancel]
  rw [identity_eq_compress]
  refine agree_of_eq ?_ rfl hzero
  exact (Except.bind_of_ok (scale_int ha (-1))).trans (combine_eq ha (encodes_compress _))

theorem agree_scale_add (ha : Encodes (.text a) A) (s t : ℤ) :
    Agree (scale (.text a) (.int (s + t)))
      (do combine (.text (← scale (.text a) (.int s))) (.text (← scale (.text a) (.int t)))) := by
  refine agree_of_eq (scale_int ha (s + t)) ?_ (add_zsmul A s t)
  refine (Except.bind_of_ok (scale_int ha s)).trans ?_
  refine (Except.bind_of_ok (scale_int ha t)).trans ?_
  exact combine_eq (encodes_compress _) (encodes_compress _)

theorem agree_scale_scale (ha : Encodes (.text a) A) (s t : ℤ) :
    Agree (do scale (.text (← scale (.text a) (.int s))) (.int t))
      (scale (.text a) (.int (s * t))) := by
  have hmul : t • s • A = (s * t) • A := by rw [mul_comm, mul_zsmul]
  refine agree_of_eq ?_ (scale_int ha (s * t)) hmul
  exact (Except.bind_of_ok (scale_int ha s)).trans (scale_int (encodes_compress _) t)

theorem agree_scale_combine (ha : Encodes (.text a) A) (hb : Encodes (.text b) B) (s : ℤ) :
    Agree (do scale (.text (← combine (.text a) (.text b))) (.int s))
      (do combine (.text (← scale (.text a) (.int s))) (.text (← scale (.text b) (.int s)))) := by
  refine agree_of_eq ?_ ?_ (zsmul_add A B s)
  · exact (Except.bind_of_ok (combine_eq ha hb)).trans (scale_int (encodes_compress _) s)
  · refine (Except.bind_of_ok (scale_int ha s)).trans ?_
    refine (Except.bind_of_ok (scale_int hb s)).trans ?_
    exact combine_eq (encodes_compress _) (encodes_compress _)

theorem agree_ofScalar (s : ℤ) :
    Agree (ofScalar (.int s)) (scale (.text generator) (.int s)) :=
  agree_of_eq (ofScalar_int s) (scale_int encodes_generator s) rfl

end Laws

/-! ## Sums of multiples -/

open Classical in
/-- The member that a text encodes, and the identity where it encodes none. -/
noncomputable def memberOf (t : Text) : Member :=
  if h : ∃ g, Encodes (.text t) g then h.choose else 0

theorem encodes_memberOf {t : Text} (h : isElement (.text t) = true) :
    Encodes (.text t) (memberOf t) := by
  have hex := isElement_iff.mp h
  rw [memberOf, dif_pos hex]
  exact hex.choose_spec

/-- The sum of the members that a list encodes, each raised to its integer. -/
noncomputable def total (terms : List (Text × ℤ)) : Member :=
  (terms.map fun e => e.2 • memberOf e.1).sum

/-- The elements of a list are valid. -/
def AllValid (terms : List (Text × ℤ)) : Prop := ∀ e ∈ terms, isElement (.text e.1) = true

theorem multiScale_eq_total {terms : List (Text × ℤ)} (h : AllValid terms) :
    multiScale (terms.map fun e => .text e.1) (terms.map fun e => .int e.2)
      = .ok (total terms).point.compress := by
  have hterms : List.Forall₂ TermEncodes (terms.map fun e => (Value.text e.1, Value.int e.2))
      (terms.map fun e => (memberOf e.1, Scalar.ofInt e.2)) := by
    rw [List.forall₂_map_left_iff, List.forall₂_map_right_iff]
    exact List.forall₂_same.mpr fun e he => ⟨encodes_memberOf (h e he), exponent_int e.2⟩
  have hsum := multiScale_eq hterms
  rw [List.map_map, List.map_map] at hsum
  have hcombination :
      Member.combination (terms.map fun e => (memberOf e.1, Scalar.ofInt e.2)) = total terms := by
    rw [Member.combination, List.map_map, total]
    exact congrArg List.sum (List.map_congr_left fun e _ => smul_ofInt e.2 (memberOf e.1))
  rw [hcombination] at hsum
  exact hsum

/-- Sums of multiples of valid elements are valid elements, however many there are. -/
theorem givesElement_multiScale {terms : List (Text × ℤ)} (h : AllValid terms) :
    GivesElement (multiScale (terms.map fun e => .text e.1) (terms.map fun e => .int e.2)) :=
  givesElement_of_eq (multiScale_eq_total h)

/-- The laws of a module over the integers, as they show in the texts of three elements and for
two integers. -/
structure ModuleLaws (a b c : Text) (s t : ℤ) : Prop where
  combine_comm : Agree (combine (.text a) (.text b)) (combine (.text b) (.text a))
  combine_assoc : Agree (do combine (.text (← combine (.text a) (.text b))) (.text c))
    (do combine (.text a) (.text (← combine (.text b) (.text c))))
  combine_identity : Agree (combine (.text a) (.text identity)) (.ok (Hex.lower a))
  combine_inverse : Agree (do combine (.text a) (.text (← scale (.text a) (.int (-1)))))
    (.ok identity)
  scale_add : Agree (scale (.text a) (.int (s + t)))
    (do combine (.text (← scale (.text a) (.int s))) (.text (← scale (.text a) (.int t))))
  scale_scale : Agree (do scale (.text (← scale (.text a) (.int s))) (.int t))
    (scale (.text a) (.int (s * t)))
  scale_combine : Agree (do scale (.text (← combine (.text a) (.text b))) (.int s))
    (do combine (.text (← scale (.text a) (.int s))) (.text (← scale (.text b) (.int s))))
  ofScalar_eq_scale : Agree (ofScalar (.int s)) (scale (.text generator) (.int s))
  /-- No element comes out that is not valid, or in another spelling. -/
  scale_closed : GivesElement (scale (.text a) (.int s))

/-- **Valid elements are a module over the integers**, and sums of multiples of any number of them
are valid elements. -/
theorem moduleLaws_of_isElement {a b c : Text} {terms : List (Text × ℤ)}
    (ha : isElement (.text a) = true) (hb : isElement (.text b) = true)
    (hc : isElement (.text c) = true) (hterms : ∀ e ∈ terms, isElement (.text e.1) = true)
    (s t : ℤ) :
    ModuleLaws a b c s t ∧ GivesElement
      (multiScale (terms.map fun e => .text e.1) (terms.map fun e => .int e.2)) := by
  obtain ⟨A, hA⟩ := isElement_iff.mp ha
  obtain ⟨B, hB⟩ := isElement_iff.mp hb
  obtain ⟨C, hC⟩ := isElement_iff.mp hc
  exact ⟨{
    combine_comm := agree_combine_comm hA hB
    combine_assoc := agree_combine_assoc hA hB hC
    combine_identity := agree_combine_identity hA
    combine_inverse := agree_combine_inverse hA
    scale_add := agree_scale_add hA s t
    scale_scale := agree_scale_scale hA s t
    scale_combine := agree_scale_combine hA hB s
    ofScalar_eq_scale := agree_ofScalar s
    scale_closed := givesElement_of_eq (scale_int hA s) }, givesElement_multiScale hterms⟩

/-- The laws for the generator, the identity in either case, a negative integer and one beyond the
group order. -/
theorem moduleLaws_generator :
    (isElement (.text generator) = true ∧ isElement (.text upperIdentity) = true
      ∧ isElement (.text identity) = true
      ∧ ∀ e ∈ [(generator, (-3 : ℤ)), (upperIdentity, 5)], isElement (.text e.1) = true)
    ∧ ModuleLaws generator upperIdentity identity (-1) (groupOrder + 2)
    ∧ GivesElement (multiScale [.text generator, .text upperIdentity] [.int (-3), .int 5]) := by
  have hgenerator := encodes_generator.isElement
  have hupper := encodes_upperIdentity.isElement
  have hidentity := encodes_identity.isElement
  have hterms : ∀ e ∈ [(generator, (-3 : ℤ)), (upperIdentity, 5)],
      isElement (.text e.1) = true := by
    intro e he
    rcases List.mem_pair.mp he with rfl | rfl
    · exact hgenerator
    · exact hupper
  exact ⟨⟨hgenerator, hupper, hidentity, hterms⟩,
    moduleLaws_of_isElement hgenerator hupper hidentity hterms (-1) (groupOrder + 2)⟩

end Element
end VerifiableEscrow
