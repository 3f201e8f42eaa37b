import VerifiableEscrow.Proofs.ElementModule

/-!
# A sum computed at once is the plain sum

A sum of multiples of elements can be computed plainly: raise an element, add it to what has been
added up before, and go on, with a text written and read again at every step.  `multiScale` does
not do that.  It decodes every element once, adds up triples of coordinates that nobody brings back
to a point on the way, and encodes one point at the end.

Both come to the text of the same member (`sumAtOnce_eq`, `plainSum_eq`), and for the plain
sum this is an induction along the list: the invariant is that what has been written so far is the
text of a member (`addMultiple_eq` for one step, `foldlM_addMultiple` for a run).  The member is a
sum over the list in an abelian group, and what can be done to such a sum can be done to the list.

The elements must be valid.  A partial sum of other points may have abscissa zero, and the plain
computation cannot read what it has written then, while the other one never writes it.

* `plainSum`: the plain computation;
* `sumLaws_of_isElement`: **the plain sum is what `multiScale` computes**, with what may be done to
  the list, and the fault of lists that do not pair up.
-/

namespace VerifiableEscrow

open scoped PrimeField Member

namespace Element

/-! ## Two computations -/

/-- The sum of multiples of elements, computed at once. -/
def sumAtOnce (terms : List (Text × ℤ)) : Except Fault Text :=
  multiScale (terms.map fun e => .text e.1) (terms.map fun e => .int e.2)

/-- Raises an element and adds it to what has been added up before. -/
def addMultiple (total : Text) (e : Text × ℤ) : Except Fault Text := do
  combine (.text total) (.text (← scale (.text e.1) (.int e.2)))

/-- The sum of multiples of elements, computed one after another. -/
def plainSum (terms : List (Text × ℤ)) : Except Fault Text := terms.foldlM addMultiple identity

/-- Two lists of one length are a list of pairs. -/
theorem sumAtOnce_zip {elements : List Text} {exponents : List ℤ}
    (h : elements.length = exponents.length) :
    sumAtOnce (elements.zip exponents) = multiScale (elements.map .text) (exponents.map .int) := by
  have hfst : (elements.zip exponents).map (fun e => Value.text e.1) = elements.map .text := by
    conv_rhs => rw [← List.map_fst_zip h.le, List.map_map]
    rfl
  have hsnd : (elements.zip exponents).map (fun e => Value.int e.2) = exponents.map .int := by
    conv_rhs => rw [← List.map_snd_zip h.ge, List.map_map]
    rfl
  rw [sumAtOnce, hfst, hsnd]

/-- Lists are counted before anything is looked at. -/
theorem multiScale_unpaired {elements exponents : List Value}
    (h : elements.length ≠ exponents.length) : multiScale elements exponents = .error .unpaired :=
  if_pos h

/-! ## What they come to -/

theorem total_cons (e : Text × ℤ) (terms : List (Text × ℤ)) :
    total (e :: terms) = e.2 • memberOf e.1 + total terms := rfl

theorem total_append (front back : List (Text × ℤ)) :
    total (front ++ back) = total front + total back := by
  rw [total, List.map_append, List.sum_append]
  rfl

theorem total_perm {terms terms' : List (Text × ℤ)} (h : terms.Perm terms') :
    total terms = total terms' :=
  (h.map _).sum_eq

/-- Two multiples of one element count as one. -/
theorem total_merge (front middle back : List (Text × ℤ)) (a : Text) (s t : ℤ) :
    total (front ++ (a, s) :: (middle ++ (a, t) :: back))
      = total (front ++ (a, s + t) :: (middle ++ back)) := by
  simp only [total_append, total_cons, add_zsmul]
  abel

theorem sumAtOnce_eq {terms : List (Text × ℤ)} (h : AllValid terms) :
    sumAtOnce terms = .ok (total terms).point.compress :=
  multiScale_eq_total h

/-- A step leaves the text of a member behind. -/
theorem addMultiple_eq {e : Text × ℤ} (h : isElement (.text e.1) = true) (g : Member) :
    addMultiple g.point.compress e = .ok (g + e.2 • memberOf e.1).point.compress :=
  (Except.bind_of_ok (scale_int (encodes_memberOf h) e.2)).trans
    (combine_eq (encodes_compress g) (encodes_compress _))

/-- A run leaves the text of a member behind, and the list has been added to it. -/
theorem foldlM_addMultiple {terms : List (Text × ℤ)} (h : AllValid terms) (g : Member) :
    terms.foldlM addMultiple g.point.compress = .ok (g + total terms).point.compress := by
  induction terms generalizing g with
  | nil =>
    rw [total, List.map_nil, List.sum_nil, add_zero]
    rfl
  | cons e terms ih =>
    have hrest : AllValid terms := fun e' he' => h e' (List.mem_cons_of_mem e he')
    rw [List.foldlM_cons, total_cons, ← add_assoc]
    exact (Except.bind_of_ok (addMultiple_eq (h e List.mem_cons_self) g)).trans (ih hrest _)

theorem plainSum_eq {terms : List (Text × ℤ)} (h : AllValid terms) :
    plainSum terms = .ok (total terms).point.compress := by
  rw [plainSum, identity_eq_compress, foldlM_addMultiple h, zero_add]

/-- Lists with one total have one sum, and it is a valid element. -/
theorem agree_of_total_eq {terms terms' : List (Text × ℤ)} (h : AllValid terms)
    (h' : AllValid terms') (htotal : total terms = total terms') :
    Agree (sumAtOnce terms) (sumAtOnce terms') :=
  agree_of_eq (sumAtOnce_eq h) (sumAtOnce_eq h') htotal

/-! ## The laws -/

/-- What may be done to a list of multiples. -/
structure SumLaws (terms : List (Text × ℤ)) : Prop where
  /-- They may be added up one after another. -/
  plain : Agree (sumAtOnce terms) (plainSum terms)
  /-- Their order does not matter. -/
  perm : ∀ terms', terms'.Perm terms → Agree (sumAtOnce terms) (sumAtOnce terms')
  /-- The list may be split, and the sums of the parts are combined. -/
  split : ∀ front back, terms = front ++ back → Agree (sumAtOnce terms)
    (do combine (.text (← sumAtOnce front)) (.text (← sumAtOnce back)))
  /-- Two multiples of one element, wherever they stand, may be replaced by one. -/
  merge : ∀ front middle back a s t, terms = front ++ (a, s) :: (middle ++ (a, t) :: back) →
    Agree (sumAtOnce terms) (sumAtOnce (front ++ (a, s + t) :: (middle ++ back)))

theorem sumLaws_of_allValid {terms : List (Text × ℤ)} (h : AllValid terms) : SumLaws terms where
  plain := agree_of_eq (sumAtOnce_eq h) (plainSum_eq h) rfl
  perm terms' hperm :=
    agree_of_total_eq h (fun e he => h e (hperm.mem_iff.mp he)) (total_perm hperm).symm
  split front back hterms := by
    subst hterms
    have hfront : AllValid front := fun e he => h e (List.mem_append_left back he)
    have hback : AllValid back := fun e he => h e (List.mem_append_right front he)
    refine agree_of_eq (sumAtOnce_eq h) ?_ (total_append front back)
    refine (Except.bind_of_ok (sumAtOnce_eq hfront)).trans ?_
    refine (Except.bind_of_ok (sumAtOnce_eq hback)).trans ?_
    exact combine_eq (encodes_compress _) (encodes_compress _)
  merge front middle back a s t hterms := by
    subst hterms
    refine agree_of_total_eq h (fun e he => ?_) (total_merge front middle back a s t)
    have hvalid : isElement (.text a) = true := h (a, s) (by simp)
    simp only [List.mem_append, List.mem_cons] at he
    rcases he with he | rfl | he | he
    · exact h e (by simp [he])
    · exact hvalid
    · exact h e (by simp [he])
    · exact h e (by simp [he])

/-- **A sum computed at once is the plain sum**, for every list of valid elements and every list of
integers of the same length, and it does not depend on how the two lists are arranged.  Lists of
different length are a fault, whatever they hold. -/
theorem sumLaws_of_isElement {elements : List Text} {exponents : List ℤ}
    (hlength : elements.length = exponents.length)
    (hvalid : ∀ a ∈ elements, isElement (.text a) = true) :
    (multiScale (elements.map .text) (exponents.map .int) = sumAtOnce (elements.zip exponents)
        ∧ SumLaws (elements.zip exponents))
      ∧ ∀ vs ws : List Value, vs.length ≠ ws.length → multiScale vs ws = .error .unpaired := by
  refine ⟨⟨(sumAtOnce_zip hlength).symm, sumLaws_of_allValid fun e he => ?_⟩,
    fun vs ws => multiScale_unpaired⟩
  exact hvalid e.1 (List.of_mem_zip he).1

/-- The laws for the generator twice and the identity in the upper case. -/
theorem sumLaws_generator :
    (∀ a ∈ [generator, upperIdentity, generator], isElement (.text a) = true)
      ∧ ([generator, upperIdentity, generator].length = [(2 : ℤ), -1, groupOrder].length)
      ∧ Agree (multiScale [.text generator, .text upperIdentity, .text generator]
          [.int 2, .int (-1), .int groupOrder])
        (plainSum [(generator, 2), (upperIdentity, -1), (generator, groupOrder)])
      ∧ Agree (multiScale [.text generator, .text upperIdentity, .text generator]
          [.int 2, .int (-1), .int groupOrder])
        (multiScale [.text generator, .text upperIdentity]
          [.int (2 + groupOrder), .int (-1)]) := by
  have hvalid : ∀ a ∈ [generator, upperIdentity, generator], isElement (.text a) = true := by
    intro a ha
    simp only [List.mem_cons, List.not_mem_nil, or_false] at ha
    rcases ha with rfl | rfl | rfl
    · exact encodes_generator.isElement
    · exact encodes_upperIdentity.isElement
    · exact encodes_generator.isElement
  have hlength :
      [generator, upperIdentity, generator].length = [(2 : ℤ), -1, groupOrder].length := rfl
  obtain ⟨⟨-, hlaws⟩, -⟩ := sumLaws_of_isElement hlength hvalid
  exact ⟨hvalid, hlength, hlaws.plain,
    hlaws.merge [] [(upperIdentity, -1)] [] generator 2 groupOrder rfl⟩

/-- Outside of the subgroup the two computations are different: a partial sum may be a point that
has no form. -/
example :
    let P := ((Point.affine 0 2).add Point.generator).compress
    sumAtOnce [(P, 1), (generator, -1), (generator, 1)] = .ok P
      ∧ plainSum [(P, 1), (generator, -1), (generator, 1)]
        = .error (.element (.identityFlag true)) := by decide +kernel

end Element
end VerifiableEscrow
