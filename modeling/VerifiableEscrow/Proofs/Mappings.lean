import Mathlib.Data.List.Basic
import VerifiableEscrow.Value.Equality

/-!
# Mappings with strings for keys

The readers of both carriers put entries into a mapping one after another, and what is asked
of a mapping afterwards is the content under a name.  As long as the keys are different strings
the first is appending (`insert_ofEntries`), and the answer to the second does not depend on
the order (`lookup?_ofEntries`).

So what is known of a mapping is best said by `Holds`: it has some contents under their names,
whatever the order and whatever else there is (`holds_of_perm`).

Of a mapping with any keys, in which one may stand twice, `Under` says what it has under a name
without looking it up, and `lookup?_eq_some_iff` that this is what is found.
-/

namespace VerifiableEscrow
namespace Value

/-- A mapping with strings for keys. -/
def ofEntries (es : List (Text × Value)) : List (Value × Value) :=
  es.map fun e => (text e.1, e.2)

theorem ofEntries_cons (e : Text × Value) (es : List (Text × Value)) :
    ofEntries (e :: es) = (text e.1, e.2) :: ofEntries es := rfl

theorem length_ofEntries (es : List (Text × Value)) : (ofEntries es).length = es.length :=
  List.length_map _

/-- A key that is not there yet is put behind the others. -/
theorem insert_ofEntries {es : List (Text × Value)} {key : Text} (h : key ∉ es.map Prod.fst)
    (v : Value) : insert (ofEntries es) (text key) v = ofEntries (es ++ [(key, v)]) := by
  induction es with
  | nil => rfl
  | cons e es ih =>
    rw [List.map_cons, List.mem_cons, not_or] at h
    have hne : sameItem (text e.1) (text key) = false := by
      simp only [sameItem, decide_eq_false_iff_not]
      exact fun heq => h.1 heq.symm
    rw [List.cons_append, ofEntries_cons, ofEntries_cons, insert, hne, ih h.2]
    rfl

/-- A key is fresh behind others that it is different from. -/
theorem fresh_of_nodup {front es : List (Text × Value)} {key : Text} {v : Value}
    (h : ((front ++ (key, v) :: es).map Prod.fst).Nodup) : key ∉ front.map Prod.fst := by
  rw [List.map_append, List.map_cons, List.nodup_append] at h
  exact fun hmem => h.2.2 key hmem key List.mem_cons_self rfl

/-- One step of looking for a name, which remembers the last content found. -/
def lookupStep (key : String) (found : Option Value) (entry : Value × Value) : Option Value :=
  match entry.1 with
  | text t => if t = Text.of key then some entry.2 else found
  | _ => found

theorem lookupStep_text (key : String) (found : Option Value) (t : Text) (v : Value) :
    lookupStep key found (text t, v) = if t = Text.of key then some v else found := rfl

theorem foldl_lookupStep_of_not_mem {key : String} {es : List (Text × Value)}
    (h : Text.of key ∉ es.map Prod.fst) (found : Option Value) :
    (ofEntries es).foldl (lookupStep key) found = found := by
  induction es with
  | nil => rfl
  | cons e es ih =>
    rw [List.map_cons, List.mem_cons, not_or] at h
    rw [ofEntries_cons, List.foldl_cons, lookupStep_text, if_neg (Ne.symm h.1)]
    exact ih h.2

/-- **The content under a name** does not depend on where its entry stands. -/
theorem lookup?_ofEntries {es : List (Text × Value)} (hnodup : (es.map Prod.fst).Nodup)
    {key : String} {v : Value} (h : (Text.of key, v) ∈ es) :
    lookup? (ofEntries es) key = some v := by
  show (ofEntries es).foldl (lookupStep key) none = some v
  generalize (none : Option Value) = found
  induction es generalizing found with
  | nil => cases h
  | cons e es ih =>
    rw [List.map_cons, List.nodup_cons] at hnodup
    rw [ofEntries_cons, List.foldl_cons]
    rcases List.mem_cons.mp h with rfl | h
    · rw [foldl_lookupStep_of_not_mem hnodup.1, lookupStep_text, if_pos rfl]
    · exact ih hnodup.2 h _

/-! ## Contents under names -/

/-- Contents under names as entries of a mapping. -/
def named (fs : List (String × Value)) : List (Text × Value) :=
  fs.map fun f => (Text.of f.1, f.2)

theorem map_fst_named (fs : List (String × Value)) :
    (named fs).map Prod.fst = (fs.map Prod.fst).map Text.of := by
  rw [named, List.map_map, List.map_map]
  rfl

/-- A mapping that has some contents under their names. -/
def Holds (fs : List (String × Value)) (v : Value) : Prop :=
  ∃ entries, v = .dict entries ∧ ∀ f ∈ fs, lookup? entries f.1 = some f.2

theorem holds_of_perm {fs : List (String × Value)} {es : List (Text × Value)}
    (hnodup : ((fs.map Prod.fst).map Text.of).Nodup) (hperm : es.Perm (named fs)) :
    Holds fs (.dict (ofEntries es)) := by
  have hkeys : (es.map Prod.fst).Nodup := by
    rw [(hperm.map Prod.fst).nodup_iff, map_fst_named]
    exact hnodup
  refine ⟨ofEntries es, rfl, fun f hf => lookup?_ofEntries hkeys (hperm.mem_iff.mpr ?_)⟩
  exact List.mem_map.mpr ⟨f, hf, rfl⟩

/-! ## Entries of a mapping -/

/-- A mapping has a value under a name: it is the one of the last entry with this key. -/
def Under (entries : List (Value × Value)) (name : String) (v : Value) : Prop :=
  ∃ front back, entries = front ++ (.text (Text.of name), v) :: back
    ∧ ∀ e ∈ back, e.1 ≠ .text (Text.of name)

section Lookup

variable {entries front back : List (Value × Value)} {name : String} {v : Value}

theorem lookupStep_self (found : Option Value) (v : Value) :
    lookupStep name found (.text (Text.of name), v) = some v := by
  rw [lookupStep_text, if_pos rfl]

theorem lookupStep_of_ne {e : Value × Value} (h : e.1 ≠ .text (Text.of name))
    (found : Option Value) : lookupStep name found e = found := by
  obtain ⟨key, w⟩ := e
  cases key with
  | text t => rw [lookupStep_text, if_neg fun ht => h (congrArg Value.text ht)]
  | _ => rfl

/-- What is found among later entries counts. -/
theorem foldl_lookupStep (entries : List (Value × Value)) (name : String) (found : Option Value) :
    entries.foldl (lookupStep name) found = (lookup? entries name).or found := by
  induction entries generalizing found with
  | nil => rfl
  | cons e es ih =>
    show es.foldl (lookupStep name) (lookupStep name found e)
      = (es.foldl (lookupStep name) (lookupStep name none e)).or found
    rw [ih, ih (lookupStep name none e), Option.or_assoc]
    congr 1
    by_cases h : e.1 = .text (Text.of name)
    · obtain ⟨key, w⟩ := e
      obtain rfl : key = .text (Text.of name) := h
      rw [lookupStep_self, lookupStep_self, Option.some_or]
    · rw [lookupStep_of_ne h, lookupStep_of_ne h, Option.none_or]

theorem lookup?_append (front back : List (Value × Value)) (name : String) :
    lookup? (front ++ back) name = (lookup? back name).or (lookup? front name) := by
  show (front ++ back).foldl (lookupStep name) none = _
  rw [List.foldl_append, foldl_lookupStep]
  rfl

theorem lookup?_cons (e : Value × Value) (entries : List (Value × Value)) (name : String) :
    lookup? (e :: entries) name = (lookup? entries name).or (lookupStep name none e) :=
  lookup?_append [e] entries name

theorem lookup?_eq_none_iff :
    lookup? entries name = none ↔ ∀ e ∈ entries, e.1 ≠ .text (Text.of name) := by
  induction entries with
  | nil => exact ⟨fun _ e he => (nomatch he), fun _ => rfl⟩
  | cons e es ih =>
    rw [lookup?_cons, Option.or_eq_none_iff, ih, List.forall_mem_cons, and_comm]
    refine and_congr_left fun _ => ⟨?_, fun h => lookupStep_of_ne h none⟩
    rintro h he
    obtain ⟨key, w⟩ := e
    obtain rfl : key = .text (Text.of name) := he
    rw [lookupStep_self] at h
    cases h

/-- **What is found under a name** is what the last entry with the name has. -/
theorem lookup?_eq_some_iff : lookup? entries name = some v ↔ Under entries name v := by
  constructor
  · intro h
    induction entries with
    | nil => cases h
    | cons e es ih =>
      rw [lookup?_cons, Option.or_eq_some_iff] at h
      rcases h with h | ⟨hnone, h⟩
      · obtain ⟨front, back, rfl, hback⟩ := ih h
        exact ⟨e :: front, back, rfl, hback⟩
      · by_cases he : e.1 = .text (Text.of name)
        · obtain ⟨key, w⟩ := e
          obtain rfl : key = .text (Text.of name) := he
          rw [lookupStep_self] at h
          rw [Option.some.inj h]
          exact ⟨[], es, rfl, lookup?_eq_none_iff.mp hnone⟩
        · rw [lookupStep_of_ne he] at h
          cases h
  · rintro ⟨front, back, rfl, hback⟩
    rw [lookup?_append, lookup?_cons, lookup?_eq_none_iff.mpr hback, lookupStep_self]
    rfl

theorem Under.unique {w : Value} (h : Under entries name v) (h' : Under entries name w) : v = w :=
  Option.some.inj ((lookup?_eq_some_iff.mpr h).symm.trans (lookup?_eq_some_iff.mpr h'))

/-- Entries with other keys do not matter. -/
theorem lookup?_insert_of_ne {e : Value × Value} (h : e.1 ≠ .text (Text.of name))
    (front back : List (Value × Value)) :
    lookup? (front ++ e :: back) name = lookup? (front ++ back) name := by
  rw [lookup?_append, lookup?_append, lookup?_cons, lookupStep_of_ne h, Option.or_none]

/-- Neither does the order of entries with different keys. -/
theorem lookup?_swap {e e' : Value × Value} (h : e.1 ≠ e'.1) (front back : List (Value × Value))
    (name : String) :
    lookup? (front ++ e :: e' :: back) name = lookup? (front ++ e' :: e :: back) name := by
  by_cases he : e.1 = .text (Text.of name)
  · have he' : e'.1 ≠ .text (Text.of name) := fun he' => h (he.trans he'.symm)
    rw [lookup?_insert_of_ne he']
    have hmove := lookup?_insert_of_ne he' (front ++ [e]) back
    rwa [List.append_assoc, List.append_assoc] at hmove
  · rw [lookup?_insert_of_ne he]
    have hmove := lookup?_insert_of_ne he (front ++ [e']) back
    rw [List.append_assoc, List.append_assoc] at hmove
    exact hmove.symm

end Lookup
end Value
end VerifiableEscrow
