import VerifiableEscrow.Fault
import VerifiableEscrow.Value

/-!
# Places for arguments

An operation is handed something in each of its places: an object of the kind that belongs
there, nothing, or an object of a foreign kind.  Operations look for missing arguments first
and all together; a foreign one is noticed where it is first used, which may be after other
arguments have been refused.
-/

namespace VerifiableEscrow

/-- What stands in the place of an argument. -/
inductive Slot (α : Type) where
  | missing
  | foreign
  | given (a : α)

namespace Slot

variable {α : Type}

/-- Whether nothing stands in a place. -/
def isMissing : Slot α → Bool
  | missing => true
  | _ => false

/-- The argument, at its first use. -/
def get : Slot α → Except Fault α
  | given a => .ok a
  | _ => .error .wrongKind

/-- What a value is in a place whose kind has this view. -/
def ofValue (view : Value → Option α) (v : Value) : Slot α :=
  if v.isNull then missing
  else match view v with
    | some a => given a
    | none => foreign

@[simp] theorem isMissing_given (a : α) : (given a).isMissing = false := rfl

@[simp] theorem get_given (a : α) : (given a).get = .ok a := rfl

end Slot
end VerifiableEscrow
