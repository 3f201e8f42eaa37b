import VerifiableEscrow.Fault
import VerifiableEscrow.Value

/-!
# Arithmetic on values

A value that is a number can be computed with.  Any other is of the wrong kind, but a sequence
times an integer asks for repetitions first: these are no number either, and there may be more
of them than can be counted or kept.
-/

namespace VerifiableEscrow
namespace Value

/-- The number that a value has to be. -/
def number (v : Value) : Except Fault Number :=
  match v.number? with
  | some a => .ok a
  | none => .error .wrongKind

/-- The value of the other sign. -/
def negated : Value → Except Fault Value
  | float x serial => .ok (float x.negated serial)
  | v =>
      match v.integer? with
      | some n => .ok (int (-n))
      | none => .error .wrongKind

/-- The result of an operation, which an integer may be too large for. -/
def result : Option Number → Except Fault Number
  | some a => .ok a
  | none => .error .oversized

/-- Lengths are counted to below this number. -/
def countLimit : Nat := 0x8000000000000000

/-- Why so many repetitions of a sequence are no number.  A list is the only sequence whose
length is not counted before it is laid out. -/
def repetitionFault (v : Value) (n : Int) : Fault :=
  let ofLength (length : Nat) (beyond : Fault) : Fault :=
    let total := length * n.toNat
    if n < -(countLimit : Int) ∨ (countLimit : Int) ≤ n then .oversized
    else if countLimit ≤ total then beyond
    else if Text.lengthLimit < total then .outOfMemory
    else .wrongKind
  match v with
  | text t => ofLength t.length .oversized
  | bytes bs => ofLength bs.length .oversized
  | list items => ofLength items.length .outOfMemory
  | _ => .wrongKind

/-- The product of two values. -/
def times (a b : Value) : Except Fault Number :=
  match a.number?, b.number? with
  | some m, some n => result (m.times? n)
  | some (.int m), none => .error (repetitionFault b m)
  | none, some (.int n) => .error (repetitionFault a n)
  | _, _ => .error .wrongKind

/-- The difference of a value and a number. -/
def minus (a : Value) (b : Number) : Except Fault Number := do result ((← number a).minus? b)

end Value
end VerifiableEscrow
