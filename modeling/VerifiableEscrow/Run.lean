import VerifiableEscrow.Fault
import VerifiableEscrow.Text.Hex

/-!
# Operations with effects

Besides answering, an operation may take random numbers and report what it did.  The numbers
come from one stream for all operations, and the only thing that moves is the position in
it; what is reported is a list of events.  Both survive a failure: an operation that draws
and then fails has used up what it drew.

`Run.outcome` is the view of an operation, and `outcome_bind` with its companions says what
each way of building one does to it.
-/

namespace VerifiableEscrow

/-- Why a proof is rejected. -/
inductive Rejection where
  | groupElement
  | fieldElement
  | challenge
  deriving DecidableEq

/-- What operations report. -/
inductive Event where
  | fixedSource
  | encrypted (tokenId : Bytes)
  | rejected (why : Rejection)
  /-- A parcel has been opened for an issuer, which is known by the digits of its identifier. -/
  | opened (form : String) (issuer : Text)
  deriving DecidableEq

namespace Event

/-- How urgent an event is. -/
def level : Event → String
  | fixedSource => "WARNING"
  | _ => "DEBUG"

/-- The part of the scheme that reports an event. -/
def area : Event → String
  | fixedSource => "randomness"
  | encrypted _ | rejected _ => "escrow"
  | opened _ _ => "wire"

/-- The wording of an event. -/
def message : Event → Text
  | fixedSource =>
      Text.of "Fixed escrow randomness in use; proofs are not zero-knowledge"
  | encrypted tokenId =>
      Text.of "Escrow ciphertext created for token " ++ Hex.encode tokenId
  | rejected .groupElement => Text.of "Escrow proof rejected: invalid group element"
  | rejected .fieldElement => Text.of "Escrow proof rejected: invalid field element"
  | rejected .challenge => Text.of "Escrow proof rejected: challenge mismatch"
  | opened form issuer => Text.of ("Finished " ++ form ++ " for issuer ") ++ issuer

end Event

/-- The stream of random numbers, each below the group order less one. -/
abbrev Draws := Nat → Nat

/-- What operations have done so far: how many numbers of the stream are used up, what was
reported, and how many serial numbers have been given out. -/
structure Trace where
  drawn : Nat
  events : List Event
  serials : Nat

namespace Trace

/-- Nothing done yet. -/
def start : Trace := ⟨0, [], 0⟩

end Trace

/-- An operation with effects. -/
abbrev Run := ReaderT Draws (ExceptT Fault (StateM Trace))

namespace Run

/-- Reports an event. -/
def report (e : Event) : Run Unit :=
  modify fun trace => { trace with events := trace.events ++ [e] }

/-- The next random exponent, which is never zero: the next number of the stream, plus one. -/
def draw : Run Nat := do
  let draws ← read
  let trace ← get
  set { trace with drawn := trace.drawn + 1 }
  return draws trace.drawn + 1

/-- A serial number that has not been given out before, and not the one of what is read. -/
def newSerial : Run Nat := do
  let trace ← get
  set { trace with serials := trace.serials + 1 }
  return trace.serials + 1

/-- The outcome of an operation and what has been done after it. -/
def outcome {α : Type} (operation : Run α) (draws : Draws) (trace : Trace) :
    Except Fault α × Trace :=
  (operation.run draws).run.run trace

/-! ## What operations do

An operation made of parts does what its parts do, one after another, up to the first that
fails; whatever they have drawn and reported by then stays.
-/

section Outcome

variable {α β : Type} (draws : Draws) (trace : Trace)

@[simp] theorem outcome_pure (a : α) : outcome (pure a) draws trace = (.ok a, trace) := rfl

@[simp] theorem outcome_throw (fault : Fault) :
    outcome (throw fault : Run α) draws trace = (.error fault, trace) := rfl

@[simp] theorem outcome_liftM (result : Except Fault α) :
    outcome (liftM result) draws trace = (result, trace) := by
  cases result <;> rfl

@[simp] theorem outcome_report (event : Event) :
    outcome (report event) draws trace
      = (.ok (), { trace with events := trace.events ++ [event] }) := rfl

@[simp] theorem outcome_draw :
    outcome draw draws trace
      = (.ok (draws trace.drawn + 1), { trace with drawn := trace.drawn + 1 }) := rfl

theorem outcome_bind (operation : Run α) (next : α → Run β) :
    outcome (operation >>= next) draws trace
      = match outcome operation draws trace with
        | (.ok a, after) => outcome (next a) draws after
        | (.error fault, after) => (.error fault, after) := by
  show (StateT.run (ExceptT.run (ReaderT.run (operation >>= next) draws)) trace) = _
  simp only [outcome, ReaderT.run_bind, ExceptT.run_bind, StateT.run_bind]
  cases h : (operation.run draws).run.run trace with
  | mk result after => cases result <;> rfl

end Outcome

end Run
end VerifiableEscrow
