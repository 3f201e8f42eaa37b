import VerifiableEscrow.Cbor.Reader
import VerifiableEscrow.Cbor.Writer
import VerifiableEscrow.Json.Reader
import VerifiableEscrow.Json.Writer
import VerifiableEscrow.Text.Encoding
import VerifiableEscrow.Wire.Opening

/-!
# Carriers

Wire forms travel as JSON text or as canonical CBOR.  What cannot be read as the carrier's
grammar is a fault of the carrier, named after the kind that was asked for; a carrier of the
wrong kind altogether is the caller's mistake.
-/

namespace VerifiableEscrow
namespace Wire

/-- The JSON text of a value's wire form. -/
def toJson (v : Value) : Except Fault Text := do
  match Json.write? .line (← ofValue v) with
  | some t => return t
  | none => throw .wrongKind

/-- The canonical CBOR of a value's wire form. -/
def toCbor (v : Value) : Except Fault Bytes := do
  match Cbor.write? (← ofValue v) with
  | some bs => return bs
  | none => throw .wrongKind

/-- The fault of a text or byte string that its carrier's grammar does not admit.  Without a
kind there is nothing to name it after. -/
def carrierFault (fault : Text → WireFault) : Target → Fault
  | some kind => .wire (fault kind)
  | none => .wrongKind

/-- Reads a value as JSON text; bytes are decoded first, in the encoding that they tell. -/
def readJson (target : Target) : Value → Except Fault Value
  | .text t => read t
  | .bytes bs =>
      match Encoding.decodeDetected? bs with
      | some t => read t
      | none => .error .notUtf8
  | _ => .error .wrongKind
where
  /-- Reads a text as JSON. -/
  read (t : Text) : Except Fault Value :=
    match Json.read? t with
    | some v => .ok v
    | none => .error (carrierFault .notJson target)

/-- Reads a value as CBOR. -/
def readCbor (target : Target) : Value → Except Fault Value
  | .bytes bs =>
      match Cbor.read? bs with
      | some v => .ok v
      | none => .error (carrierFault .notCbor target)
  | _ => .error .wrongKind

/-- The parcel in JSON text. -/
def packJson (target : Target) (v : Value) : Except Fault Parcel := do
  pack target (← readJson target v)

/-- The parcel in CBOR. -/
def packCbor (target : Target) (v : Value) : Except Fault Parcel := do
  pack target (← readCbor target v)

/-- The result of an attempt as an operation: what it reports, and its outcome. -/
def Attempt.run {σ α : Type} (attempt : Attempt σ α) : Run α := do
  attempt.events.forM Run.report
  attempt.outcome

/-- Reads JSON text and opens it at once. -/
def readAndOpen (issuer : Value) (target : Target) (v : Value) : Run Value := do
  let parcel ← packJson target v
  (parcel.openWith issuer).run

end Wire
end VerifiableEscrow
