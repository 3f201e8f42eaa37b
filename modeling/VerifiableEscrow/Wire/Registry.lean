import VerifiableEscrow.Wire.Opening

/-!
# Parcels that are waiting

A parcel changes when it is opened, so two uses of one parcel have to mean the same thing.
The registry keeps all parcels received, and a handle says which one is meant: a parcel by
its number, or the one inside it.  Parcels are only added and opened, never removed, and
opening one leaves all others alone (`find?_openWith_of_ne`).
-/

namespace VerifiableEscrow
namespace Wire

/-- The parcels received so far. -/
structure Registry where
  parcels : List Parcel

namespace Registry

/-- No parcels yet. -/
def empty : Registry := ⟨[]⟩

/-- Adds a parcel and gives it a handle. -/
def add (r : Registry) (p : Parcel) : Registry × ParcelHandle :=
  (⟨r.parcels ++ [p]⟩, ⟨r.parcels.length, false⟩)

/-- The parcel that a handle means. -/
def find? (r : Registry) (handle : ParcelHandle) : Option Parcel := do
  let p ← r.parcels[handle.number]?
  if handle.inner then p.inner? else some p

/-- Tries to open the parcel that a handle means. -/
def openWith (r : Registry) (handle : ParcelHandle) (issuer : Value) : Attempt Registry Value :=
  match r.parcels[handle.number]? with
  | none => ⟨r, [], .error .wrongKind⟩
  | some p =>
      let attempt := if handle.inner then p.openInner issuer else p.openWith issuer
      ⟨⟨r.parcels.set handle.number attempt.left⟩, attempt.events, attempt.outcome⟩

theorem find?_openWith_of_ne (r : Registry) {handle other : ParcelHandle}
    (h : handle.number ≠ other.number) (issuer : Value) :
    (r.openWith handle issuer).left.find? other = r.find? other := by
  unfold openWith
  split
  · rfl
  · simp [find?, h]

/-- What the parcel of a handle answers when it is asked for one of its parts. -/
def lookUp (r : Registry) (handle : ParcelHandle) (name : String) : Option Value := do
  let p ← r.find? handle
  match name with
  | "fields" => some (.dict (p.fields.map fun f => field f.1 f.2))
  | "nested" =>
      some (.dict (if p.inner?.isSome then
        [(.text (Text.of "ieproof"), .parcel ⟨handle.number, true⟩)] else []))
  | "label" => some (Ciphertext.labelValue p.label)
  | "finished" => some (.bool p.opened)
  | _ => none

end Registry
end Wire
end VerifiableEscrow
