import VerifiableEscrow.Wire.Form

/-!
# Parcels

A parcel is a wire form that is complete but not yet bound to an issuer: its fields are text
and nothing is known of the group they belong to.  Packing a value into a parcel is the first
phase of reading and needs no issuer; only the label of a ciphertext is decoded.

Keys that are no fields of the form do not matter.  A field that is `null` is missing.
-/

namespace VerifiableEscrow
namespace Wire

/-- The fields of a proof on the wire. -/
structure ProofFields where
  c : Text
  rXb : Text
  rR : Text
  rOb : Text
  deriving DecidableEq

/-- The fields of a wire form. -/
inductive Contents where
  | domainParameters (uidp ge : Text)
  | publicKey (h : Text)
  | privateKey (x : Text)
  | proof (fields : ProofFields)
  /-- A ciphertext's fields, its label, the proof in it, and whether that was opened. -/
  | ciphertext (e1 e2 info : Text) (label : Option Bytes) (inner : ProofFields)
      (innerOpened : Bool)
  deriving DecidableEq

/-- A complete wire form, and whether it was opened. -/
structure Parcel where
  contents : Contents
  opened : Bool
  deriving DecidableEq

namespace ProofFields

/-- The fields under their names, in order. -/
def named (p : ProofFields) : List (String × Text) :=
  [("c", p.c), ("rXb", p.rXb), ("rR", p.rR), ("rOb", p.rOb)]

end ProofFields

namespace Parcel

/-- The form of a parcel. -/
def form (p : Parcel) : Form :=
  match p.contents with
  | .domainParameters _ _ => .domainParameters
  | .publicKey _ => .publicKey
  | .privateKey _ => .privateKey
  | .proof _ => .proof
  | .ciphertext _ _ _ _ _ _ => .ciphertext

/-- The text fields of a parcel under their names, in order. -/
def fields (p : Parcel) : List (String × Text) :=
  match p.contents with
  | .domainParameters uidp ge => [("uidp", uidp), ("ge", ge)]
  | .publicKey h => [("H", h)]
  | .privateKey x => [("x", x)]
  | .proof fields => fields.named
  | .ciphertext e1 e2 info _ _ _ => [("E1", e1), ("E2", e2), ("info", info)]

/-- The parcel inside a parcel. -/
def inner? (p : Parcel) : Option Parcel :=
  match p.contents with
  | .ciphertext _ _ _ _ inner innerOpened => some ⟨.proof inner, innerOpened⟩
  | _ => none

/-- The label of a parcel. -/
def label (p : Parcel) : Option Bytes :=
  match p.contents with
  | .ciphertext _ _ _ label _ _ => label
  | _ => none

/-- The text fields and the parcel inside make up the fields of the form. -/
theorem names_fields (p : Parcel) :
    p.fields.map Prod.fst ++ (if p.inner?.isSome then ["ieproof"] else []) = p.form.fieldNames := by
  obtain ⟨contents, opened⟩ := p
  cases contents <;> rfl

end Parcel

/-! ## Packing -/

/-- The entries of a value that is a mapping. -/
def entriesOf (form : Form) : Value → Except Fault (List (Value × Value))
  | .dict entries => .ok entries
  | _ => .error (.wire (.notMapping form.name))

/-- The content of a field, which may not be missing. -/
def required (form : Form) (entries : List (Value × Value)) (name : String) :
    Except Fault Value :=
  match Value.lookup? entries name with
  | none => .error (.wire (.missingField form.name name))
  | some .null => .error (.wire (.missingField form.name name))
  | some v => .ok v

/-- The content of a field, which has to be text. -/
def requiredText (form : Form) (entries : List (Value × Value)) (name : String) :
    Except Fault Text := do
  match ← required form entries name with
  | .text t => return t
  | _ => throw (.wire (.notText form.name name))

/-- The bytes of Base64 text in a field. -/
def fieldBytes (t : Text) (name : String) : Except Fault Bytes :=
  match Base64.decode? t with
  | some bs => .ok bs
  | none => .error (.wire (.notBase64 name))

/-- Packs the fields of a proof. -/
def packProof (v : Value) : Except Fault ProofFields := do
  let entries ← entriesOf .proof v
  let c ← requiredText .proof entries "c"
  let rXb ← requiredText .proof entries "rXb"
  let rR ← requiredText .proof entries "rR"
  let rOb ← requiredText .proof entries "rOb"
  return ⟨c, rXb, rR, rOb⟩

/-- The label that stands in the text of its field. -/
def labelOf (info : Text) : Except Fault (Option Bytes) :=
  if info = noLabel then .ok none else (fieldBytes info "info").map some

/-- Packs the fields of a form. -/
def packContents (form : Form) (v : Value) : Except Fault Contents := do
  match form with
  | .domainParameters =>
      let entries ← entriesOf form v
      let uidp ← requiredText form entries "uidp"
      let ge ← requiredText form entries "ge"
      return .domainParameters uidp ge
  | .publicKey =>
      let entries ← entriesOf form v
      return .publicKey (← requiredText form entries "H")
  | .privateKey =>
      let entries ← entriesOf form v
      return .privateKey (← requiredText form entries "x")
  | .proof => return .proof (← packProof v)
  | .ciphertext =>
      let entries ← entriesOf form v
      let e1 ← requiredText form entries "E1"
      let e2 ← requiredText form entries "E2"
      let info ← requiredText form entries "info"
      let inner ← packProof (← required form entries "ieproof")
      return .ciphertext e1 e2 info (← labelOf info) inner false

/-- What a caller asks for: the name of a kind, or nothing. -/
abbrev Target := Option Text

/-- How a target is named in a message. -/
def Target.shown (target : Target) : Text := target.getD (Text.of "None")

/-- Packs a value as the kind of a name, which must have a wire form. -/
def pack (target : Target) (v : Value) : Except Fault Parcel :=
  match target.bind Form.ofName? with
  | none => .error (.wire (.noEncoding target.shown))
  | some form => do return ⟨← packContents form v, false⟩

end Wire
end VerifiableEscrow
