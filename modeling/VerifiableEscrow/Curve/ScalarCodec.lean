import VerifiableEscrow.Curve.Scalar
import VerifiableEscrow.Fault
import VerifiableEscrow.Number.BigEndian
import VerifiableEscrow.Text.Hex
import VerifiableEscrow.Text.Numeral
import VerifiableEscrow.Value

/-!
# Integers as digits

Exponents leave the scheme as big-endian bytes without a leading zero byte, except that zero
gets one byte so that no encoding is empty.  Digests come in as hexadecimal numerals and are
reduced modulo the group order.

`toNat_scalarBytes` says that the bytes read back, `scalarBytes_ne_nil` that there are some.
-/

namespace VerifiableEscrow

/-- The bytes of a natural number, one at least. -/
def scalarBytes (n : Nat) : Bytes := if n = 0 then [0] else BigEndian.minimal n

theorem toNat_scalarBytes (n : Nat) : BigEndian.toNat (scalarBytes n) = n := by
  unfold scalarBytes
  split
  · next h => subst h; rfl
  · exact BigEndian.toNat_minimal n

theorem scalarBytes_ne_nil (n : Nat) : scalarBytes n ≠ [] := by
  unfold scalarBytes
  split
  · simp
  · next h =>
    intro he
    have := congrArg BigEndian.toNat he
    rw [BigEndian.toNat_minimal] at this
    exact h this

/-- The bytes of a value that is a natural number.  Zero may come as any number. -/
def integerBytes (v : Value) : Except Fault Bytes :=
  match v with
  | .float x _ => if x.isZero then .ok [0] else .error .wrongKind
  | v =>
      match v.integer? with
      | some (.ofNat n) => .ok (scalarBytes n)
      | some (.negSucc _) => .error .negative
      | none => .error .wrongKind

/-- The digits of a value that is a natural number. -/
def integerDigits (v : Value) : Except Fault Text := do
  return Hex.encode (← integerBytes v)

/-- The exponent that a numeral in hexadecimal digits stands for. -/
def scalarOfNumeral (t : Text) : Except Fault Scalar :=
  match Numeral.hexadecimal? t with
  | some n => .ok (Scalar.ofInt n)
  | none => .error (.notNumeral (t := t))

/-- The exponent that a value's digits stand for; bytes are read as the ASCII text they
spell. -/
def scalarOfDigits : Value → Except Fault Scalar
  | .text t => scalarOfNumeral t
  | .bytes bs =>
      if bs.all (· < 128) then scalarOfNumeral (Text.ofBytes bs)
      else .error (.notNumeral (t := Text.ofBytes bs))
  | _ => .error .wrongKind

end VerifiableEscrow
