import VerifiableEscrow.Number.Binary64.Arithmetic

/-!
# Numbers

A number arrives as an integer of any size or as a double.  Integers are computed with
exactly.  Where the two kinds meet, the integer is rounded to a double first, and there is no
result when it lies beyond all of them.
-/

namespace VerifiableEscrow

/-- A number: an integer of any size, or a double. -/
inductive Number where
  | int (n : Int)
  | double (x : Binary64)
  deriving DecidableEq

namespace Number

/-- The double nearest to a number. -/
def toDouble? : Number → Option Binary64
  | int n => Binary64.ofInt? n
  | double x => some x

/-- An operation on two numbers, which is exact where both are integers. -/
def combine? (exact : Int → Int → Int) (rounded : Binary64 → Binary64 → Binary64)
    (a b : Number) : Option Number :=
  match a, b with
  | int m, int n => some (int (exact m n))
  | a, b => do return double (rounded (← a.toDouble?) (← b.toDouble?))

/-- The difference of two numbers. -/
def minus? (a b : Number) : Option Number := combine? (· - ·) Binary64.minus a b

/-- The product of two numbers. -/
def times? (a b : Number) : Option Number := combine? (· * ·) Binary64.times a b

/-- The remainder by a natural number that is not zero, which has the kind of the number. -/
def remainder (a : Number) (n : Nat) : Number :=
  match a with
  | int m => int (m % n)
  | double x => double (x.remainder n)

/-- Whether a number is an integer. -/
def equalsInt (a : Number) (n : Int) : Bool :=
  match a with
  | int m => m = n
  | double x => x.equalsInt n

/-- Whether a number lies below an integer. -/
def belowInt (a : Number) (n : Int) : Bool :=
  match a with
  | int m => m < n
  | double x => x.belowInt n

/-- Whether a number lies above an integer. -/
def aboveInt (a : Number) (n : Int) : Bool :=
  match a with
  | int m => n < m
  | double x => x.aboveInt n

/-- Equality of numbers, whatever their kinds. -/
def same : Number → Number → Bool
  | int m, b => b.equalsInt m
  | a, int n => a.equalsInt n
  | double x, double y => x.same y

@[simp] theorem minus?_int (m n : Int) : minus? (int m) (int n) = some (int (m - n)) := rfl

@[simp] theorem times?_int (m n : Int) : times? (int m) (int n) = some (int (m * n)) := rfl

end Number
end VerifiableEscrow
