import VerifiableEscrow.Text.Hex
import VerifiableEscrow.Value.Equality

/-!
# Reading JSON

The grammar is the standard one with three additions: `NaN`, `Infinity` and `-Infinity` are
numbers, and an escape may name half of a surrogate pair.  Two such escapes in a row that
make a pair are one character.  Only space, tab, line feed and carriage return may stand
between the signs, and control characters may not stand in a string.

Each reader takes what it reads from the front of the text and answers with what is left.
Nesting is bounded by a fuel that the length of the text always covers.

Two limits that readers of JSON often have are left out: here lists and mappings may stand inside
one another to any depth, and an integer may have more than 4300 digits.
-/

namespace VerifiableEscrow
namespace Json

/-- The blanks between the signs. -/
def isBlank (p : CodePoint) : Bool :=
  p = .char ' ' || p = .char '\t' || p = .char '\n' || p = .char '\r'

/-- A text without the blanks at its front. -/
def skipBlanks (t : Text) : Text := t.dropWhile isBlank

/-- A text without the given characters at its front. -/
def expect? : List Char → Text → Option Text
  | [], t => some t
  | c :: cs, p :: t => if p = .char c then expect? cs t else none
  | _ :: _, [] => none

/-! ## Strings -/

/-- The number that four hexadecimal digits at the front spell. -/
def fourDigits? : Text → Option (Nat × Text)
  | a :: b :: c :: d :: rest => do
      let a ← Hex.value? a
      let b ← Hex.value? b
      let c ← Hex.value? c
      let d ← Hex.value? d
      some (((a * 16 + b) * 16 + c) * 16 + d, rest)
  | _ => none

/-- The character behind a backslash that stands for itself or for a control character. -/
def shortEscape? : Char → Option Char
  | '"' => some '"'
  | '\\' => some '\\'
  | '/' => some '/'
  | 'b' => some '\x08'
  | 'f' => some '\x0c'
  | 'n' => some '\n'
  | 'r' => some '\r'
  | 't' => some '\t'
  | _ => none

/-- The low half of a pair, where an escape at the front names one. -/
def lowHalf? : Text → Option (Nat × Text)
  | .char '\\' :: .char 'u' :: rest => do
      let (n, rest) ← fourDigits? rest
      if 0xDC00 ≤ n ∧ n < 0xE000 then some (n, rest) else none
  | _ => none

/-- The code point of an escape behind its `u`. -/
def longEscape? (t : Text) : Option (CodePoint × Text) := do
  let (n, rest) ← fourDigits? t
  let pair := if 0xD800 ≤ n ∧ n < 0xDC00 then lowHalf? rest else none
  match pair with
  | some (low, rest) =>
      let p ← CodePoint.ofNat? (0x10000 + (n - 0xD800) * 0x400 + (low - 0xDC00))
      some (p, rest)
  | none =>
      let p ← CodePoint.ofNat? n
      some (p, rest)

/-- Reads the rest of a string, the closing quote included. -/
def string? : Nat → Text → Option (Text × Text)
  | 0, _ => none
  | _ + 1, [] => none
  | fuel + 1, p :: t =>
      match p with
      | .char '"' => some ([], t)
      | .char '\\' =>
          match t with
          | .char 'u' :: t => do
              let (p, t) ← longEscape? t
              let (s, rest) ← string? fuel t
              some (p :: s, rest)
          | .char c :: t => do
              let c ← shortEscape? c
              let (s, rest) ← string? fuel t
              some (.char c :: s, rest)
          | _ => none
      | p =>
          if p.toNat < 0x20 then none
          else do
            let (s, rest) ← string? fuel t
            some (p :: s, rest)

/-! ## Numbers -/

/-- The value of a decimal digit. -/
def digit? : CodePoint → Option Nat
  | .char c => if '0' ≤ c ∧ c ≤ '9' then some (c.toNat - 48) else none
  | .half _ => none

/-- Whether a code point is a decimal digit. -/
def isDigit (p : CodePoint) : Bool := (digit? p).isSome

/-- The number that decimal digits spell. -/
def numberOf (t : Text) : Nat := t.foldl (fun n p => n * 10 + (digit? p).getD 0) 0

/-- The digits at the front of a text. -/
def digits (t : Text) : Text × Text := (t.takeWhile isDigit, t.dropWhile isDigit)

/-- The digits of an integer: a zero alone, or digits that begin with another one. -/
def integerDigits? : Text → Option (Text × Text)
  | .char '0' :: rest => some ([.char '0'], rest)
  | t =>
      let (ds, rest) := digits t
      if ds.isEmpty then none else some (ds, rest)

/-- The digits behind a point, none if no digit follows. -/
def fractionDigits : Text → Text × Text
  | .char '.' :: t =>
      let (ds, rest) := digits t
      if ds.isEmpty then ([], .char '.' :: t) else (ds, rest)
  | t => ([], t)

/-- The sign in front of the digits of an exponent: whether it is negative. -/
def exponentSign : Text → Bool × Text
  | .char '-' :: t => (true, t)
  | .char '+' :: t => (false, t)
  | t => (false, t)

/-- A power of ten, where a complete one stands at the front. -/
def power? (t : Text) : Option (Int × Text) :=
  match t with
  | .char c :: rest =>
      if c = 'e' ∨ c = 'E' then
        let (negative, rest) := exponentSign rest
        let (ds, rest) := digits rest
        if ds.isEmpty then none
        else
          let n : Int := numberOf ds
          some (if negative then -n else n, rest)
      else none
  | _ => none

/-- Reads a number behind its sign.  With a fraction or a power it is rounded to a double,
without one it stays an integer of any size. -/
def magnitude? (negative : Bool) (t : Text) : Option (Value × Text) := do
  let (whole, rest) ← integerDigits? t
  let (fraction, rest) := fractionDigits rest
  match power? rest with
  | some (e, rest) =>
      some (.readDouble (Binary64.ofDecimal negative (numberOf (whole ++ fraction))
        (e - fraction.length)), rest)
  | none =>
      if fraction.isEmpty then
        let n : Int := numberOf whole
        some (.int (if negative then -n else n), rest)
      else
        some (.readDouble (Binary64.ofDecimal negative (numberOf (whole ++ fraction))
          (-(fraction.length : Int))), rest)

/-- The double that is no number. -/
def notANumber : Binary64 := ⟨0x7FF8000000000000⟩

/-- Reads a number, also an infinite one, behind its sign. -/
def number? (negative : Bool) (t : Text) : Option (Value × Text) :=
  match expect? "Infinity".toList t with
  | some rest => some (.readDouble (Binary64.ofMagnitude negative Binary64.infinityBits), rest)
  | none => magnitude? negative t

/-! ## Values -/

/-- Reads a value that has no parts of its own. -/
def scalar? (t : Text) : Option (Value × Text) :=
  match t with
  | .char 'n' :: _ => (expect? "null".toList t).map fun rest => (.null, rest)
  | .char 't' :: _ => (expect? "true".toList t).map fun rest => (.bool true, rest)
  | .char 'f' :: _ => (expect? "false".toList t).map fun rest => (.bool false, rest)
  | .char 'N' :: _ => (expect? "NaN".toList t).map fun rest => (.readDouble notANumber, rest)
  | .char '-' :: rest => number? true rest
  | t => number? false t

mutual

/-- Reads a value, the blanks in front of it included. -/
def value? : Nat → Text → Option (Value × Text)
  | 0, _ => none
  | fuel + 1, t =>
      match skipBlanks t with
      | .char '"' :: t => do
          let (s, rest) ← string? (t.length + 1) t
          some (.text s, rest)
      | .char '[' :: t =>
          match skipBlanks t with
          | .char ']' :: rest => some (.list [], rest)
          | t => do
              let (vs, rest) ← items? fuel t
              some (.list vs, rest)
      | .char '\x7b' :: t =>
          match skipBlanks t with
          | .char '\x7d' :: rest => some (.dict [], rest)
          | t => do
              let (es, rest) ← entries? fuel [] t
              some (.dict es, rest)
      | t => scalar? t

/-- Reads the items of a list that is not empty, and its end. -/
def items? : Nat → Text → Option (List Value × Text)
  | 0, _ => none
  | fuel + 1, t => do
      let (v, rest) ← value? fuel t
      match skipBlanks rest with
      | .char ',' :: rest =>
          let (vs, rest) ← items? fuel rest
          some (v :: vs, rest)
      | .char ']' :: rest => some ([v], rest)
      | _ => none

/-- Reads the entries of a mapping that is not empty, and its end, behind those read before. -/
def entries? : Nat → List (Value × Value) → Text → Option (List (Value × Value) × Text)
  | 0, _, _ => none
  | fuel + 1, es, t =>
      match skipBlanks t with
      | .char '"' :: t => do
          let (key, rest) ← string? (t.length + 1) t
          match skipBlanks rest with
          | .char ':' :: rest =>
              let (v, rest) ← value? fuel rest
              let es := Value.insert es (.text key) v
              match skipBlanks rest with
              | .char ',' :: rest => entries? fuel es rest
              | .char '\x7d' :: rest => some (es, rest)
              | _ => none
          | _ => none
      | _ => none

end

/-- Reads a text that is one value with blanks around it. -/
def read? (t : Text) : Option Value := do
  let (v, rest) ← value? (2 * t.length + 2) t
  if (skipBlanks rest).isEmpty then some v else none

end Json
end VerifiableEscrow
