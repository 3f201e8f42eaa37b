import VerifiableEscrow.Fault
import VerifiableEscrow.Number.Binary64.Digits

/-!
# Templates

A template is a text in which *directives* stand for a number.  A directive is a percent sign,
options, and a letter that says how the number is written:

    % flags width .precision size letter

The flags are any of `-` (the field is filled up on the right), `+` and a space (the sign of
a number that is not negative), `#` (the alternate form) and `0` (zeros fill the field).  Width
and precision are digits, or a star that takes the number itself.  The size, one of `h`, `l`
and `L`, does not matter.  Two percent signs next to each other stand for one.

`fill` puts a natural number in place of the only directive.  It reads the template code point
by code point: a `Reader` is what has been read so far, and `Reader.step` takes one more, so
that of two faults the first one counts.
-/

namespace VerifiableEscrow
namespace Template

/-- What a template is made of.  The letters that may end a directive depend on it. -/
inductive Medium where
  | text
  | bytes
  deriving DecidableEq

/-- No field is filled up to more places than these. -/
def fieldLimit : Nat := 4096

/-- The largest width that can be asked for. -/
def widthLimit : Nat := 0x7FFFFFFFFFFFFFFF

/-- The largest precision that can be asked for. -/
def precisionLimit : Nat := 0x7FFFFFFF

/-- The largest precision of an integer, which leaves room for a sign and a mark. -/
def integerPrecisionLimit : Nat := precisionLimit - 3

/-- What stands between the percent sign and the letter. -/
structure Options where
  left : Bool
  plus : Bool
  blank : Bool
  alternate : Bool
  zeros : Bool
  width : Nat
  precision : Option Nat

namespace Options

/-- No options. -/
def plain : Options := ⟨false, false, false, false, false, 0, none⟩

/-- The options with the flag of a code point, if it is one. -/
def withFlag? (o : Options) : CodePoint → Option Options
  | .char '-' => some { o with left := true }
  | .char '+' => some { o with plus := true }
  | .char ' ' => some { o with blank := true }
  | .char '#' => some { o with alternate := true }
  | .char '0' => some { o with zeros := true }
  | _ => none

/-- Fills a field up to its width.  Zeros stand between what leads a number and the number. -/
def field (o : Options) (zeros : Bool) (lead body : Text) : Text :=
  let gap := min fieldLimit o.width - (lead.length + body.length)
  let filling (c : Char) : Text := List.replicate gap (.char c)
  if o.left then lead ++ body ++ filling ' '
  else if zeros then lead ++ filling '0' ++ body
  else filling ' ' ++ lead ++ body

/-- The field of a number: the sign of one that is not negative, a mark of the base, and its
digits. -/
def numberField (o : Options) (mark body : List Char) : Text :=
  let sign := if o.plus then ['+'] else if o.blank then [' '] else []
  o.field o.zeros (Text.ofChars (sign ++ mark)) (Text.ofChars body)

/-- The field of an integer in a base, whose digits the precision fills up with zeros. -/
def integerField (o : Options) (base : Nat) (mark : List Char) (n : Nat) : Except Fault Text :=
  let precision := o.precision.getD 0
  if integerPrecisionLimit < precision then .error .oversized
  else .ok (o.numberField (if o.alternate then mark else [])
    (Text.digits base (min fieldLimit precision) n))

/-- The field of a plain description, which the precision cuts off. -/
def plainField (o : Options) (n : Nat) : Text :=
  let body := Text.ofNat n
  o.field false [] (match o.precision with
    | some p => body.take p
    | none => body)

/-- The field of a number that is written as a double. -/
def doubleField (o : Options) (write : Bool → Nat → Binary64 → List Char) (n : Nat) :
    Except Fault Text :=
  match Binary64.ofInt? n with
  | some x => .ok (o.numberField [] (write o.alternate (min fieldLimit (o.precision.getD 6)) x))
  | none => .error .oversized

/-- The field of the code point of a number. -/
def codePointField (o : Options) (medium : Medium) (n : Nat) : Except Fault Text :=
  let found := match medium with
    | .text => CodePoint.ofNat? n
    | .bytes => if n < 256 then CodePoint.ofNat? n else none
  match found with
  | some p => .ok (o.field false [] [p])
  | none => .error .oversized

/-- Writes a number as a letter says, or fails as is given for an unknown letter. -/
def write (o : Options) (medium : Medium) (n : Nat) (letter : CodePoint)
    (unknown : Except Fault Text) : Except Fault Text :=
  let upper (t : Except Fault Text) : Except Fault Text := t.map fun t => t.map fun p =>
    match p with
    | .char c => .char c.toUpper
    | .half s => .half s
  match letter, medium with
  | .char 'd', _ | .char 'i', _ | .char 'u', _ => o.integerField 10 [] n
  | .char 'o', _ => o.integerField 8 ['0', 'o'] n
  | .char 'x', _ => o.integerField 16 ['0', 'x'] n
  | .char 'X', _ => upper (o.integerField 16 ['0', 'x'] n)
  | .char 'e', _ => o.doubleField Binary64.scientific n
  | .char 'E', _ => upper (o.doubleField Binary64.scientific n)
  | .char 'f', _ => o.doubleField Binary64.fixed n
  | .char 'F', _ => upper (o.doubleField Binary64.fixed n)
  | .char 'g', _ => o.doubleField Binary64.general n
  | .char 'G', _ => upper (o.doubleField Binary64.general n)
  | .char 'c', medium => o.codePointField medium n
  | .char 'r', _ | .char 'a', _ | .char 's', .text => .ok (o.plainField n)
  -- A number is no byte string.
  | .char 's', .bytes | .char 'b', .bytes => .error .wrongKind
  | _, _ => unknown

end Options

/-- Where in a directive a reader stands: which part it has read last. -/
inductive Stage where
  | outside
  | percent
  | flags
  | widthDigits
  | widthStar
  | point
  | precisionDigits
  | precisionStar
  | size
  deriving DecidableEq

/-- What has been read of a template: the stage, the options of the directive that is being
read, whether the number has been taken, and the pieces written, the last one first. -/
structure Reader where
  stage : Stage
  options : Options
  taken : Bool
  pieces : List Text

/-- The digit that a code point is. -/
def digit? : CodePoint → Option Nat
  | .char c => if '0' ≤ c ∧ c ≤ '9' then some (c.toNat - '0'.toNat) else none
  | .half _ => none

namespace Reader

/-- Nothing read yet. -/
def start : Reader := ⟨.outside, .plain, false, []⟩

/-- Takes the number, which is there once. -/
def take (r : Reader) : Except Fault Reader :=
  if r.taken then .error .wrongKind else .ok { r with taken := true }

/-- The fault of an unknown letter.  A byte beyond ASCII is out of the range of letters, unless
it stands behind a digit. -/
def unknownLetter (r : Reader) (medium : Medium) (p : CodePoint) : Fault :=
  if medium = .bytes ∧ 128 ≤ p.toNat ∧ r.stage ≠ .widthDigits ∧ r.stage ≠ .precisionDigits then
    .oversized
  else .notTemplate

/-- Ends a directive. -/
def atLetter (r : Reader) (medium : Medium) (n : Nat) (p : CodePoint) : Except Fault Reader := do
  let r ← r.take
  let piece ← r.options.write medium n p (.error (r.unknownLetter medium p))
  if Text.lengthLimit < r.options.width then throw .outOfMemory
  return { r with stage := .outside, pieces := piece :: r.pieces }

/-- Reads on behind the precision: the size or the letter. -/
def behindPrecision (r : Reader) (medium : Medium) (n : Nat) (p : CodePoint) :
    Except Fault Reader :=
  if p = .char 'h' ∨ p = .char 'l' ∨ p = .char 'L' then .ok { r with stage := .size }
  else r.atLetter medium n p

/-- Reads on behind the width: the point or what may follow the precision. -/
def behindWidth (r : Reader) (medium : Medium) (n : Nat) (p : CodePoint) : Except Fault Reader :=
  if p = .char '.' then
    .ok { r with stage := .point, options := { r.options with precision := some 0 } }
  else r.behindPrecision medium n p

/-- Reads on behind the percent sign or a flag. -/
def behindFlag (r : Reader) (medium : Medium) (n : Nat) (p : CodePoint) : Except Fault Reader := do
  match r.options.withFlag? p with
  | some o => return { r with stage := .flags, options := o }
  | none =>
    if p = .char '*' then
      let r ← r.take
      if widthLimit < n then throw .oversized
      return { r with stage := .widthStar, options := { r.options with width := n } }
    match digit? p with
    | some d => return { r with stage := .widthDigits, options := { r.options with width := d } }
    | none => r.behindWidth medium n p

/-- Reads on behind the point. -/
def behindPoint (r : Reader) (medium : Medium) (n : Nat) (p : CodePoint) :
    Except Fault Reader := do
  if p = .char '*' then
    let r ← r.take
    if precisionLimit < n then throw .oversized
    return { r with stage := .precisionStar, options := { r.options with precision := some n } }
  match digit? p with
  | some d =>
      return { r with stage := .precisionDigits, options := { r.options with precision := some d } }
  | none => r.behindPrecision medium n p

/-- One digit more of a numeral that has a limit. -/
def extend (numeral digit limit : Nat) : Except Fault Nat :=
  if limit < 10 * numeral + digit then .error .notTemplate else .ok (10 * numeral + digit)

/-- Reads one code point. -/
def step (medium : Medium) (n : Nat) (r : Reader) (p : CodePoint) : Except Fault Reader := do
  match r.stage with
  | .outside =>
      if p = .char '%' then return { r with stage := .percent, options := .plain }
      else return { r with pieces := [p] :: r.pieces }
  | .percent =>
      if p = .char '%' then return { r with stage := .outside, pieces := [p] :: r.pieces }
      -- A name in brackets asks for a mapping.
      if p = .char '(' then throw .wrongKind
      r.behindFlag medium n p
  | .flags => r.behindFlag medium n p
  | .widthDigits =>
      match digit? p with
      | some d =>
          let width ← extend r.options.width d widthLimit
          return { r with options := { r.options with width := width } }
      | none => r.behindWidth medium n p
  | .widthStar => r.behindWidth medium n p
  | .point => r.behindPoint medium n p
  | .precisionDigits =>
      match digit? p with
      | some d =>
          let precision ← extend (r.options.precision.getD 0) d precisionLimit
          return { r with options := { r.options with precision := some precision } }
      | none => r.behindPrecision medium n p
  | .precisionStar => r.behindPrecision medium n p
  | .size => r.atLetter medium n p

/-- Ends the template: no directive may be open, and the number has to have been taken. -/
def finish (r : Reader) : Except Fault Text :=
  if r.stage ≠ .outside then .error .notTemplate
  else if !r.taken then .error .wrongKind
  else .ok r.pieces.reverse.flatten

end Reader

/-- Puts a number in place of the directive of a template. -/
def fill (medium : Medium) (n : Nat) (t : Text) : Except Fault Text := do
  (← t.foldlM (Reader.step medium n) Reader.start).finish

end Template
end VerifiableEscrow
