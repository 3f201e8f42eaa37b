import VerifiableEscrow.Number.Binary64.Shortest
import VerifiableEscrow.Text.Printable
import VerifiableEscrow.Value

/-!
# Descriptions of values

Messages show values by a description: text between quotes, with escapes for what has no
shape of its own, lists and mappings between brackets, objects as their kind with their
fields.  Secret fields are not shown.
-/

namespace VerifiableEscrow
namespace Value

/-- How a number with a fraction is described. -/
def floatLayout : Binary64.Layout := ⟨-4, 16, "nan", "inf"⟩

/-- How a code point stands between the given quotes. -/
def escaped (quote : Char) (p : CodePoint) : Text :=
  let n := p.toNat
  if p = .char quote ∨ p = .char '\\' then [.char '\\', p]
  else if p = .char '\n' then Text.of "\\n"
  else if p = .char '\r' then Text.of "\\r"
  else if p = .char '\t' then Text.of "\\t"
  else if Printable.hasShape n then [p]
  else if n < 0x100 then Text.ofChars ('\\' :: 'x' :: Text.digits 16 2 n)
  else if n < 0x10000 then Text.ofChars ('\\' :: 'u' :: Text.digits 16 4 n)
  else Text.ofChars ('\\' :: 'U' :: Text.digits 16 8 n)

/-- The quotes around a text: single ones, unless only these occur in it. -/
def quoteFor (t : Text) : Char :=
  if t.contains (.char '\'') && !t.contains (.char '"') then '"' else '\''

/-- A text between quotes. -/
def quotedText (t : Text) : Text :=
  let quote := quoteFor t
  .char quote :: t.flatMap (escaped quote) ++ [.char quote]

/-- Bytes between quotes, behind the letter `b`. -/
def quotedBytes (bs : Bytes) : Text :=
  let t := Text.ofBytes bs
  let quote := quoteFor t
  let body := t.flatMap fun p =>
    if 127 ≤ p.toNat then Text.ofChars ('\\' :: 'x' :: Text.digits 16 2 p.toNat)
    else escaped quote p
  .char 'b' :: .char quote :: body ++ [.char quote]

/-- The description of the first base of an issuer. -/
def quotedBase : Value → Text
  | record .issuerParameters [_, _, _, text g, _] => quotedText g
  | _ => []

/-- Texts with a comma and a space between them. -/
def joined : List Text → Text
  | [] => []
  | [t] => t
  | t :: ts => t ++ Text.of ", " ++ joined ts

mutual

/-- The description of a value as it stands inside another one. -/
def quoted : Value → Text
  | null => Text.of "None"
  | bool b => Text.of (if b then "True" else "False")
  | int n => Text.ofInt n
  | float x _ => Text.of (x.shortest floatLayout)
  | bytes bs => quotedBytes bs
  | text t => quotedText t
  | list items => Text.of "[" ++ joined (quotedItems items) ++ Text.of "]"
  | dict entries => Text.of "\x7b" ++ joined (quotedEntries entries) ++ Text.of "\x7d"
  | mark 23 => Text.of "undefined"
  | mark n => Text.of "CBORSimpleValue(" ++ Text.ofNat n ++ Text.of ")"
  | record .domainParameters [issuer] =>
      Text.of "DomainParameters(ip=" ++ quoted issuer ++ Text.of ", ge=" ++ quotedBase issuer
        ++ Text.of ")"
  | record kind fields =>
      let shown := if kind.isSecret then [] else quotedFields kind.fieldNames fields
      Text.of kind.name ++ Text.of "(" ++ joined shown ++ Text.of ")"
  | parcel _ => Text.of "WireObject()"

/-- The descriptions of the items of a list. -/
def quotedItems : List Value → List Text
  | [] => []
  | v :: vs => quoted v :: quotedItems vs

/-- The descriptions of the entries of a mapping. -/
def quotedEntries : List (Value × Value) → List Text
  | [] => []
  | (k, v) :: rest => (quoted k ++ Text.of ": " ++ quoted v) :: quotedEntries rest

/-- The descriptions of the fields of an object, each behind its name. -/
def quotedFields : List String → List Value → List Text
  | name :: names, v :: vs =>
      (Text.of name ++ Text.of "=" ++ quoted v) :: quotedFields names vs
  | _, _ => []

end

/-- The description of a value on its own: text without quotes. -/
def shown : Value → Text
  | text t => t
  | v => quoted v

end Value
end VerifiableEscrow
