/-!
# Text and bytes

Keys, challenges and elements travel as text, and the text comes from strangers.  A JSON
escape may name one half of a surrogate pair on its own, so text here is a list of *code
points* rather than a list of characters: every `Char` is one, and so is a lone half.

Bytes are lists as well.  Nothing in the scheme is longer than a few kilobytes, and a list
is what the codecs recurse over and what their laws are stated about.
-/

namespace VerifiableEscrow

/-- A code point: a character, or one half of a surrogate pair standing on its own. -/
inductive CodePoint where
  | char (c : Char)
  | half (s : Fin 0x800)
  deriving DecidableEq

namespace CodePoint

/-- The number of a code point. -/
def toNat : CodePoint → Nat
  | char c => c.toNat
  | half s => 0xD800 + s.val

/-- The code point of a number, where there is one. -/
def ofNat? (n : Nat) : Option CodePoint :=
  if n < 0xD800 then some (char (Char.ofNat n))
  else if h : n < 0xE000 then some (half ⟨n - 0xD800, by omega⟩)
  else if n < 0x110000 then some (char (Char.ofNat n))
  else none

end CodePoint

/-- Text: a list of code points. -/
abbrev Text := List CodePoint

/-- A string of bytes. -/
abbrev Bytes := List UInt8

namespace Text

/-- The text of a list of characters. -/
def ofChars (cs : List Char) : Text := cs.map CodePoint.char

/-- The text of a string. -/
def of (s : String) : Text := ofChars s.toList

@[simp] theorem ofChars_nil : ofChars [] = [] := rfl

@[simp] theorem ofChars_cons (c : Char) (cs : List Char) :
    ofChars (c :: cs) = .char c :: ofChars cs := rfl

@[simp] theorem ofChars_append (cs ds : List Char) :
    ofChars (cs ++ ds) = ofChars cs ++ ofChars ds := by
  simp [ofChars]

@[simp] theorem length_ofChars (cs : List Char) : (ofChars cs).length = cs.length := by
  simp [ofChars]

/-- The text whose code points have the numbers of some bytes. -/
def ofBytes (bs : Bytes) : Text := bs.map fun b => .char (Char.ofNat b.toNat)

/-- The digits of a number in a base, filled up with zeros in front to a width. -/
def digits (base width n : Nat) : List Char :=
  let shortest := Nat.toDigits base n
  List.replicate (width - shortest.length) '0' ++ shortest

/-- The decimal numeral of a natural number. -/
def ofNat (n : Nat) : Text := of (toString n)

/-- The decimal numeral of an integer, with a minus sign where it is negative. -/
def ofInt (n : Int) : Text := of (toString n)

/-- No text or list has more items than these. -/
def lengthLimit : Nat := 0x10000000000

/-- The blanks of ASCII: the space and the five characters from tab to carriage return. -/
def isAsciiBlank : CodePoint → Bool
  | .char c => c = ' ' || (9 ≤ c.toNat && c.toNat ≤ 13)
  | .half _ => false

/-- One line end for all: a carriage return, with the line feed after it if there is one,
reads as a line feed. -/
def unifyLineEnds : Text → Text
  | [] => []
  | [.char '\r'] => [.char '\n']
  | .char '\r' :: p :: rest =>
      if p = .char '\n' then .char '\n' :: unifyLineEnds rest
      else .char '\n' :: unifyLineEnds (p :: rest)
  | p :: rest => p :: unifyLineEnds rest

end Text

end VerifiableEscrow
