import VerifiableEscrow.Digest.Blake2b
import VerifiableEscrow.Digest.Sha256
import VerifiableEscrow.Digest.Sha512

/-!
# The hash functions an issuer may select

An issuer names one of four hash functions, and every transcript under that issuer goes
through it.
-/

namespace VerifiableEscrow

/-- A hash function that an issuer may select. -/
inductive HashFunction where
  | blake2b224
  | sha256
  | sha384
  | sha512
  deriving DecidableEq

namespace HashFunction

/-- All of them, in the order in which they are announced. -/
def all : List HashFunction := [blake2b224, sha256, sha384, sha512]

/-- The name that an issuer's parameters carry. -/
def name : HashFunction → String
  | blake2b224 => "blake2b_224"
  | sha256 => "sha256"
  | sha384 => "sha384"
  | sha512 => "sha512"

/-- The hash function of a name. -/
def ofName? (t : Text) : Option HashFunction := all.find? fun f => Text.of f.name = t

/-- How many bytes a digest has. -/
def width : HashFunction → Nat
  | blake2b224 => 28
  | sha256 => 32
  | sha384 => 48
  | sha512 => 64

/-- The digest of a message. -/
def digest : HashFunction → Bytes → Bytes
  | blake2b224 => Blake2b.digest
  | sha256 => Sha256.digest
  | sha384 => Sha512.digest384
  | sha512 => Sha512.digest512

@[simp] theorem length_digest (f : HashFunction) (message : Bytes) :
    (f.digest message).length = f.width := by
  cases f <;> simp [digest, width]

end HashFunction
end VerifiableEscrow
