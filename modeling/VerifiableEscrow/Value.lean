import VerifiableEscrow.Number
import VerifiableEscrow.Text

/-!
# Values of unknown kind

Most of what the scheme is handed has not been checked by anybody: a proof read from a
stranger's file, a token identifier that may be missing, a label of the wrong kind.  A
`Value` is such a thing before it has been looked at.  It is plain data (the kinds that the
carriers can hold), or a `record`: one of the scheme's own objects with its fields in the
order in which it is built, or a handle on a parcel that is still waiting to be opened.

The modules of the domain have types of their own.  Each comes with a view from `Value`, and
what a view does not accept is the caller's mistake and not a case of the domain.
-/

namespace VerifiableEscrow

/-- The kinds of object that the scheme builds. -/
inductive RecordKind where
  | issuerParameters
  | domainParameters
  | privateKey
  | publicKey
  | proof
  | ciphertext
  | token
  | committedAttribute
  | presentationProof
  | commitmentPrivateValues
  | randomnessBundle
  | fixedRandomness
  | systemRandomness
  | rawPrivateKey
  deriving DecidableEq

/-- Which parcel is meant: the one received with a number, or the one inside it. -/
structure ParcelHandle where
  number : Nat
  inner : Bool
  deriving DecidableEq

/-- A value of unknown kind. -/
inductive Value where
  | null
  | bool (b : Bool)
  | int (n : Int)
  /-- A double with a serial number, which tells apart those that stand for no number. -/
  | float (x : Binary64) (serial : Nat)
  | bytes (bs : Bytes)
  | text (t : Text)
  | list (items : List Value)
  | dict (entries : List (Value × Value))
  /-- A mark without a content, as the binary carrier has; number 23 says "undefined". -/
  | mark (number : Nat)
  | record (kind : RecordKind) (fields : List Value)
  | parcel (handle : ParcelHandle)

namespace RecordKind

/-- All kinds. -/
def all : List RecordKind :=
  [issuerParameters, domainParameters, privateKey, publicKey, proof, ciphertext, token,
    committedAttribute, presentationProof, commitmentPrivateValues, randomnessBundle,
    fixedRandomness, systemRandomness, rawPrivateKey]

/-- The name of a kind. -/
def name : RecordKind → String
  | issuerParameters => "IssuerParameters"
  | domainParameters => "DomainParameters"
  | privateKey => "PrivateKey"
  | publicKey => "PublicKey"
  | proof => "Proof"
  | ciphertext => "Ciphertext"
  | token => "Token"
  | committedAttribute => "CommittedAttribute"
  | presentationProof => "PresentationProof"
  | commitmentPrivateValues => "CommitmentPrivateValues"
  | randomnessBundle => "RandomnessBundle"
  | fixedRandomness => "FixedRandomness"
  | systemRandomness => "SystemRandomness"
  | rawPrivateKey => "RawPrivateKey"

/-- The kind of a name. -/
def ofName? (s : String) : Option RecordKind := all.find? fun k => k.name = s

/-- The names of the fields, in the order in which an object is built. -/
def fieldNames : RecordKind → List String
  | issuerParameters => ["uid_p", "g1", "hash_name", "g", "group_name"]
  | domainParameters => ["ip"]
  | privateKey => ["x"]
  | publicKey => ["h"]
  | proof => ["c", "r_xb", "r_r", "r_ob"]
  | ciphertext => ["e1", "e2", "proof", "label"]
  | token =>
      ["uid_p", "h", "ti", "pi", "sigma_z", "sigma_c", "sigma_r", "is_device_protected"]
  | committedAttribute => ["tilde_c"]
  | presentationProof => ["commitments"]
  | commitmentPrivateValues => ["tilde_o"]
  | randomnessBundle => ["r", "xb_prime", "r_prime", "ob_prime"]
  | fixedRandomness => ["bundle"]
  | systemRandomness => []
  | rawPrivateKey => ["x"]

/-- Whether the fields of an object are kept out of its description, as secrets are. -/
def isSecret : RecordKind → Bool
  | privateKey | randomnessBundle => true
  | _ => false

end RecordKind

namespace Value

/-- The name of the kind of a value. -/
def kindName : Value → String
  | null => "NoneType"
  | bool _ => "bool"
  | int _ => "int"
  | float _ _ => "float"
  | bytes _ => "bytes"
  | text _ => "str"
  | list _ => "list"
  | dict _ => "dict"
  | mark 23 => "undefined_type"
  | mark _ => "CBORSimpleValue"
  | record kind _ => kind.name
  | parcel _ => "WireObject"

/-- Whether a value is missing. -/
def isNull : Value → Bool
  | null => true
  | _ => false

/-- The integer that a value is in arithmetic; a truth value counts as one or zero. -/
def integer? : Value → Option Int
  | int n => some n
  | bool b => some (if b then 1 else 0)
  | _ => none

/-- The number that a value is. -/
def number? : Value → Option Number
  | float x _ => some (.double x)
  | v => v.integer?.map Number.int

/-- A double that is read from a carrier.  All of these share one serial number. -/
def readDouble (x : Binary64) : Value := float x 0

/-- A number as a value; a double takes the serial number. -/
def ofNumber (a : Number) (serial : Nat) : Value :=
  match a with
  | .int n => int n
  | .double x => float x serial

/-- Whether a value counts as absent where something is asked for: missing, false, zero or
empty. -/
def isEmpty : Value → Bool
  | null => true
  | bool b => !b
  | int n => n = 0
  | float x _ => x.isZero
  | bytes bs => bs.isEmpty
  | text t => t.isEmpty
  | list items => items.isEmpty
  | dict entries => entries.isEmpty
  | _ => false

/-- The items of a value that can be counted and gone through; of a mapping, its keys. -/
def items? : Value → Option (List Value)
  | list items => some items
  | dict entries => some (entries.map Prod.fst)
  | text t => some (t.map fun p => text [p])
  | bytes bs => some (bs.map fun b => int b.toNat)
  | _ => none

/-- The value under a key that is text; of equal keys the last counts. -/
def lookup? (entries : List (Value × Value)) (key : String) : Option Value :=
  entries.foldl (fun found entry =>
    match entry.1 with
    | text t => if t = Text.of key then some entry.2 else found
    | _ => found) none

end Value
end VerifiableEscrow
