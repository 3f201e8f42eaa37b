import VerifiableEscrow.Value

/-!
# Equality of values

Two values that stand inside others are equal also when they are one and the same.  This
makes a difference for a double that stands for no number: on its own it is equal to nothing,
but a list that holds it is equal to itself.

A mapping has at most one entry for a key, and not every value can be one.
-/

namespace VerifiableEscrow
namespace Value

mutual

/-- Equality of values inside others.  Numbers are equal across their kinds, mappings whatever
the order of their entries; the parameters of a domain are equal where their issuers'
identifiers are. -/
def sameItem : Value → Value → Bool
  | null, null => true
  | float a m, float b n => (a = b && m = n) || a.same b
  | bool a, v => v.number?.any fun b => b.equalsInt (if a then 1 else 0)
  | int a, v => v.number?.any fun b => b.equalsInt a
  | float a _, v => v.number?.any fun b => (Number.double a).same b
  | bytes a, bytes b => a = b
  | text a, text b => a = b
  | list a, list b => sameItems a b
  | dict a, dict b => a.length = b.length && sameEntries a b
  | mark a, mark b => a = b
  | record .domainParameters [a], record .domainParameters [b] => sameIssuer a b
  | record j a, record k b => j = k && sameItems a b
  | parcel a, parcel b => a = b
  | _, _ => false

/-- Equality of lists of values, item by item. -/
def sameItems : List Value → List Value → Bool
  | [], [] => true
  | a :: as, b :: bs => sameItem a b && sameItems as bs
  | _, _ => false

/-- Whether each entry of a mapping is in another one. -/
def sameEntries : List (Value × Value) → List (Value × Value) → Bool
  | [], _ => true
  | (k, v) :: rest, entries =>
      (entries.any fun entry => sameItem k entry.1 && sameItem v entry.2)
        && sameEntries rest entries

/-- Whether two issuers have the same identifier. -/
def sameIssuer : Value → Value → Bool
  | record .issuerParameters (a :: _), record .issuerParameters (b :: _) => sameItem a b
  | _, _ => false

end

/-- Equality of values that stand on their own. -/
def same : Value → Value → Bool
  | float a _, float b _ => a.same b
  | a, b => sameItem a b

/-! ## Keys -/

/-- Whether the objects of a kind can be keys whatever their fields hold. -/
def isAlwaysKey : RecordKind → Bool
  | .domainParameters | .fixedRandomness | .systemRandomness => true
  | _ => false

mutual

/-- Whether a value can be the key of a mapping: nothing in it may be a list or a mapping, and
no object may have fields that anybody can replace. -/
def isKey : Value → Bool
  | list _ | dict _ => false
  | record .rawPrivateKey _ => false
  | record kind fields => isAlwaysKey kind || areKeys fields
  | _ => true

/-- Whether all of some values can be keys. -/
def areKeys : List Value → Bool
  | [] => true
  | v :: vs => isKey v && areKeys vs

end

/-- The entries of a mapping after one more has been put in.  A key that is there already
keeps its place and takes the new content. -/
def insert (entries : List (Value × Value)) (key content : Value) : List (Value × Value) :=
  match entries with
  | [] => [(key, content)]
  | entry :: rest =>
      if sameItem entry.1 key then (entry.1, content) :: rest
      else entry :: insert rest key content

end Value
end VerifiableEscrow
