import Interchain.Text.Decimal

/-! # Ordered fields

The members of an object as a list of keys with their values. Keys that spell an array index come
first, in ascending order, and all other keys follow in the order in which they were set. Setting
a key again keeps its place.
-/

namespace Interchain

abbrev Fields (α : Type) := List (Text × α)

namespace Fields

/-- The largest number that a key can spell as an array index. -/
def maxIndex : Nat := 1 <<< 32 - 2

/-- The array index that a key spells in canonical decimal. -/
def index? (key : Text) : Option Nat := key.canonicalNat?.filter (· ≤ maxIndex)

/-- Whether a new key goes in front of a key that is already there. -/
def precedes (new old : Text) : Bool :=
  match index? new, index? old with
  | some i, some j => i < j
  | some _, none => true
  | none, _ => false

def set {α : Type} (key : Text) (value : α) : Fields α → Fields α
  | [] => [(key, value)]
  | (k, v) :: rest =>
    if k = key then (key, value) :: rest
    else if precedes key k then (key, value) :: (k, v) :: rest
    else (k, v) :: set key value rest

/-- The fields after setting each pair in turn. -/
def ofPairs {α : Type} (pairs : List (Text × α)) : Fields α :=
  pairs.foldl (fun fields pair => set pair.1 pair.2 fields) []

def get? {α : Type} (key : Text) (fields : Fields α) : Option α := fields.lookup key

def has {α : Type} (key : Text) (fields : Fields α) : Bool := (get? key fields).isSome

end Fields

end Interchain
