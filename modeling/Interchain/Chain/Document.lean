import Interchain.Chain.Number

/-! # Chains in documents

In a JSON document a chain is its bare number. Reviving a document turns the numbers under listed
keys back into chains, children before parents: elements by index under their decimal index,
members in their order, and the root last under the empty key.
-/

namespace Interchain.Chain

def deserializeSite : Site :=
  ⟨resource, operation "deserialize", Text.ofString "serialized chain"⟩

/-- The chain of a number that stood in a document. -/
def deserialize (colour : Colour) (v : Value) : Action Chain := do
  let _ ← Action.ofExcept (v.requireU16 colour deserializeSite)
  ofValue colour v

def reviveSite (key : Text) : Site :=
  ⟨resource, operation "revive",
    Text.ofString "chain at \"" ++ key ++ Text.ofString "\""⟩

/-- The value to stand under a key: a chain if the key is listed, the value itself if not. -/
def reviveEntry (colour : Colour) (keys : List Text) (key : Text) (v : Value) : Action Value :=
  if keys.contains key then do
    let _ ← Action.ofExcept (v.requireU16 colour (reviveSite key))
    let c ← ofValue colour v
    pure (.chain c)
  else pure v

mutual

/-- Revives all below a key and then the key itself. -/
def reviveTree (colour : Colour) (keys : List Text) (key : Text) : Json → Action Value
  | .array items => do
    let items ← reviveItems colour keys 0 items
    reviveEntry colour keys key (.array items)
  | .object fields => do
    let fields ← reviveFields colour keys fields
    reviveEntry colour keys key (.object fields)
  | .null => reviveEntry colour keys key .null
  | .bool b => reviveEntry colour keys key (.bool b)
  | .number x => reviveEntry colour keys key (.number x)
  | .string t => reviveEntry colour keys key (.string t)

def reviveItems (colour : Colour) (keys : List Text) (index : Nat) :
    List Json → Action (List Value)
  | [] => pure []
  | item :: rest => do
    let item ← reviveTree colour keys (Text.ofNat index) item
    let rest ← reviveItems colour keys (index + 1) rest
    pure (item :: rest)

def reviveFields (colour : Colour) (keys : List Text) :
    List (Text × Json) → Action (List (Text × Value))
  | [] => pure []
  | (key, value) :: rest => do
    let value ← reviveTree colour keys key value
    let rest ← reviveFields colour keys rest
    pure ((key, value) :: rest)

end

/-- Reads a document and revives it. -/
def revive (colour : Colour) (keys : List Text) (document : Text) : Action Value :=
  match Json.parse? document with
  | some tree => reviveTree colour keys [] tree
  | none => throw .malformed

end Interchain.Chain
