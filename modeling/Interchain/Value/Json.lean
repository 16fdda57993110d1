import Interchain.Json.Parse
import Interchain.Value.Basic

/-! # Values as JSON

`toJson?` gives the JSON tree of a value. Undefined and symbols have none: they are left out of
objects and become null in arrays. A chain is its number, an error from elsewhere shows only its
code, and a failure shows its name and its envelope. A circular value has no JSON, and a big
integer has one only where the caller lets it be spelt as text.
-/

namespace Interchain

/-- What becomes of big integers in JSON. -/
inductive BigInts where
  | refused
  | spelt
  deriving DecidableEq

inductive Unwritable where
  | bigInt
  | circular
  deriving DecidableEq

namespace Value

/-- A number in a tree; what is not finite becomes null. -/
def jsonNumber (x : Number) : Json := if x.isFinite then .number x else .null

mutual

def toJson? (rule : BigInts) : Value → Except Unwritable (Option Json)
  | .undefined => .ok none
  | .null => .ok (some .null)
  | .bool b => .ok (some (.bool b))
  | .number x => .ok (some (jsonNumber x))
  | .bigint n =>
    match rule with
    | .refused => .error .bigInt
    | .spelt => .ok (some (.string (Text.ofInt n ++ [Text.unit 'n'])))
  | .string t => .ok (some (.string t))
  | .symbol _ => .ok none
  | .array items => (jsonItems rule items).map fun items => some (.array items)
  | .object fields => (jsonFields rule fields).map fun fields => some (.object fields)
  | .chain c => .ok (some (jsonNumber c.value))
  | .error _ _ code =>
    (toJson? rule code).map fun
      | some code => some (.object [(Text.ofString "code", code)])
      | none => some (.object [])
  | .failure kind _ envelope =>
    (jsonFields rule envelope).map fun envelope =>
      some (.object ((Text.ofString "name", .string kind.name) :: envelope))
  | .circular _ => .error .circular

def jsonItems (rule : BigInts) : List Value → Except Unwritable (List Json)
  | [] => .ok []
  | item :: rest => do
    let item ← toJson? rule item
    let rest ← jsonItems rule rest
    .ok (item.getD .null :: rest)

def jsonFields (rule : BigInts) : List (Text × Value) → Except Unwritable (Fields Json)
  | [] => .ok []
  | (key, value) :: rest => do
    let value ← toJson? rule value
    let rest ← jsonFields rule rest
    match value with
    | some value => .ok ((key, value) :: rest)
    | none => .ok rest

end

/-- The JSON text of a value, if it has one. -/
def jsonText? (rule : BigInts) (v : Value) : Except Unwritable (Option Text) :=
  (v.toJson? rule).map (Option.map Json.text)

mutual

/-- A JSON tree as a value. -/
def ofJson : Json → Value
  | .null => .null
  | .bool b => .bool b
  | .number x => .number x
  | .string t => .string t
  | .array items => .array (ofJsonItems items)
  | .object fields => .object (ofJsonFields fields)

def ofJsonItems : List Json → List Value
  | [] => []
  | item :: rest => ofJson item :: ofJsonItems rest

def ofJsonFields : List (Text × Json) → Fields Value
  | [] => []
  | (key, value) :: rest => (key, ofJson value) :: ofJsonFields rest

end

end Value

end Interchain
