import Interchain.Registry

/-! # Chains of numbers

A chain number is a whole number from 0 to 65535, and a chain is issued for each. Any other value
is rejected with the value itself in the context.
-/

namespace Interchain

/-- The place where a chain number is expected. -/
structure Site where
  resource : Text
  operation : Text
  label : Text

namespace Site

/-- The label of a number that has no other. -/
def defaultLabel : Text := Text.ofString "value"

def message (site : Site) : Text :=
  Text.ofString "Invalid " ++ site.label ++ Text.ofString ": expected an integer in 0..="
    ++ Text.ofNat Number.maxU16 ++ Text.ofString "."

def rejection (site : Site) (v : Value) : Envelope Value :=
  ⟨site.resource, site.operation, Envelope.validation, site.message,
    some [(Text.ofString "value", v)], .undefined⟩

end Site

/-- The chain number that a value is, or else a failure that carries the value. -/
def Value.requireU16 (colour : Colour) (site : Site) (v : Value) : Except Raised Number :=
  match v.u16? with
  | some x => .ok x
  | none => .error (Failure.reject colour (site.rejection v))

namespace Chain

def resource : Text := Text.ofString "chain"

/-- The full name of an operation on chains. -/
def operation (name : String) : Text := Text.ofString "chain." ++ Text.ofString name

/-- The operations on chains that can fail. -/
def operations : Fields Text :=
  ["fromU16", "parse", "name", "deserialize", "revive"].map fun name =>
    (Text.ofString name, operation name)

def numberSite : Site := ⟨resource, operation "fromU16", Text.ofString "chain id"⟩

/-- The chain of a number. -/
def ofValue (colour : Colour) (v : Value) : Action Chain := do
  let x ← Action.ofExcept (v.requireU16 colour numberSite)
  Action.chainOf x

end Chain

end Interchain
