import Interchain.Chain.Parse

/-! # Expressions

An expression says how the argument of a request comes about. It may name a chain by its number, as
the result of an earlier request or as a chain inside one, so it is built where chains are given out.
-/

namespace Interchain

inductive Expr where
  | undefined
  | null
  | bool (b : Bool)
  | number (x : Number)
  | bigint (n : Int)
  | string (t : Text)
  | symbol (description : Text)
  | list (items : List Expr)
  /-- An object with its keys set in this order. -/
  | object (pairs : List (Text × Expr))
  | chain (x : Number)
  | result (step : Nat)
  /-- A chain inside the answer to an earlier request. -/
  | inside (step place : Nat)
  | error (name : Expr) (message : Text) (code : Expr)
  | failure (envelope : Envelope Expr)
  | invalidText (input : Text)
  | circular (shape : Container)

/-- What a request gave out: a chain as its answer, or the chains inside its answer. -/
structure Given (α : Type) where
  chain? : Option α
  inside : List α

namespace Given

variable {α β : Type}

def map (f : α → β) (given : Given α) : Given β := ⟨given.chain?.map f, given.inside.map f⟩

def all (given : Given α) : List α := given.chain?.toList ++ given.inside

end Given

/-- What earlier requests gave out, each under the number of its request. -/
abbrev Results := List (Given Chain)

namespace Results

def get? (results : Results) (step : Nat) : Option Chain := results[step]?.bind Given.chain?

def inside? (results : Results) (step place : Nat) : Option Chain :=
  results[step]?.bind fun given => given.inside[place]?

end Results

/-- What building an argument takes: that it may raise, and that it is given the chain of a number.
A registry is one way to give it. -/
class Issuer (m : Type → Type) where
  ofExcept {α : Type} : Except Raised α → m α
  ofValue : Colour → Value → m Chain

instance : Issuer Action := ⟨Action.ofExcept, Chain.ofValue⟩

namespace Expr

variable {m : Type → Type} [Monad m] [Issuer m]

/-- The value of a chain from an earlier request, which may have given out none. -/
def earlier : Option Chain → Value
  | some c => .chain c
  | none => .undefined

mutual

def build (colour : Colour) (results : Results) : Expr → m Value
  | .undefined => pure .undefined
  | .null => pure .null
  | .bool b => pure (.bool b)
  | .number x => pure (.number x)
  | .bigint n => pure (.bigint n)
  | .string t => pure (.string t)
  | .symbol description => pure (.symbol description)
  | .list items => do
    let items ← buildItems colour results items
    pure (.array items)
  | .object pairs => do
    let pairs ← buildPairs colour results pairs
    pure (.object (Fields.ofPairs pairs))
  | .chain x => do
    let c ← Issuer.ofValue colour (.number x)
    pure (.chain c)
  | .result step => pure (earlier (results.get? step))
  | .inside step place => pure (earlier (results.inside? step place))
  | .error name message code => do
    let name ← build colour results name
    let code ← build colour results code
    pure (.error name message code)
  | .failure envelope => do
    let envelope ← buildEnvelope colour results envelope
    let f ← Issuer.ofExcept (Failure.build colour .general envelope)
    pure f.toValue
  | .invalidText input => do
    let f ← Issuer.ofExcept (Chain.unreadable colour input)
    pure f.toValue
  | .circular shape => pure (.circular shape)

def buildItems (colour : Colour) (results : Results) : List Expr → m (List Value)
  | [] => pure []
  | item :: rest => do
    let item ← build colour results item
    let rest ← buildItems colour results rest
    pure (item :: rest)

def buildPairs (colour : Colour) (results : Results) :
    List (Text × Expr) → m (List (Text × Value))
  | [] => pure []
  | (key, value) :: rest => do
    let value ← build colour results value
    let rest ← buildPairs colour results rest
    pure ((key, value) :: rest)

def buildContext (colour : Colour) (results : Results) :
    Option (List (Text × Expr)) → m (Option (Fields Value))
  | none => pure none
  | some pairs => do
    let pairs ← buildPairs colour results pairs
    pure (some (Fields.ofPairs pairs))

def buildEnvelope (colour : Colour) (results : Results) : Envelope Expr → m (Envelope Value)
  | ⟨resource, operation, type, message, context, cause⟩ => do
    let context ← buildContext colour results context
    let cause ← build colour results cause
    pure ⟨resource, operation, type, message, context, cause⟩

end

/-- Builds a failure itself rather than its value. -/
def buildFailure (colour : Colour) (results : Results) : Expr → m Failure
  | .failure envelope => do
    let envelope ← buildEnvelope colour results envelope
    Issuer.ofExcept (Failure.build colour .general envelope)
  | .invalidText input => Issuer.ofExcept (Chain.unreadable colour input)
  | _ => Issuer.ofExcept (.error .wrongKind)

end Expr

end Interchain
