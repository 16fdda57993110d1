import Interchain.Session.Call
import Interchain.Session.Expr

/-! # Requests

A request asks for one operation of the library. Its chains are given by a number or are those that
an earlier request gave out, its other arguments are given by expressions. To carry it out, its arguments are built
first, from left to right, and then the operation is called.
-/

namespace Interchain

inductive Operand where
  | number (x : Number)
  | result (step : Nat)
  /-- A chain inside the answer to an earlier request. -/
  | inside (step place : Nat)

/-- Bytes as they are handed in: all of them, or those between two bounds. -/
structure Source where
  bytes : List UInt8
  bounds : Option (Int × Int)

namespace Source

def view (s : Source) : List UInt8 :=
  match s.bounds with
  | some (start, stop) => Wire.window start stop s.bytes
  | none => s.bytes

end Source

inductive Request where
  | ofValue (v : Expr)
  | default
  | describe (c : Operand)
  | compare (a b : Operand)
  | sort (chains : List Operand)
  | isChain (v : Expr)
  | ofName (name : Text)
  | nameOf (c : Operand)
  | isName (name : Text)
  | requireName (name : Text)
  | coalesce (v : Expr)
  | format (c : Operand)
  | parse (v : Expr)
  | tryParse (v : Expr)
  | serialize (c : Operand)
  | deserialize (v : Expr)
  | revive (keys : List Text) (document : Text)
  | reviveEntry (keys : List Text) (key : Text) (v : Expr)
  | stringify (v : Expr)
  | encode (c : Operand) (endian : Wire.Endian)
  | decode (source : Source) (offset : Expr) (endian : Wire.Endian)
  | encodeHex (c : Operand) (endian : Wire.Endian)
  | decodeHex (hex : Text) (endian : Wire.Endian)
  | stripMarker (hex : Text)
  | bytesOfHex (hex : Text)
  | hexOfBytes (bytes : List UInt8)
  | isU16 (v : Expr)
  | requireU16 (site : Site) (v : Expr)
  | layOut (envelope : Envelope Expr)
  | failureForms (v : Expr)
  | isFailure (v : Expr)
  | isInvalidText (v : Expr)
  | shapeCause (v : Expr)
  | constants

section

variable {m : Type → Type} [Monad m] [Issuer m]

/-- A chain from an earlier request. If that gave out none, there is nothing to work on. -/
def Operand.earlier : Option Chain → m Chain
  | some c => pure c
  | none => Issuer.ofExcept (.error .wrongKind)

def Operand.resolve (colour : Colour) (results : Results) : Operand → m Chain
  | .number x => Issuer.ofValue colour (.number x)
  | .result step => earlier (results.get? step)
  | .inside step place => earlier (results.inside? step place)

def Operand.resolveAll (colour : Colour) (results : Results) : List Operand → m (List Chain)
  | [] => pure []
  | c :: rest => do
    let c ← c.resolve colour results
    let rest ← resolveAll colour results rest
    pure (c :: rest)

/-- Builds the arguments of a request. -/
def Request.call (colour : Colour) (results : Results) (request : Request) : m Call :=
  let value (e : Expr) : m Value := e.build colour results
  let chain (c : Operand) : m Chain := c.resolve colour results
  match request with
  | ofValue v => .ofValue <$> value v
  | default => pure (.query .default)
  | describe c => (fun c => .query (.describe c)) <$> chain c
  | compare a b => do
    let a ← chain a
    let b ← chain b
    pure (.query (.compare a b))
  | sort chains => (fun cs => .query (.sort cs)) <$> Operand.resolveAll colour results chains
  | isChain v => (fun v => .query (.isChain v)) <$> value v
  | ofName name => pure (.ofName name)
  | nameOf c => (fun c => .query (.nameOf c)) <$> chain c
  | isName name => pure (.query (.isName name))
  | requireName name => pure (.query (.requireName name))
  | coalesce v => .coalesce <$> value v
  | format c => (fun c => .query (.format c)) <$> chain c
  | parse v => .parse <$> value v
  | tryParse v => .tryParse <$> value v
  | serialize c => (fun c => .query (.serialize c)) <$> chain c
  | deserialize v => .deserialize <$> value v
  | revive keys document => pure (.revive keys document)
  | reviveEntry keys key v => .reviveEntry keys key <$> value v
  | stringify v => (fun v => .query (.stringify v)) <$> value v
  | encode c endian => (fun c => .query (.encode c endian)) <$> chain c
  | decode source offset endian => (.decode source.view · endian) <$> value offset
  | encodeHex c endian => (fun c => .query (.encodeHex c endian)) <$> chain c
  | decodeHex hex endian => pure (.decodeHex hex endian)
  | stripMarker hex => pure (.query (.stripMarker hex))
  | bytesOfHex hex => pure (.query (.bytesOfHex hex))
  | hexOfBytes bytes => pure (.query (.hexOfBytes bytes))
  | isU16 v => (fun v => .query (.isU16 v)) <$> value v
  | requireU16 site v => (fun v => .query (.requireU16 site v)) <$> value v
  | layOut e => (fun e => .query (.layOut e)) <$> Expr.buildEnvelope colour results e
  | failureForms v => (fun f => .query (.failureForms f)) <$> Expr.buildFailure colour results v
  | isFailure v => (fun v => .query (.isFailure v)) <$> value v
  | isInvalidText v => (fun v => .query (.isInvalidText v)) <$> value v
  | shapeCause v => (fun v => .query (.shapeCause v)) <$> value v
  | constants => pure (.query .constants)

end

/-- Carries out a request. -/
def Request.perform (colour : Colour) (results : Results) (request : Request) : Action Answer := do
  let call ← request.call colour results
  call.perform colour

end Interchain
