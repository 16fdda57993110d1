import Interchain.Session.Answer

/-! # Queries

A query is an operation of the library that asks for no chain, with its arguments in hand. It gives
an answer or raises, and never looks at the registry.
-/

namespace Interchain

inductive Query where
  | default
  | describe (c : Chain)
  | compare (a b : Chain)
  | sort (chains : List Chain)
  | isChain (v : Value)
  | nameOf (c : Chain)
  | isName (name : Text)
  | requireName (name : Text)
  | format (c : Chain)
  | serialize (c : Chain)
  | stringify (v : Value)
  | encode (c : Chain) (endian : Wire.Endian)
  | encodeHex (c : Chain) (endian : Wire.Endian)
  | stripMarker (hex : Text)
  | bytesOfHex (hex : Text)
  | hexOfBytes (bytes : List UInt8)
  | isU16 (v : Value)
  | requireU16 (site : Site) (v : Value)
  | layOut (envelope : Envelope Value)
  | failureForms (f : Failure)
  | isFailure (v : Value)
  | isInvalidText (v : Value)
  | shapeCause (v : Value)
  | constants

def Failure.forms (colour : Colour) (f : Failure) : Except Raised FailureForms :=
  match f.inspect? colour with
  | some inspected =>
    .ok ⟨f, f.jsonText?, inspected, f.ownCause?, f.toValue.isFailure, f.toValue.isInvalidText⟩
  | none => .error .unprintable

namespace Query

/-- The JSON text of a value as an answer. -/
def stringified (v : Value) : Except Raised Answer :=
  match v.jsonText? .refused with
  | .ok t => .ok (.ofOption t)
  | .error _ => .error .unwritable

def readHex (hex : Text) : Except Raised Answer :=
  match Wire.bytesOfHex hex with
  | .ok bytes => .ok (.bytes bytes)
  | .error fault => .error (.badHex fault)

def laidOut (colour : Colour) (envelope : Envelope Value) : Except Raised Answer :=
  match envelope.text? colour with
  | some t => .ok (.text t)
  | none => .error .unprintable

def answer (colour : Colour) : Query → Except Raised Answer
  | default => .ok (.chain Chain.default)
  | describe c => .ok (.described c.description)
  | compare a b => .ok (.compared ⟨Chain.compare a b, Chain.equals a b, Chain.same a b⟩)
  | sort chains => .ok (.numbers ((Chain.sort chains).map Chain.value))
  | isChain v => .ok (.bool v.isChain)
  | nameOf c => .ok (.ofOption c.name?)
  | isName name => .ok (.bool (Chain.isName name))
  | requireName name => (Chain.requireName colour name).map fun _ => .done
  | format c => .ok (.text c.text)
  | serialize c => .ok (.number c.value)
  | stringify v => stringified v
  | encode c endian => .ok (.bytes (Wire.encode endian c))
  | encodeHex c endian => .ok (.text (Wire.encodeHex endian c))
  | stripMarker hex => .ok (.text (Wire.stripMarker hex))
  | bytesOfHex hex => readHex hex
  | hexOfBytes bytes => .ok (.text (Wire.hexOfBytes bytes))
  | isU16 v => .ok (.bool v.isU16)
  | requireU16 site v => (v.requireU16 colour site).map fun _ => .done
  | layOut envelope => laidOut colour envelope
  | failureForms f => (f.forms colour).map .forms
  | isFailure v => .ok (.bool v.isFailure)
  | isInvalidText v => .ok (.bool v.isInvalidText)
  | shapeCause v => .ok (.value v.shapeCause)
  | constants => .ok (.constants .all)

end Query

end Interchain
