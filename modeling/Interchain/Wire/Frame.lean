import Interchain.Chain.Number
import Interchain.Wire.Hex

/-! # Chains in frames

On the wire a chain is two bytes, whose order is up to the frame around it.
-/

namespace Interchain.Wire

inductive Endian where
  | big
  | little
  deriving DecidableEq

/-- Little if it is named so, big under any other name and by default. -/
def Endian.named (name : Option Text) : Endian :=
  if name = some (Text.ofString "little") then .little else .big

/-- How many bytes a chain takes. -/
def chainBytes : Nat := 2

def resource : Text := Text.ofString "wire"

def decodeOperation : Text := Text.ofString "wire.decodeChain"

def decodeHexOperation : Text := Text.ofString "wire.decodeChainHex"

/-- The operations on the wire that can fail. -/
def operations : Fields Text :=
  [(Text.ofString "decode", decodeOperation), (Text.ofString "decodeHex", decodeHexOperation)]

def highByte (n : UInt16) : UInt8 := (n / 256).toUInt8

def lowByte (n : UInt16) : UInt8 := (n % 256).toUInt8

def encode (endian : Endian) (c : Chain) : List UInt8 :=
  let word := c.value.toWord
  match endian with
  | .big => [highByte word, lowByte word]
  | .little => [lowByte word, highByte word]

/-- A bound of a window: from the end if it is negative, and never outside the bytes. -/
def windowBound (length : Nat) (bound : Int) : Nat :=
  if bound < 0 then (length + bound).toNat else min bound.toNat length

/-- The bytes from one bound to another. -/
def window (start stop : Int) (bytes : List UInt8) : List UInt8 :=
  let start := windowBound bytes.length start
  let stop := windowBound bytes.length stop
  (bytes.drop start).take (stop - start)

/-- The number that two bytes spell from an offset on. -/
def read? (bytes : List UInt8) (offset : Nat) (endian : Endian) : Option Nat :=
  match bytes[offset]?, bytes[offset + 1]? with
  | some first, some second =>
    match endian with
    | .big => some (first.toNat * 256 + second.toNat)
    | .little => some (second.toNat * 256 + first.toNat)
  | _, _ => none

/-- The offset of a frame's chain; undefined is the start. -/
def startAt : Value → Value
  | .undefined => .number (.ofInt 0)
  | v => v

/-- The offset that a value is, if a chain fits there. -/
def offset? (length : Nat) : Value → Option Nat
  | .number x =>
    match x.toInt? with
    | some o => if 0 ≤ o ∧ o + chainBytes ≤ length then some o.toNat else none
    | none => none
  | _ => none

def tooShort (offset : Value) (length : Nat) : Envelope Value :=
  ⟨resource, decodeOperation, Envelope.validation,
    Text.ofString "Need " ++ Text.ofNat chainBytes ++ Text.ofString " bytes to read a chain id.",
    some [(Text.ofString "offset", offset), (Text.ofString "length", .number (.ofInt length))],
    .undefined⟩

/-- Reads the chain at an offset. -/
def decode (colour : Colour) (bytes : List UInt8) (offset : Value) (endian : Endian) :
    Action Chain :=
  let offset := startAt offset
  match offset? bytes.length offset with
  | none => throw (Failure.reject colour (tooShort offset bytes.length))
  | some o =>
    match read? bytes o endian with
    | some n => Chain.ofValue colour (.number (.ofInt n))
    | none => throw .outOfBounds

def encodeHex (endian : Endian) (c : Chain) : Text := hexOfBytes (encode endian c)

def malformedHex (hex : Text) (fault : HexFault) : Envelope Value :=
  ⟨resource, decodeHexOperation, Envelope.validation, Text.ofString "Malformed hex for chain id.",
    some [(Text.ofString "hex", .string hex)], fault.toValue.shapeCause⟩

def wrongWidth (hex : Text) (length : Nat) : Envelope Value :=
  ⟨resource, decodeHexOperation, Envelope.validation,
    Text.ofString "Expected exactly " ++ Text.ofNat chainBytes
      ++ Text.ofString " bytes for a chain id.",
    some [(Text.ofString "hex", .string hex), (Text.ofString "length", .number (.ofInt length))],
    .undefined⟩

/-- Reads a text that holds the two bytes of a chain and nothing else. -/
def decodeHex (colour : Colour) (hex : Text) (endian : Endian) : Action Chain :=
  match bytesOfHex hex with
  | .error fault => throw (Failure.reject colour (malformedHex hex fault))
  | .ok bytes =>
    if bytes.length = chainBytes then decode colour bytes .undefined endian
    else throw (Failure.reject colour (wrongWidth hex bytes.length))

end Interchain.Wire
