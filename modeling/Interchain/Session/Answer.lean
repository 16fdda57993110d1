import Interchain.Chain.Document
import Interchain.Chain.Name
import Interchain.Chain.Parse
import Interchain.Wire.Frame

/-! # Answers

What the operations of the library answer.
-/

namespace Interchain

/-- A chain in all its forms. -/
structure Description where
  chain : Chain
  text : Text
  name : Option Text
  known : Bool
  isDefault : Bool
  bigEndian : List UInt8
  littleEndian : List UInt8
  bigEndianHex : Text
  littleEndianHex : Text

def Chain.description (c : Chain) : Description :=
  ⟨c, c.text, c.name?, c.isKnown, c.same default, Wire.encode .big c, Wire.encode .little c,
    Wire.encodeHex .big c, Wire.encodeHex .little c⟩

/-- The fixed tables and sizes. -/
structure Constants where
  names : Fields Number
  nameTable : List (Number × Text)
  maxNumber : Nat
  chainBytes : Nat
  chainOperations : Fields Text
  wireOperations : Fields Text

def Constants.all : Constants :=
  ⟨Chain.names, Chain.nameTable, Number.maxU16, Wire.chainBytes, Chain.operations,
    Wire.operations⟩

/-- How two chains relate. -/
structure Comparison where
  order : Number
  equals : Bool
  same : Bool

/-- The forms in which a failure shows itself. -/
structure FailureForms where
  failure : Failure
  json : Except Unwritable (Option Text)
  inspected : Text
  ownCause : Option Value
  isFailure : Bool
  isInvalidText : Bool

inductive Answer where
  | chain (c : Chain)
  | described (description : Description)
  | compared (comparison : Comparison)
  | number (x : Number)
  | numbers (xs : List Number)
  | bytes (bytes : List UInt8)
  | bool (b : Bool)
  | text (t : Text)
  | noText
  | done
  | attempt (result : Except Failure Chain)
  | value (v : Value)
  | forms (forms : FailureForms)
  | constants (constants : Constants)

namespace Answer

def ofOption : Option Text → Answer
  | some t => .text t
  | none => .noText

/-- The chain that an answer returns as such. -/
def chain? : Answer → Option Chain
  | .chain c => some c
  | _ => none

/-- The chains that an answer gives out inside it: the one that was read, and those of a value. -/
def inside : Answer → List Chain
  | .attempt (.ok c) => [c]
  | .value v => v.chains
  | _ => []

end Answer

end Interchain
