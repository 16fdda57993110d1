import Interchain.Chain.Basic
import Interchain.Fields
import Interchain.Number.Shortest

/-! # Values

What a caller may hand in and an error may carry, as far as it is data: plain data, chains, errors of
other libraries, failures of this one, and containers that hold only themselves. There is no code in
a value. Functions, members that can be called and members that are computed when they are asked for
are left out here; for the one operation that calls what it is given, `Interchain.Chain.ByMembers` has
objects with members that can be called.
-/

namespace Interchain

/-- The two sorts of failure; one also keeps the text that could not be read. -/
inductive FailureKind where
  | general
  | invalidText (input : Text)
  deriving DecidableEq

namespace FailureKind

def name : FailureKind → Text
  | .general => Text.ofString "ChainIdError"
  | .invalidText _ => Text.ofString "InvalidChainError"

end FailureKind

inductive Container where
  | array
  | object
  deriving DecidableEq

inductive Value where
  | undefined
  | null
  | bool (b : Bool)
  | number (x : Number)
  | bigint (n : Int)
  | string (t : Text)
  | symbol (description : Text)
  | array (items : List Value)
  | object (fields : List (Text × Value))
  | chain (c : Chain)
  /-- An error from elsewhere; an undefined code stands for none. -/
  | error (name : Value) (message : Text) (code : Value)
  /-- A failure of this library with the fields of its envelope. -/
  | failure (kind : FailureKind) (message : Text) (envelope : List (Text × Value))
  /-- A container whose only entry is itself. -/
  | circular (shape : Container)

namespace Value

/-- A text where there is one, and undefined where there is none. -/
def ofOption : Option Text → Value
  | some t => .string t
  | none => .undefined

def isUndefined : Value → Bool
  | .undefined => true
  | _ => false

/-- Whether a value has an identity of its own and can have members. -/
def isObject : Value → Bool
  | .array _ | .object _ | .chain _ | .error .. | .failure .. | .circular _ => true
  | _ => false

/-- The values that a condition takes for false: nothing, false, zero, not a number, no text. -/
def isTruthy : Value → Bool
  | .undefined | .null => false
  | .bool b => b
  | .number .nan => false
  | .number x => !x.isZero
  | .bigint n => n != 0
  | .string t => !t.isEmpty
  | _ => true

def isChain : Value → Bool
  | .chain _ => true
  | _ => false

def text? : Value → Option Text
  | .string t => some t
  | _ => none

/-- The chain number that a value is. -/
def u16? : Value → Option Number
  | .number x => if x.isU16 then some x else none
  | _ => none

def isU16 (v : Value) : Bool := v.u16?.isSome

/-- The member that a value shows under a name; undefined if there is none. -/
def member (name : String) : Value → Value
  | .object fields => (Fields.get? (Text.ofString name) fields).getD .undefined
  | .error own message code =>
    if name = "name" then own
    else if name = "message" then .string message
    else if name = "code" then code
    else .undefined
  | .failure kind message envelope =>
    if name = "name" then .string kind.name
    else if name = "message" then .string message
    else if name = "envelope" then .object envelope
    else .undefined
  | _ => .undefined

mutual

/-- The chains in a value, from left to right. -/
def chains : Value → List Chain
  | .array items => itemChains items
  | .object fields => fieldChains fields
  | .chain c => [c]
  | .error name _ code => chains name ++ chains code
  | .failure _ _ envelope => fieldChains envelope
  | _ => []

def itemChains : List Value → List Chain
  | [] => []
  | item :: rest => chains item ++ itemChains rest

def fieldChains : List (Text × Value) → List Chain
  | [] => []
  | (_, value) :: rest => chains value ++ fieldChains rest

end

end Value

end Interchain
