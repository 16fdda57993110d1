import Interchain.Failure.Layout
import Interchain.Wire.HexFault

/-! # Failures

A failure is an envelope with the text it was given when it was raised. `Raised` lists everything
that can stop an operation: a failure, or one of the faults that no envelope describes.
-/

namespace Interchain

structure Failure where
  kind : FailureKind
  envelope : Envelope Value
  message : Text

inductive Raised where
  | failure (f : Failure)
  | badHex (fault : HexFault)
  /-- A value was given of a kind that the operation does not take. -/
  | wrongKind
  /-- A value was to be shown that has no text. -/
  | unprintable
  /-- A value was to be written as JSON that has none. -/
  | unwritable
  /-- A text was to be read as JSON and is none. -/
  | malformed
  /-- Bytes were to be read beyond their end. -/
  | outOfBounds

namespace Failure

/-- Builds a failure and its text. A value that cannot be shown is raised in its place. -/
def build (colour : Colour) (kind : FailureKind) (envelope : Envelope Value) :
    Except Raised Failure :=
  match envelope.text? colour with
  | some message => .ok ⟨kind, envelope, message⟩
  | none => .error .unprintable

/-- What is raised with a failure. -/
def raise : Except Raised Failure → Raised
  | .ok f => .failure f
  | .error r => r

/-- What is raised with an envelope of the general sort. -/
def reject (colour : Colour) (envelope : Envelope Value) : Raised :=
  raise (build colour .general envelope)

/-- The members of the envelope in their order. The failure of an unreadable text has its type in
third place, every other failure at the end. -/
def fields (f : Failure) : Fields Value :=
  let e := f.envelope
  let what : Fields Value :=
    [(Text.ofString "resource", .string e.resource),
      (Text.ofString "operation", .string e.operation)]
  let type : Fields Value := [(Text.ofString "type", .string e.type)]
  let message : Fields Value := [(Text.ofString "message", .string e.message)]
  let context : Fields Value :=
    match e.context with
    | some entries => [(Text.ofString "context", .object entries)]
    | none => []
  match f.kind with
  | .general => what ++ message ++ context ++ [(Text.ofString "cause", e.cause)] ++ type
  | .invalidText _ => what ++ type ++ message ++ context

def toValue (f : Failure) : Value := .failure f.kind f.message f.fields

/-- The JSON text of a failure. -/
def jsonText? (f : Failure) : Except Unwritable (Option Text) := f.toValue.jsonText? .refused

/-- The name of the failure and its text laid out anew. -/
def inspect? (colour : Colour) (f : Failure) : Option Text :=
  (f.envelope.text? colour).map fun t => f.kind.name ++ Text.ofString ": " ++ t

/-- The cause that the failure passes on as its own; one that counts as false is dropped. -/
def ownCause? (f : Failure) : Option Value :=
  if f.envelope.cause.isTruthy then some f.envelope.cause else none

end Failure

namespace Value

/-- Whether a value is a failure, or an object with an envelope whose type and message are
texts. -/
def isFailure : Value → Bool
  | .failure .. => true
  | v =>
    let envelope := v.member "envelope"
    envelope.isObject && (envelope.member "type").text?.isSome
      && (envelope.member "message").text?.isSome

/-- Whether a value is the failure of a text that could not be read. -/
def isInvalidText : Value → Bool
  | .failure (.invalidText _) _ _ => true
  | _ => false

/-- A member if it is a text, and undefined otherwise. -/
def textMember (name : String) (v : Value) : Value := .ofOption (v.member name).text?

/-- The part of a caught value that is safe to attach as a cause: name, message and code as far as
they are texts, or the text of a value that is no object. -/
def shapeCause (v : Value) : Value :=
  if v.isObject then
    .object [(Text.ofString "name", v.textMember "name"),
      (Text.ofString "message", v.textMember "message"),
      (Text.ofString "code", v.textMember "code")]
  else .object [(Text.ofString "message", .ofOption v.describe?)]

end Value

end Interchain
