import Interchain.Failure.Envelope
import Interchain.Failure.Style
import Interchain.Value.Json
import Interchain.Value.Text

/-! # The text of an envelope

`Envelope.text?` lays an envelope out in lines for a reader: a header, the message, operation and
resource, and then context and cause as far as they show anything. It fails only where a value of
the context or the cause has no text.
-/

namespace Interchain

namespace Envelope

def title : Text := Text.ofString "ChainIdError"

def indent : Text := Text.ofString "  "

def contextSeparator : Text := Text.ofString "  •  "

def contextLimit : Nat := 120

def messageLimit : Nat := 600

def labelWidth : Nat := 10

/-- A label in its column and what it labels. -/
def labelled (colour : Colour) (label : String) (t : Text) : Text :=
  let name := Text.ofString label
  let column := name ++ List.replicate (labelWidth - name.length) (Text.unit ' ')
  indent ++ Style.dim.paint colour column ++ Text.ofString ": " ++ t

/-- A value of the context: its JSON text, cut in the middle when long, or else its plain text. -/
def contextText? (v : Value) : Option Text :=
  match v.jsonText? .spelt with
  | .ok (some t) => some (t.elide contextLimit)
  | .ok none => v.describe?
  | .error _ => v.describe?

def entryText? (entry : Text × Value) : Option Text :=
  (contextText? entry.2).map fun t => entry.1 ++ Text.unit '=' :: t

/-- One line for all entries of the context, and none if there are no entries. -/
def contextLines? (colour : Colour) (context : Option (Fields Value)) : Option (List Text) :=
  match context with
  | none | some [] => some []
  | some entries =>
    (entries.mapM entryText?).map fun parts =>
      [labelled colour "Context" (Text.join contextSeparator parts)]

/-- A member of a cause with its name, if it counts as true. -/
def causePart? (cause : Value) (name : String) : Option (List Text) :=
  let v := cause.member name
  if v.isTruthy then v.describe?.map fun t => [Text.ofString name ++ Text.unit '=' :: t]
  else some []

def causeMessageLines? (cause : Value) : Option (List Text) :=
  let v := cause.member "message"
  if v.isTruthy then
    v.describe?.map fun t => [Text.ofString "              message=" ++ t.elide messageLimit]
  else some []

/-- An object shows its name, code and message, any other value its text, and a value that counts
as false nothing. -/
def causeLines? (colour : Colour) (cause : Value) : Option (List Text) :=
  if cause.isObject then do
    let name ← causePart? cause "name"
    let code ← causePart? cause "code"
    let message ← causeMessageLines? cause
    let parts := name ++ code
    let line := if parts = [] then [] else [labelled colour "Cause" (Text.join indent parts)]
    some (line ++ message)
  else if cause.isTruthy then cause.describe?.map fun t => [labelled colour "Cause" t]
  else some []

def header (colour : Colour) (type : Text) : Text :=
  Style.red.paint colour (Text.ofString "✖") ++ [Text.unit ' '] ++ Style.bold.paint colour title
    ++ Text.ofString " [" ++ Style.yellow.paint colour type ++ [Text.unit ']']

/-- The lines that every envelope has. -/
def leadingLines (colour : Colour) (e : Envelope Value) : List Text :=
  [header colour e.type, labelled colour "Message" e.message, [],
    labelled colour "Operation" e.operation, labelled colour "Resource" e.resource]

/-- The whole text. An empty line goes before context and cause if there are any. -/
def text? (colour : Colour) (e : Envelope Value) : Option Text := do
  let context ← contextLines? colour e.context
  let cause ← causeLines? colour e.cause
  let details := context ++ cause
  let lines := e.leadingLines colour ++ (if details = [] then [] else [[]]) ++ details
  some (Text.join [Style.lineFeed] lines)

end Envelope

end Interchain
