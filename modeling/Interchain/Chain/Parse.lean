import Interchain.Chain.Number

/-! # Reading chain texts

A chain text is `any` or `solana`, or the keyword `unknown`, a bracket of either side, and a
decimal chain number with an optional plus sign, after which anything may follow a further bracket.
Words are matched in either ASCII case.
-/

namespace Interchain.Chain

def isBracket (u : UInt16) : Bool := u = Text.unit '(' || u = Text.unit ')'

/-- Whether a text is a decimal number with an optional plus sign. -/
def isUnsigned (t : Text) : Bool :=
  let digits := if t.head? = some (Text.unit '+') then t.tail else t
  !digits.isEmpty && digits.all Text.isDigit

/-- The text before the first bracket, and the text from there to the next bracket or the end. -/
def segments (t : Text) : Text × Option Text :=
  let (word, rest) := t.span fun u => !isBracket u
  match rest with
  | [] => (word, none)
  | _ :: rest => (word, some (rest.takeWhile fun u => !isBracket u))

/-- The number that an unknown chain's text spells. -/
def spelledNumber? (t : Text) : Option Number :=
  match segments t with
  | (word, some number) =>
    if word.lower = Text.ofString "unknown" ∧ isUnsigned number then some (.ofText number) else none
  | (_, none) => none

def parseRejection (input : Text) : Envelope Value :=
  ⟨resource, operation "parse", Envelope.validation,
    Text.ofString "invalid chain: " ++ input, some [(Text.ofString "input", .string input)],
    .undefined⟩

/-- The failure of a text that is no chain. -/
def unreadable (colour : Colour) (input : Text) : Except Raised Failure :=
  Failure.build colour (.invalidText input) (parseRejection input)

def parse (colour : Colour) (input : Text) : Action Chain :=
  if input.lower = Text.ofString "any" then pure any
  else if input.lower = Text.ofString "solana" then pure solana
  else
    match spelledNumber? input with
    | none => throw (Failure.raise (unreadable colour input))
    | some x =>
      let v := Value.number x
      if v.isU16 then ofValue colour v else throw (Failure.raise (unreadable colour input))

/-- Reads a value that should be a text. There is no code in a value that could stand in for a text,
so nothing else is read; what becomes of objects with code is told by `parseByMembers`. -/
def parseValue (colour : Colour) : Value → Action Chain
  | .string input => parse colour input
  | _ => throw .wrongKind

/-- Like `parseValue`, but a failure is an answer. Any other fault is raised. -/
def tryParse (colour : Colour) (v : Value) : Action (Except Failure Chain) :=
  tryCatch (Except.ok <$> parseValue colour v) fun
    | .failure f => pure (.error f)
    | fault => throw fault

end Interchain.Chain
