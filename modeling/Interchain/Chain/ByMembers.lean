import Interchain.Chain.Parse

/-! # Reading what only looks like a text

The reader of chain texts is not told what it is given. It asks for a length, searches, and cuts, as
texts let it, and an object may have members of these names. Where such a member can be called, the
caller's own code runs in the middle of the reading: it answers or throws what it likes, and may ask
for chains. Here the reading is set out by the members it touches. What is handed in may have code in
two places, where a text is searched and where it is cut. Left out are functions that are handed in
themselves, members that are computed when they are asked for, members by which an object makes itself
a text, and code that changes what was handed in.
-/

namespace Interchain

/-- An object that may have code where a text is searched and cut. The code runs against the registry
and answers or throws; it stands in the place of data under the same name. -/
structure Imitation (α : Type) where
  fields : Fields Value
  replace : Option (Registry → Except α α × Registry)
  split : Option (Registry → Except α α × Registry)

namespace Imitation

variable {α : Type}

def calls (i : Imitation α) (name : Text) : Bool :=
  (i.replace.isSome && name == Text.ofString "replace")
    || (i.split.isSome && name == Text.ofString "split")

/-- The object without its code, which is all that a reader of the object is shown. -/
def data (i : Imitation α) : Value := .object (i.fields.filter fun field => !i.calls field.1)

end Imitation

/-- What a caller may hand in: a value, an object with code, or a list of these. -/
inductive Handed where
  | value (v : Value)
  | list (items : List Handed)
  | imitation (i : Imitation Handed)

/-- A caller's code. -/
abbrev Code := Registry → Except Handed Handed × Registry

/-- What can stop the reading. -/
inductive Thrown where
  | raised (e : Raised)
  /-- The caller's own code threw this. -/
  | handed (x : Handed)
  /-- The failure of something that is no text, with its own text. -/
  | refused (x : Handed) (message : Text)

/-- A run against the registry that also stops at what the caller's code throws. -/
abbrev Reading := ExceptT Thrown (StateM Registry)

namespace Reading

variable {α : Type}

def ofAction (a : Action α) : Reading α := fun r => ((a r).1.mapError .raised, (a r).2)

theorem ofAction_apply (a : Action α) (r : Registry) :
    ofAction a r = ((a r).1.mapError .raised, (a r).2) := rfl

def ofExcept (x : Except Raised α) : Reading α := ofAction (Action.ofExcept x)

/-- Runs the caller's code. Where there is none, there is nothing to call. -/
def call : Option Code → Reading Handed
  | some code => fun r => ((code r).1.mapError .handed, (code r).2)
  | none => throw (.raised .wrongKind)

end Reading

/-- The first character of a text, which may be a pair of units, and what follows it. -/
def Text.firstChar? : Text → Option (Text × Text)
  | [] => none
  | [u] => some ([u], [])
  | u :: v :: rest =>
    if isHighSurrogate u && isLowSurrogate v then some ([u, v], rest) else some ([u], v :: rest)

namespace Value

/-- What a value shows as its length. Nothing and undefined have no members to be asked for. -/
def length? : Value → Except Raised Value
  | .undefined | .null => .error .wrongKind
  | .string t => .ok (.number (.ofNat t.length))
  | .array items => .ok (.number (.ofNat items.length))
  | .circular .array => .ok (.number (.ofNat 1))
  | v => .ok (v.member "length")

/-- Whether a value that is shown as a length is this one. -/
def isLength (n : Nat) : Value → Bool
  | .number x => x.equal (.ofNat n)
  | _ => false

end Value

namespace Handed

def undefined : Handed := .value .undefined

def ofText (t : Text) : Handed := .value (.string t)

mutual

/-- What is left without any code. -/
def plain : Handed → Value
  | .value v => v
  | .list items => .array (plainItems items)
  | .imitation i => i.data

def plainItems : List Handed → List Value
  | [] => []
  | item :: rest => plain item :: plainItems rest

end

def length? : Handed → Except Raised Value
  | .value v => v.length?
  | .list items => .ok (.number (.ofNat items.length))
  | .imitation i => .ok (i.data.member "length")

/-- The search for capital letters, which puts small ones for them. -/
def lowered : Handed → Reading Handed
  | .value (.string t) => pure (ofText t.lower)
  | .imitation i => Reading.call i.replace
  | _ => throw (.raised .wrongKind)

def isText (t : Text) : Handed → Bool
  | .value (.string s) => s == t
  | _ => false

def isUndefined : Handed → Bool
  | .value v => v.isUndefined
  | _ => false

/-- Whether this is a word in either case. Only what has the length of the word is searched. -/
def isWord (word : Text) (x : Handed) : Reading Bool := do
  let length ← Reading.ofExcept x.length?
  if length.isLength word.length then
    let t ← x.lowered
    pure (t.isText word)
  else pure false

/-- The first two items of what can be gone through item by item, and a text goes character by
character. Undefined stands for an item that is missing. -/
def firstTwo : Handed → Except Raised (Handed × Handed)
  | .list items => .ok (items[0]?.getD undefined, items[1]?.getD undefined)
  | .value (.array items) =>
    .ok (.value (items[0]?.getD .undefined), .value (items[1]?.getD .undefined))
  | .value (.circular .array) => .ok (.value (.circular .array), undefined)
  | .value (.string t) =>
    match t.firstChar? with
    | none => .ok (undefined, undefined)
    | some (c, rest) => .ok (ofText c, (rest.firstChar?.map fun p => ofText p.1).getD undefined)
  | _ => .error .wrongKind

/-- The cut at the brackets; of the pieces only two are looked at. -/
def pieces : Handed → Reading (Handed × Handed)
  | .value (.string t) =>
    let (word, number) := Chain.segments t
    pure (ofText word, (number.map ofText).getD undefined)
  | .imitation i => do
    let x ← Reading.call i.split
    Reading.ofExcept x.firstTwo
  | _ => throw (.raised .wrongKind)

/-- The text that something is taken for. -/
def text? (x : Handed) : Except Raised Text :=
  match x.plain.convert? with
  | some t => .ok t
  | none => .error .wrongKind

/-- The number of something whose text this is. -/
def toNumber (t : Text) : Handed → Number
  | .value (.number x) => x
  | _ => .ofText t

/-- What the failure to read a text says of something that has this text. -/
def rejection (x : Handed) (t : Text) : Envelope Value :=
  { Chain.parseRejection t with context := some [(Text.ofString "input", x.plain)] }

/-- What is thrown for something that is no chain text, if it can be shown. -/
def refusal (colour : Colour) : Handed → Thrown
  | .value (.string s) => .raised (Failure.raise (Chain.unreadable colour s))
  | x =>
    match x.plain.convert?.bind fun t => (x.rejection t).text? colour with
    | some message => .refused x message
    | none => .raised .unprintable

end Handed

namespace Thrown

/-- Whether the guard passes what was thrown: a failure of the library, and what has the shape of
one, wherever it comes from. -/
def isFailure : Thrown → Bool
  | .raised (.failure _) | .refused .. => true
  | .raised _ => false
  | .handed x => x.plain.isFailure

end Thrown

namespace Chain

/-- The chain that the two pieces around the first bracket tell. -/
def ofPieces (colour : Colour) (x word number : Handed) : Reading Chain := do
  if word.isUndefined then throw (x.refusal colour)
  else if !(← word.isWord (Text.ofString "unknown")) then throw (x.refusal colour)
  else if number.isUndefined then throw (x.refusal colour)
  else
    let t ← Reading.ofExcept number.text?
    let v := Value.number (number.toNumber t)
    if isUnsigned t && v.isU16 then Reading.ofAction (ofValue colour v)
    else throw (x.refusal colour)

/-- Reads what should be a text, member by member. -/
def parseByMembers (colour : Colour) (x : Handed) : Reading Chain := do
  if ← x.isWord (Text.ofString "any") then pure any
  else if ← x.isWord (Text.ofString "solana") then pure solana
  else
    let (word, number) ← x.pieces
    ofPieces colour x word number

/-- Like `parseByMembers`, but what the guard passes is an answer. -/
def tryParseByMembers (colour : Colour) (x : Handed) : Reading (Except Thrown Chain) :=
  tryCatch (Except.ok <$> parseByMembers colour x) fun t =>
    if t.isFailure then pure (.error t) else throw t

end Chain

end Interchain
