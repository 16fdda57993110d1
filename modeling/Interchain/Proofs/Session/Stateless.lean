import Interchain.Proofs.Document.Revive
import Interchain.Proofs.Session.Forget

/-! # The library without objects

The same library in which a chain is nothing but its number. There is no registry: an operation is a
function of its arguments, and all that a session keeps is which numbers were given out. What a text,
bytes or a document say is decided by what they spell (`Chain.parsed`, `Wire.decoded`,
`Document.positions`), and two chains are told apart by their numbers alone.
-/

namespace Interchain.Stateless

/-- The plain chain of a number. Both zeros have the same. -/
def chainOf (x : Number) : Chain := .plain x.unsignZero

def give (x : Except Raised Number) : Except Raised Chain := x.map chainOf

section

variable (colour : Colour)

def ofValue (v : Value) : Except Raised Chain := give (v.requireU16 colour Chain.numberSite)

instance : Issuer (Except Raised) := ⟨id, ofValue⟩

def ofKey : Option Text → Except Raised Chain
  | some s => ofValue colour (Chain.numberOfName s)
  | none => .error .wrongKind

def coalesce : Value → Except Raised Chain
  | .chain c => .ok c
  | .number x => ofValue colour (.number x)
  | .string s => ofValue colour (Chain.numberOfName s)
  | .symbol _ => ofValue colour .undefined
  | v => ofKey colour v.convert?

def parse : Value → Except Raised Chain
  | .string s => give (Chain.parsed colour s)
  | _ => .error .wrongKind

def tryParse (v : Value) : Except Raised (Except Failure Chain) :=
  match parse colour v with
  | .ok c => .ok (.ok c)
  | .error (.failure f) => .ok (.error f)
  | .error fault => .error fault

def reviveEntry (keys : List Text) (key : Text) (v : Value) : Except Raised Value :=
  if key ∈ keys then .chain <$> give (v.requireU16 colour (Chain.reviveSite key)) else .ok v

def revive (keys : List Text) (document : Text) : Except Raised Value :=
  match Json.parse? document with
  | none => .error .malformed
  | some t =>
    match (Document.positions [] t).find? (Document.offends keys) with
    | none => .ok (Document.replaced chainOf keys [] t)
    | some p => .error (Document.refusal colour keys chainOf p)

def perform : Call → Except Raised Answer
  | .ofValue v => .chain <$> ofValue colour v
  | .ofName name => .chain <$> ofValue colour (Chain.numberOfName name)
  | .coalesce v => .chain <$> coalesce colour v
  | .parse v => .chain <$> parse colour v
  | .tryParse v => .attempt <$> tryParse colour v
  | .deserialize v => .chain <$> give (v.requireU16 colour Chain.deserializeSite)
  | .revive keys document => .value <$> revive colour keys document
  | .reviveEntry keys key v => .value <$> reviveEntry colour keys key v
  | .decode bytes offset endian => .chain <$> give (Wire.decoded colour bytes offset endian)
  | .decodeHex hex endian => .chain <$> give (Wire.decodedHex colour hex endian)
  | .query q => q.answer colour

/-- The outcome of a request after earlier ones gave out these numbers. -/
def answer (numbers : List (Given Number)) (request : Request) : Except Raised Answer := do
  let call ← request.call colour (numbers.map (Given.map Chain.plain))
  perform colour call

end

/-- The numbers of the chains that an outcome gives out. -/
def given (outcome : Except Raised Answer) : Given Number := (Session.given outcome).map Chain.value

/-- The first request that answered with a number, counting the latest one last. -/
def firstReturn (numbers : List (Given Number)) (x : Number) : Nat :=
  numbers.findIdx fun given => given.chain? == some x

/-- The first request that gave out a number, counting the latest one last. -/
def origin (numbers : List (Given Number)) (x : Number) : Nat :=
  numbers.findIdx fun given => given.all.contains x

def step (colour : Colour) (numbers : List (Given Number)) (request : Request) :
    Reply × List (Given Number) :=
  let outcome := answer colour numbers request
  let given := given outcome
  (⟨outcome, given.chain?.map (firstReturn numbers), given.all.map (origin numbers)⟩,
    numbers ++ [given])

/-- The replies to requests in turn. -/
def run (colour : Colour) (numbers : List (Given Number)) : List Request → List Reply
  | [] => []
  | request :: rest =>
    let (reply, numbers) := step colour numbers request
    reply :: run colour numbers rest

end Interchain.Stateless
