import Interchain.Chain.Number

/-! # Chain names

Two chains have names, matched exactly and in lower case.
-/

namespace Interchain.Chain

/-- The names with their numbers. -/
def names : Fields Number := [(Text.ofString "any", .ofNat 0), (Text.ofString "solana", .ofNat 1)]

/-- The numbers with their names. -/
def nameTable : List (Number × Text) := names.map fun (name, n) => (n, name)

def isName (s : Text) : Bool := Fields.has s names

def name? (c : Chain) : Option Text := nameTable.lookup c.value.unsignZero

def nameRejection (s : Text) : Envelope Value :=
  ⟨resource, operation "name", Envelope.validation,
    Text.ofString "Unknown chain name: " ++ s, some [(Text.ofString "name", .string s)], .undefined⟩

def requireName (colour : Colour) (s : Text) : Except Raised Unit :=
  if isName s then .ok () else .error (Failure.reject colour (nameRejection s))

/-- The number under a name as a value, and undefined under any other text. The few texts under which
every object has a member of its own accord, such as `toString`, are not told from the others. -/
def numberOfName (s : Text) : Value :=
  match Fields.get? s names with
  | some n => .number n
  | none => .undefined

def ofName (colour : Colour) (s : Text) : Action Chain := ofValue colour (numberOfName s)

/-- The chain of the name that something is taken for. What has no text is taken for none. -/
def ofKey (colour : Colour) : Option Text → Action Chain
  | some s => ofName colour s
  | none => throw .wrongKind

/-- The chain that is given as itself, as its number or by its name. Any other value is taken for the
name that its text is, except that a symbol is no name. -/
def coalesce (colour : Colour) : Value → Action Chain
  | .chain c => pure c
  | .number x => ofValue colour (.number x)
  | .string s => ofName colour s
  | .symbol _ => ofValue colour .undefined
  | v => ofKey colour v.convert?

end Interchain.Chain
