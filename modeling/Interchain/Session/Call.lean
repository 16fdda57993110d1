import Interchain.Session.Query

/-! # Calls

A call is one operation of the library with its arguments in hand: one that may ask for chains, or
a query. It runs against the registry and gives an answer or raises.
-/

namespace Interchain

inductive Call where
  | ofValue (v : Value)
  | ofName (name : Text)
  | coalesce (v : Value)
  | parse (v : Value)
  | tryParse (v : Value)
  | deserialize (v : Value)
  | revive (keys : List Text) (document : Text)
  | reviveEntry (keys : List Text) (key : Text) (v : Value)
  | decode (bytes : List UInt8) (offset : Value) (endian : Wire.Endian)
  | decodeHex (hex : Text) (endian : Wire.Endian)
  | query (q : Query)

namespace Call

/-- Carries out a call. -/
def perform (colour : Colour) : Call → Action Answer
  | ofValue v => .chain <$> Chain.ofValue colour v
  | ofName name => .chain <$> Chain.ofName colour name
  | coalesce v => .chain <$> Chain.coalesce colour v
  | parse v => .chain <$> Chain.parseValue colour v
  | tryParse v => .attempt <$> Chain.tryParse colour v
  | deserialize v => .chain <$> Chain.deserialize colour v
  | revive keys document => .value <$> Chain.revive colour keys document
  | reviveEntry keys key v => .value <$> Chain.reviveEntry colour keys key v
  | decode bytes offset endian => .chain <$> Wire.decode colour bytes offset endian
  | decodeHex hex endian => .chain <$> Wire.decodeHex colour hex endian
  | query q => Action.ofExcept (q.answer colour)

end Call

end Interchain
