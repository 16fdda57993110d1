import Interchain.Value.Basic

/-! # Faults of hexadecimal texts

A text of hexadecimal digits has an even number of them, and each pair spells a byte. A fault names
the length, or the first pair that spells none with its place.
-/

namespace Interchain

inductive HexFault where
  | oddLength (length : Nat)
  | badPair (first second : UInt16) (index : Nat)
  deriving DecidableEq

namespace HexFault

def message : HexFault → Text
  | .oddLength length =>
    Text.ofString "hex string expected, got unpadded hex of length " ++ Text.ofNat length
  | .badPair first second index =>
    Text.ofString "hex string expected, got non-hex character \"" ++ [first, second]
      ++ Text.ofString "\" at index " ++ Text.ofNat index

/-- The fault as an error value. -/
def toValue (fault : HexFault) : Value :=
  .error (.string (Text.ofString "Error")) fault.message .undefined

end HexFault

end Interchain
