import Interchain.Failure.Basic

/-! # Hexadecimal bytes

Bytes are written after a `0x` with two lower-case digits each. Reading takes either case, with the
marker or without it, and reports the first pair that is no byte.
-/

namespace Interchain.Wire

def marker : Text := Text.ofString "0x"

/-- A text without its leading `0x` or `0X`, if it has one. -/
def stripMarker (t : Text) : Text :=
  if marker.isPrefixOf t || (Text.ofString "0X").isPrefixOf t then t.drop 2 else t

/-- Reads pairs of digits; the index is that of the next unit in the whole text. -/
def bytesOfDigits (index : Nat) : Text → Except HexFault (List UInt8)
  | high :: low :: rest =>
    match Text.hexValue? high, Text.hexValue? low with
    | some h, some l => (bytesOfDigits (index + 2) rest).map ((h * 16 + l).toUInt8 :: ·)
    | _, _ => .error (.badPair high low index)
  | _ => .ok []

/-- An odd length is reported before anything else. -/
def bytesOfHex (t : Text) : Except HexFault (List UInt8) :=
  let digits := stripMarker t
  if digits.length % 2 = 1 then .error (.oddLength digits.length) else bytesOfDigits 0 digits

def hexOfByte (b : UInt8) : Text := [Text.hexDigit (b.toNat / 16), Text.hexDigit (b.toNat % 16)]

def hexOfBytes (bytes : List UInt8) : Text := marker ++ bytes.flatMap hexOfByte

end Interchain.Wire
