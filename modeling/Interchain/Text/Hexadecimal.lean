import Interchain.Text.Decimal

/-! # Hexadecimal digits

Digits are written in lower case and read in either case.
-/

namespace Interchain.Text

def hexDigit (n : Nat) : UInt16 :=
  if n < 10 then unit '0' + n.toUInt16 else unit 'a' + (n - 10).toUInt16

def hexValue? (u : UInt16) : Option Nat :=
  if isDigit u then some (digitValue u)
  else if unit 'a' ≤ u && u ≤ unit 'f' then some (u.toNat - (unit 'a').toNat + 10)
  else if unit 'A' ≤ u && u ≤ unit 'F' then some (u.toNat - (unit 'A').toNat + 10)
  else none

end Interchain.Text
