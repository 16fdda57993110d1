import Interchain.Text.Basic

/-! # Decimal texts

Numbers as ASCII digits, most significant first. `ofNat` writes no leading zero; `digitsValue`
reads any run of digits, leading zeros included.
-/

namespace Interchain.Text

def isDigit (u : UInt16) : Bool := unit '0' ≤ u && u ≤ unit '9'

def ofNat (n : Nat) : Text := (Nat.toDigits 10 n).map unit

def ofInt (n : Int) : Text :=
  if n < 0 then unit '-' :: ofNat n.natAbs else ofNat n.natAbs

def digitValue (u : UInt16) : Nat := u.toNat - (unit '0').toNat

def digitsValue (t : Text) : Nat := t.foldl (fun value u => 10 * value + digitValue u) 0

/-- The number that a text is the canonical decimal of: digits only, no leading zero. -/
def canonicalNat? (t : Text) : Option Nat :=
  if !t.isEmpty && t.all isDigit && (t.length == 1 || t.head? != some (unit '0')) then
    some t.digitsValue
  else none

end Interchain.Text
