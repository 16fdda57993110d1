import Interchain.Text.Decimal

/-! # Numbers

A number is a binary floating-point number of double precision: not a number, an infinity, or a
sign with a dyadic fraction. A finite number is `numerator / 2 ^ halvings` in lowest terms, so a
whole number has no halvings and two finite numbers with the same sign and the same fraction are
equal. Zero has two signs.
-/

namespace Interchain

inductive Number where
  | nan
  | infinite (negative : Bool)
  | finite (negative : Bool) (numerator halvings : Nat)
      (lowest : halvings = 0 ∨ numerator % 2 = 1)
  deriving DecidableEq

namespace Number

def signed (negative : Bool) (n : Nat) : Int := if negative then -(n : Int) else n

def whole (negative : Bool) (n : Nat) : Number := .finite negative n 0 (.inl rfl)

/-- A whole number; meant for magnitudes below `2 ^ 53`, which need no rounding. -/
def ofInt (n : Int) : Number := whole (n < 0) n.natAbs

def ofNat (n : Nat) : Number := whole false n

/-- The whole number that a number is, if it is one; both zeros are 0. -/
def toInt? : Number → Option Int
  | .finite negative numerator 0 _ => some (signed negative numerator)
  | _ => none

/-- The greatest number of 16 bits. -/
def maxU16 : Nat := 65535

/-- Whether a number is a whole number of 16 bits; both zeros are. -/
def isU16 (x : Number) : Bool :=
  match x.toInt? with
  | some n => 0 ≤ n && n ≤ maxU16
  | none => false

def isFinite : Number → Bool
  | .finite .. => true
  | _ => false

def isZero : Number → Bool
  | .finite _ numerator _ _ => numerator == 0
  | _ => false

def isNegativeZero : Number → Bool
  | .finite negative numerator _ _ => negative && numerator == 0
  | _ => false

def isPositive : Number → Bool
  | .finite negative numerator _ _ => !negative && numerator != 0
  | .infinite negative => !negative
  | .nan => false

/-- The number with the sign of a zero taken away. -/
def unsignZero (x : Number) : Number := if x.isZero then ofNat 0 else x

/-- Whether two numbers compare as equal: both zeros do, and what is not a number does not even
equal itself. -/
def equal (x y : Number) : Bool := x != .nan && x.unsignZero == y.unsignZero

/-- The whole numbers that need no rounding and are told apart from their neighbours. -/
def isSafe (n : Int) : Bool := n.natAbs < 1 <<< 53

end Number

end Interchain
