import Interchain.Number.Nearest

/-! # Differences and words of numbers

The exact difference of two numbers is rounded to the nearest number. A number is cut to a word of
16 bits by dropping its fraction and then all higher binary digits.
-/

namespace Interchain.Number

/-- The difference of two finite numbers. Only negative zero less zero is negative zero. -/
def subFinite (negative negative' : Bool) (numerator halvings numerator' halvings' : Nat) :
    Number :=
  let difference : Int :=
    signed negative (numerator <<< halvings') - signed negative' (numerator' <<< halvings)
  if difference = 0 then whole (negative && !negative') 0
  else ofRatio (difference < 0) difference.natAbs (1 <<< (halvings + halvings'))

def sub : Number → Number → Number
  | .finite negative numerator halvings _, .finite negative' numerator' halvings' _ =>
    subFinite negative negative' numerator halvings numerator' halvings'
  | .infinite negative, .infinite negative' =>
    if negative = negative' then .nan else .infinite negative
  | .infinite negative, .finite .. => .infinite negative
  | .finite .., .infinite negative => .infinite (!negative)
  | .nan, _ | _, .nan => .nan

/-- The lowest 16 binary digits of the whole part; none for what is not finite. -/
def toWord : Number → UInt16
  | .finite negative numerator halvings _ =>
    UInt16.ofNat ((signed negative (numerator >>> halvings)) % 65536).toNat
  | _ => 0

end Interchain.Number
