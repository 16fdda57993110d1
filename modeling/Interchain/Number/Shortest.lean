import Interchain.Number.Nearest

/-! # Shortest decimal texts

A finite number is written with the fewest digits that read back as the same number; of those the
nearest to it, and of two equally near the even one. The digits stand positionally from `1e-6` up
to below `1e21` and with an exponent outside.
-/

namespace Interchain.Number

/-- Decimal digits with the place of the point, counted from the front of the digits. -/
structure Digits where
  digits : Nat
  point : Int

def digitCount (n : Nat) : Nat := (Nat.toDigits 10 n).length

/-- The place of the point of a positive ratio: the least power of ten above it. -/
def decimalPoint (num den : Nat) : Int :=
  if den ≤ num then digitCount (num / den) else 1 - (digitCount ((den - 1) / num) : Int)

/-- The bounds of the ratios that round to a number, in quarters of its spacing around
`4 * steps`. Below a power of two the spacing halves. The bounds count only if the steps are
even. -/
structure Neighbourhood where
  steps : Nat
  exponent : Int

namespace Neighbourhood

def ofRatio (num den : Nat) : Neighbourhood :=
  let exponent := spacing num den
  ⟨num <<< (-exponent).toNat / den <<< exponent.toNat, exponent⟩

def lower (n : Neighbourhood) : Nat :=
  if n.steps = 1 <<< 52 ∧ -1074 < n.exponent then 4 * n.steps - 1 else 4 * n.steps - 2

def upper (n : Neighbourhood) : Nat := 4 * n.steps + 2

/-- Whether `digits * 10 ^ power` rounds to the number. Both sides are multiplied out. -/
def contains (n : Neighbourhood) (digits : Nat) (power : Int) : Bool :=
  let quarter := n.exponent - 2
  let candidate := (digits * Nat.pow 10 power.toNat) <<< (-quarter).toNat
  let unit := Nat.pow 10 (-power).toNat <<< quarter.toNat
  if n.steps % 2 = 0 then n.lower * unit ≤ candidate && candidate ≤ n.upper * unit
  else n.lower * unit < candidate && candidate < n.upper * unit

end Neighbourhood

/-- Of the two points of a decimal grid around a ratio that lie in its neighbourhood, the nearer,
and of two equally near the even one. -/
def onGrid? (num den : Nat) (power : Int) : Option Nat :=
  let hood := Neighbourhood.ofRatio num den
  let scaledNum := num * Nat.pow 10 (-power).toNat
  let scaledDen := den * Nat.pow 10 power.toNat
  let below := scaledNum / scaledDen
  let rest := scaledNum % scaledDen
  match hood.contains below power, hood.contains (below + 1) power with
  | true, true =>
    if 2 * rest < scaledDen then some below
    else if scaledDen < 2 * rest then some (below + 1)
    else some (below + below % 2)
  | true, false => some below
  | false, true => some (below + 1)
  | false, false => none

/-- The digits on the first grid with a hit, from one digit on. A count that has reached the next
power of ten is that power. -/
def shortestFrom (num den : Nat) (count : Nat) : Nat → Digits
  | 0 => ⟨num / den, digitCount (num / den)⟩
  | more + 1 =>
    let point := decimalPoint num den
    match onGrid? num den (point - count) with
    | some digits => if digits = Nat.pow 10 count then ⟨1, point + 1⟩ else ⟨digits, point⟩
    | none => shortestFrom num den (count + 1) more

/-- Seventeen digits always suffice. -/
def shortest (num den : Nat) : Digits := shortestFrom num den 1 17

namespace Digits

def zeros (n : Nat) : Text := List.replicate n (Text.unit '0')

/-- Exponent form: one digit, a point before any others, and a signed exponent. -/
def exponential (d : Digits) : Text :=
  let exponent := d.point - 1
  let mantissa :=
    match Text.ofNat d.digits with
    | first :: second :: rest => first :: Text.unit '.' :: second :: rest
    | short => short
  mantissa ++ [Text.unit 'e', Text.unit (if exponent < 0 then '-' else '+')]
    ++ Text.ofNat exponent.natAbs

def text (d : Digits) : Text :=
  let digits := Text.ofNat d.digits
  if (digits.length : Int) ≤ d.point ∧ d.point ≤ 21 then
    digits ++ zeros (d.point.toNat - digits.length)
  else if 0 < d.point ∧ d.point ≤ 21 then
    digits.take d.point.toNat ++ [Text.unit '.'] ++ digits.drop d.point.toNat
  else if -6 < d.point ∧ d.point ≤ 0 then
    Text.ofString "0." ++ zeros (-d.point).toNat ++ digits
  else d.exponential

end Digits

/-- The magnitude of a finite number as text. -/
def magnitudeText (numerator halvings : Nat) : Text :=
  if halvings = 0 ∧ numerator < 1 <<< 53 then Text.ofNat numerator
  else (shortest numerator (1 <<< halvings)).text

/-- The text of a number. Both zeros are written without a sign. -/
def text : Number → Text
  | .nan => Text.ofString "NaN"
  | .infinite negative => Text.ofString (if negative then "-Infinity" else "Infinity")
  | .finite negative numerator halvings _ =>
    if negative && numerator != 0 then Text.unit '-' :: magnitudeText numerator halvings
    else magnitudeText numerator halvings

end Interchain.Number
