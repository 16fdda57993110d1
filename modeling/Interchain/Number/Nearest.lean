import Interchain.Number.Basic

/-! # The nearest number

`ofRatio` rounds an exact ratio to the nearest number, ties to the even neighbour, and `ofDecimal`
does so for `digits * 10 ^ exponent`. `ofText` reads a decimal literal.
-/

namespace Interchain.Number

/-- The quotient rounded to the nearest whole number, a half to the even one. -/
def roundHalfEven (num den : Nat) : Nat :=
  let quotient := num / den
  let twice := 2 * (num % den)
  if twice < den then quotient
  else if den < twice then quotient + 1
  else quotient + quotient % 2

/-- The number `numerator / 2 ^ halvings`, with common factors two cancelled. -/
def ofHalvings (negative : Bool) (numerator : Nat) : Nat → Number
  | 0 => whole negative numerator
  | halvings + 1 =>
    if h : numerator % 2 = 1 then .finite negative numerator (halvings + 1) (.inr h)
    else ofHalvings negative (numerator / 2) halvings

/-- The exponent of the power of two at or below a positive ratio. -/
def binaryExponent (num den : Nat) : Int :=
  let estimate : Int := (num.log2 : Int) - den.log2
  if den <<< estimate.toNat ≤ num <<< (-estimate).toNat then estimate else estimate - 1

/-- The exponent of the spacing between numbers near a positive ratio: 53 binary digits, and
nothing finer than `2 ^ -1074`. -/
def spacing (num den : Nat) : Int := max (binaryExponent num den - 52) (-1074)

/-- A count of steps of size `2 ^ exponent`; from `2 ^ 1024` on it is infinite. -/
def ofSteps (negative : Bool) (steps : Nat) (exponent : Int) : Number :=
  match exponent with
  | .ofNat e =>
    if 1 <<< 1024 ≤ steps <<< e then .infinite negative else whole negative (steps <<< e)
  | .negSucc e => ofHalvings negative steps (e + 1)

/-- The number nearest to a ratio. A whole ratio below `2 ^ 53` is a number itself. -/
def ofRatio (negative : Bool) (num den : Nat) : Number :=
  if num % den = 0 ∧ num / den < 1 <<< 53 then whole negative (num / den)
  else
    let exponent := spacing num den
    ofSteps negative
      (roundHalfEven (num <<< (-exponent).toNat) (den <<< exponent.toNat)) exponent

/-- The number nearest to `digits * 10 ^ exponent`. Beyond the first two bounds the answer is
known without computing the power of ten. -/
def ofDecimal (negative : Bool) (digits : Nat) (exponent : Int) : Number :=
  if digits = 0 then whole negative 0
  else if 400 < exponent then .infinite negative
  else if (digits.log2 : Int) + 1100 < -3 * exponent then whole negative 0
  else ofRatio negative (digits * Nat.pow 10 exponent.toNat) (Nat.pow 10 (-exponent).toNat)

/-- A sign and the rest of a text. -/
def takeSign : Text → Bool × Text
  | u :: rest =>
    if u = Text.unit '-' then (true, rest)
    else if u = Text.unit '+' then (false, rest)
    else (false, u :: rest)
  | [] => (false, [])

/-- A whole exponent after its mark, or none where there is no mark. -/
def exponent? : Text → Option Int
  | [] => some 0
  | mark :: rest =>
    let (negative, digits) := takeSign rest
    if (mark = Text.unit 'e' ∨ mark = Text.unit 'E') ∧ digits ≠ [] ∧ digits.all Text.isDigit then
      some (signed negative digits.digitsValue)
    else none

/-- An unsigned decimal literal: digits with at most one point among them, at least one digit, and
perhaps an exponent. -/
def ofUnsigned (negative : Bool) (t : Text) : Number :=
  let (whole, afterWhole) := t.span Text.isDigit
  let (fraction, afterFraction) :=
    match afterWhole with
    | u :: rest => if u = Text.unit '.' then rest.span Text.isDigit else ([], u :: rest)
    | [] => ([], [])
  if whole.isEmpty && fraction.isEmpty then .nan
  else
    match exponent? afterFraction with
    | some e => ofDecimal negative (Text.digitsValue (whole ++ fraction)) (e - fraction.length)
    | none => .nan

/-- Reads a decimal literal or `Infinity`, each with an optional sign; any other text is not a
number. -/
def ofText (t : Text) : Number :=
  let (negative, rest) := takeSign t
  if rest = Text.ofString "Infinity" then .infinite negative else ofUnsigned negative rest

end Interchain.Number
