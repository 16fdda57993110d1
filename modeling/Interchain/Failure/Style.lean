import Interchain.Text.Decimal

/-! # Terminal styles

A style is switched on and off by two control sequences. Painting a text puts it between them; it
switches the style on again after each place in the text that switches it off, and keeps it off
across line breaks.
-/

namespace Interchain

/-- How much colour a terminal shows. All but the first paint alike. -/
inductive Colour where
  | plain
  | basic
  | indexed
  | full
  deriving DecidableEq

structure Style where
  start : Nat
  stop : Nat

namespace Style

def escapeUnit : UInt16 := 0x1B

def lineFeed : UInt16 := 0x0A

def carriageReturn : UInt16 := 0x0D

/-- The control sequence with one number. -/
def sequence (n : Nat) : Text :=
  [escapeUnit, Text.unit '['] ++ Text.ofNat n ++ [Text.unit 'm']

def red : Style := ⟨31, 39⟩

def yellow : Style := ⟨33, 39⟩

def bold : Style := ⟨1, 22⟩

def dim : Style := ⟨2, 22⟩

/-- Puts a text after each occurrence of a pattern, from left to right. The units since the last
occurrence are kept, the latest first. -/
def insertAfter (pattern addition : Text) (seen : Text) : Text → Text
  | [] => []
  | u :: rest =>
    if pattern.reverse.isPrefixOf (u :: seen) then
      u :: addition ++ insertAfter pattern addition [] rest
    else u :: insertAfter pattern addition (u :: seen) rest

/-- Puts one text before each line break and another after it. -/
def aroundBreaks (before after : Text) : Text → Text
  | [] => []
  | [u] => if u = lineFeed then before ++ [u] ++ after else [u]
  | u :: v :: rest =>
    if u = lineFeed then before ++ [u] ++ after ++ aroundBreaks before after (v :: rest)
    else if u = carriageReturn ∧ v = lineFeed then
      before ++ [u, v] ++ after ++ aroundBreaks before after rest
    else u :: aroundBreaks before after (v :: rest)

/-- A text in a style. Without colour, and for the empty text, nothing is added. -/
def paint (colour : Colour) (style : Style) (t : Text) : Text :=
  if colour = .plain ∨ t = [] then t
  else
    let on := sequence style.start
    let off := sequence style.stop
    on ++ aroundBreaks off on (insertAfter off on [] t) ++ off

end Style

end Interchain
