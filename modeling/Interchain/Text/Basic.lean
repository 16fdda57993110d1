/-! # Texts

A text is a list of 16-bit units. Lengths, slices and positions count units, so a character above
U+FFFF has length two, and a cut may part the two halves of its surrogate pair.
-/

namespace Interchain

abbrev Text := List UInt16

namespace Text

/-- The unit of a character below U+10000. -/
def unit (c : Char) : UInt16 := c.toNat.toUInt16

/-- One unit below U+10000, a surrogate pair from there on. -/
def ofChar (c : Char) : Text :=
  if c.toNat < 0x10000 then [unit c]
  else
    [(0xD800 + (c.toNat - 0x10000) / 0x400).toUInt16,
      (0xDC00 + (c.toNat - 0x10000) % 0x400).toUInt16]

def ofString (s : String) : Text := s.toList.flatMap ofChar

def isHighSurrogate (u : UInt16) : Bool := 0xD800 ≤ u && u ≤ 0xDBFF

def isLowSurrogate (u : UInt16) : Bool := 0xDC00 ≤ u && u ≤ 0xDFFF

/-- The character of one unit; a surrogate on its own stands for no character and becomes the
replacement character. -/
def charOfUnit (u : UInt16) : Char :=
  if isHighSurrogate u || isLowSurrogate u then '\uFFFD' else Char.ofNat u.toNat

/-- Reads surrogate pairs as one character each. -/
def toChars : Text → List Char
  | [] => []
  | [u] => [charOfUnit u]
  | u :: v :: rest =>
    if isHighSurrogate u && isLowSurrogate v then
      Char.ofNat (0x10000 + (u.toNat - 0xD800) * 0x400 + (v.toNat - 0xDC00)) :: toChars rest
    else charOfUnit u :: toChars (v :: rest)

def toString (t : Text) : String := String.ofList t.toChars

/-- Maps A to Z to a to z and leaves every other unit alone. -/
def lowerUnit (u : UInt16) : UInt16 :=
  if unit 'A' ≤ u && u ≤ unit 'Z' then u + 32 else u

def lower (t : Text) : Text := t.map lowerUnit

/-- The texts in order, with a separator between neighbours. -/
def join (separator : Text) (parts : List Text) : Text := separator.intercalate parts

def ellipsis : Text := ofString "…"

/-- How many units each end keeps when a text is cut to a limit. -/
def endLength (limit : Nat) : Nat := max 10 ((limit - 1) / 2)

/-- A text longer than the limit keeps its two ends around an ellipsis. -/
def elide (limit : Nat) (t : Text) : Text :=
  if t.length ≤ limit then t
  else t.take (endLength limit) ++ ellipsis ++ t.drop (t.length - endLength limit)

end Text

end Interchain
