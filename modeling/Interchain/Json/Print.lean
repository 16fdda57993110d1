import Interchain.Json.Basic
import Interchain.Text.Hexadecimal

/-! # The text of a JSON tree

A tree is written without blanks. In strings the quote, the backslash, the units below U+0020 and
surrogates without their other half are escaped; all other units stand for themselves.
-/

namespace Interchain.Json

def quoteMark : UInt16 := Text.unit '"'

def backslash : UInt16 := Text.unit '\\'

/-- The letter of a two-unit escape. -/
def escapeLetter? (u : UInt16) : Option UInt16 :=
  if u = quoteMark || u = backslash then some u
  else if u = 0x08 then some (Text.unit 'b')
  else if u = 0x09 then some (Text.unit 't')
  else if u = 0x0A then some (Text.unit 'n')
  else if u = 0x0C then some (Text.unit 'f')
  else if u = 0x0D then some (Text.unit 'r')
  else none

/-- The escape that spells a unit in four hexadecimal digits. -/
def escapeHex (u : UInt16) : Text :=
  [backslash, Text.unit 'u', Text.hexDigit (u.toNat / 4096), Text.hexDigit (u.toNat / 256 % 16),
    Text.hexDigit (u.toNat / 16 % 16), Text.hexDigit (u.toNat % 16)]

/-- A unit that is not part of a surrogate pair. -/
def writtenUnit (u : UInt16) : Text :=
  match escapeLetter? u with
  | some letter => [backslash, letter]
  | none =>
    if u < 0x20 || Text.isHighSurrogate u || Text.isLowSurrogate u then escapeHex u else [u]

def writtenUnits : Text → Text
  | [] => []
  | [u] => writtenUnit u
  | u :: v :: rest =>
    if Text.isHighSurrogate u && Text.isLowSurrogate v then u :: v :: writtenUnits rest
    else writtenUnit u ++ writtenUnits (v :: rest)

def quoted (t : Text) : Text := quoteMark :: writtenUnits t ++ [quoteMark]

def comma : Text := [Text.unit ',']

mutual

def text : Json → Text
  | .null => Text.ofString "null"
  | .bool b => Text.ofString (if b then "true" else "false")
  | .number x => x.text
  | .string t => quoted t
  | .array items => Text.unit '[' :: Text.join comma (itemTexts items) ++ [Text.unit ']']
  | .object fields => Text.unit '{' :: Text.join comma (fieldTexts fields) ++ [Text.unit '}']

def itemTexts : List Json → List Text
  | [] => []
  | item :: rest => item.text :: itemTexts rest

def fieldTexts : List (Text × Json) → List Text
  | [] => []
  | (key, value) :: rest => (quoted key ++ Text.unit ':' :: value.text) :: fieldTexts rest

end

end Interchain.Json
