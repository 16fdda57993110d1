import Interchain.Value.Basic

/-! # The text of a value

Nearly every value has a text. The exceptions are a symbol inside another value, which refuses to
become text, and an object that defines `toString` itself, which is then no longer a function.
-/

namespace Interchain.Value

def colon : Text := Text.ofString ": "

/-- The name of an error before its message; either stands alone if the other is empty. -/
def errorText (name message : Text) : Text :=
  if name = [] then message
  else if message = [] then name
  else name ++ colon ++ message

mutual

/-- The text a value is converted to, if it has one. -/
def convert? : Value → Option Text
  | .undefined => some (Text.ofString "undefined")
  | .null => some (Text.ofString "null")
  | .bool b => some (Text.ofString (if b then "true" else "false"))
  | .number x => some x.text
  | .bigint n => some (Text.ofInt n)
  | .string t => some t
  | .symbol _ => none
  | .array items => (convertItems? items).map (Text.join [Text.unit ','])
  | .object fields =>
    if Fields.has (Text.ofString "toString") fields then none
    else some (Text.ofString "[object Object]")
  | .chain c => some c.text
  | .error .undefined message _ => some (errorText (Text.ofString "Error") message)
  | .error name message _ => (convert? name).map fun name => errorText name message
  | .failure kind message _ => some (errorText kind.name message)
  | .circular .array => some []
  | .circular .object => some (Text.ofString "[object Object]")

/-- The texts of array elements; nothing and undefined have empty ones. -/
def convertItems? : List Value → Option (List Text)
  | [] => some []
  | .undefined :: rest => (convertItems? rest).map ([] :: ·)
  | .null :: rest => (convertItems? rest).map ([] :: ·)
  | item :: rest =>
    match convert? item, convertItems? rest with
    | some t, some ts => some (t :: ts)
    | _, _ => none

end

/-- The text that shows a value to a reader; here a symbol itself has a text, too. -/
def describe? : Value → Option Text
  | .symbol description =>
    some (Text.ofString "Symbol(" ++ description ++ Text.ofString ")")
  | v => v.convert?

end Interchain.Value
