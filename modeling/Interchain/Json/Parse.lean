import Interchain.Json.Print

/-! # Reading JSON texts

`parse?` accepts the JSON grammar and nothing else: blanks are space, tab, line feed and carriage
return, numbers have no leading zeros and no bare point, and strings hold no raw unit below U+0020.
A repeated key keeps its first place and takes its last value.
-/

namespace Interchain.Json

def isBlank (u : UInt16) : Bool := u = 0x20 || u = 0x09 || u = 0x0A || u = 0x0D

def skipBlanks (t : Text) : Text := t.dropWhile isBlank

/-- The rest of a text after a word it begins with. -/
def skipWord? (word t : Text) : Option Text :=
  if word.isPrefixOf t then some (t.drop word.length) else none

/-- The unit that a two-unit escape stands for. -/
def escaped? (letter : UInt16) : Option UInt16 :=
  if letter = quoteMark || letter = backslash || letter = Text.unit '/' then some letter
  else if letter = Text.unit 'b' then some 0x08
  else if letter = Text.unit 't' then some 0x09
  else if letter = Text.unit 'n' then some 0x0A
  else if letter = Text.unit 'f' then some 0x0C
  else if letter = Text.unit 'r' then some 0x0D
  else none

/-- The unit that four hexadecimal digits spell. -/
def hexUnit? (a b c d : UInt16) : Option UInt16 :=
  match Text.hexValue? a, Text.hexValue? b, Text.hexValue? c, Text.hexValue? d with
  | some a, some b, some c, some d => some (a * 4096 + b * 256 + c * 16 + d).toUInt16
  | _, _, _, _ => none

/-- The body of a string after its opening quote, and what follows its closing quote. -/
def string? : Text → Option (Text × Text)
  | [] => none
  | u :: rest =>
    if u = quoteMark then some ([], rest)
    else if u < 0x20 then none
    else if u = backslash then
      match rest with
      | [] => none
      | letter :: rest =>
        if letter = Text.unit 'u' then
          match rest with
          | a :: b :: c :: d :: rest =>
            match hexUnit? a b c d, string? rest with
            | some v, some (body, after) => some (v :: body, after)
            | _, _ => none
          | _ => none
        else
          match escaped? letter, string? rest with
          | some v, some (body, after) => some (v :: body, after)
          | _, _ => none
    else
      match string? rest with
      | some (body, after) => some (u :: body, after)
      | none => none

/-- A whole part without a superfluous leading zero. -/
def whole? (t : Text) : Option (Text × Text) :=
  let (digits, rest) := t.span Text.isDigit
  if digits = [] ∨ (1 < digits.length ∧ digits.head? = some (Text.unit '0')) then none
  else some (digits, rest)

/-- The digits after a point, or none where there is no point. -/
def fraction? : Text → Option (Text × Text)
  | [] => some ([], [])
  | u :: rest =>
    if u = Text.unit '.' then
      let (digits, rest) := rest.span Text.isDigit
      if digits = [] then none else some (digits, rest)
    else some ([], u :: rest)

/-- The exponent after its mark, or zero where there is no mark. -/
def exponent? : Text → Option (Int × Text)
  | [] => some (0, [])
  | u :: rest =>
    if u = Text.unit 'e' ∨ u = Text.unit 'E' then
      let (negative, rest) := Number.takeSign rest
      let (digits, rest) := rest.span Text.isDigit
      if digits = [] then none else some (Number.signed negative (Text.digitsValue digits), rest)
    else some (0, u :: rest)

def unsigned? (negative : Bool) (t : Text) : Option (Number × Text) := do
  let (whole, t) ← whole? t
  let (fraction, t) ← fraction? t
  let (exponent, t) ← exponent? t
  some (.ofDecimal negative (Text.digitsValue (whole ++ fraction)) (exponent - fraction.length), t)

def number? : Text → Option (Number × Text)
  | [] => none
  | u :: rest => if u = Text.unit '-' then unsigned? true rest else unsigned? false (u :: rest)

/-- A value that is not a container. -/
def scalar? (t : Text) : Option (Json × Text) :=
  match skipWord? (Text.ofString "null") t with
  | some rest => some (.null, rest)
  | none =>
    match skipWord? (Text.ofString "true") t with
    | some rest => some (.bool true, rest)
    | none =>
      match skipWord? (Text.ofString "false") t with
      | some rest => some (.bool false, rest)
      | none => (number? t).map fun (x, rest) => (.number x, rest)

mutual

/-- Reads one value after blanks. The fuel bounds the nested calls. -/
def value? : Nat → Text → Option (Json × Text)
  | 0, _ => none
  | fuel + 1, t =>
    match skipBlanks t with
    | [] => none
    | u :: rest =>
      if u = quoteMark then (string? rest).map fun (s, after) => (.string s, after)
      else if u = Text.unit '[' then
        match skipBlanks rest with
        | [] => none
        | v :: after =>
          if v = Text.unit ']' then some (.array [], after)
          else (items? fuel (v :: after)).map fun (items, after) => (.array items, after)
      else if u = Text.unit '{' then
        match skipBlanks rest with
        | [] => none
        | v :: after =>
          if v = Text.unit '}' then some (.object [], after)
          else
            (pairs? fuel (v :: after)).map fun (pairs, after) =>
              (.object (Fields.ofPairs pairs), after)
      else scalar? (u :: rest)

/-- Reads the elements of an array up to its closing bracket. -/
def items? : Nat → Text → Option (List Json × Text)
  | 0, _ => none
  | fuel + 1, t => do
    let (item, t) ← value? fuel t
    match skipBlanks t with
    | [] => none
    | u :: rest =>
      if u = Text.unit ']' then some ([item], rest)
      else if u = Text.unit ',' then
        let (items, rest) ← items? fuel rest
        some (item :: items, rest)
      else none

/-- Reads the members of an object up to its closing brace. -/
def pairs? : Nat → Text → Option (List (Text × Json) × Text)
  | 0, _ => none
  | fuel + 1, t => do
    let t ← skipWord? [quoteMark] (skipBlanks t)
    let (key, t) ← string? t
    let t ← skipWord? [Text.unit ':'] (skipBlanks t)
    let (value, t) ← value? fuel t
    match skipBlanks t with
    | [] => none
    | u :: rest =>
      if u = Text.unit '}' then some ([(key, value)], rest)
      else if u = Text.unit ',' then
        let (pairs, rest) ← pairs? fuel rest
        some ((key, value) :: pairs, rest)
      else none

end

/-- Reads a whole document. Each nested call but the last of a level is paid for by a unit. -/
def parse? (t : Text) : Option Json :=
  match value? (2 * t.length + 2) t with
  | some (json, rest) => if skipBlanks rest = [] then some json else none
  | none => none

end Interchain.Json
