import Interchain.Value.Json

/-! # JSON texts from parts

The JSON text of a container is put together from the JSON texts of its parts. `elementTexts?` and
`memberTexts?` write the parts: an element without a text is written as null, and a member without
one is left out. Nothing else of the parts is asked for (`jsonText?_array`, `jsonText?_object`,
`jsonText?_error`, `jsonText?_failure`), so parts with the same texts can stand for each other.
-/

namespace Interchain

namespace Json

def nullText : Text := Text.ofString "null"

/-- The text of an array with these texts as its elements. -/
def arrayText (elements : List Text) : Text :=
  Text.unit '[' :: Text.join comma elements ++ [Text.unit ']']

/-- A key with the text of its value. -/
def memberText (key value : Text) : Text := quoted key ++ Text.unit ':' :: value

/-- The text of an object with these texts as its members. -/
def objectText (members : List Text) : Text :=
  Text.unit '{' :: Text.join comma members ++ [Text.unit '}']

end Json

namespace Value

open Json (nullText arrayText memberText objectText)

/-- The texts of the elements of an array. -/
def elementTexts? (rule : BigInts) : List Value → Except Unwritable (List Text)
  | [] => .ok []
  | item :: rest => do
    let t ← item.jsonText? rule
    let ts ← elementTexts? rule rest
    .ok (t.getD nullText :: ts)

/-- The texts of the members of an object. -/
def memberTexts? (rule : BigInts) : List (Text × Value) → Except Unwritable (List Text)
  | [] => .ok []
  | (key, value) :: rest => do
    let t ← value.jsonText? rule
    let ts ← memberTexts? rule rest
    .ok (t.toList.map (memberText key) ++ ts)

variable {rule : BigInts}

theorem elementTexts?_eq (items : List Value) :
    elementTexts? rule items = (jsonItems rule items).map Json.itemTexts := by
  induction items with
  | nil => rfl
  | cons item rest ih =>
    rw [elementTexts?, jsonItems, jsonText?, ih]
    cases item.toJson? rule with
    | error e => rfl
    | ok j =>
      cases jsonItems rule rest with
      | error e => rfl
      | ok js => cases j <;> rfl

theorem memberTexts?_eq (fields : List (Text × Value)) :
    memberTexts? rule fields = (jsonFields rule fields).map Json.fieldTexts := by
  induction fields with
  | nil => rfl
  | cons p rest ih =>
    obtain ⟨key, value⟩ := p
    rw [memberTexts?, jsonFields, jsonText?, ih]
    cases value.toJson? rule with
    | error e => rfl
    | ok j =>
      cases jsonFields rule rest with
      | error e => rfl
      | ok js => cases j <;> rfl

/-! ### Containers -/

theorem jsonText?_array (items : List Value) :
    (array items).jsonText? rule =
      (elementTexts? rule items).map fun ts => some (arrayText ts) := by
  rw [jsonText?, toJson?, elementTexts?_eq]
  cases jsonItems rule items <;> rfl

theorem jsonText?_object (fields : List (Text × Value)) :
    (object fields).jsonText? rule =
      (memberTexts? rule fields).map fun ts => some (objectText ts) := by
  rw [jsonText?, toJson?, memberTexts?_eq]
  cases jsonFields rule fields <;> rfl

/-- An error from elsewhere is written as an object with its code as the one member. -/
theorem toJson?_error (name code : Value) (message : Text) :
    (error name message code).toJson? rule =
      (object [(Text.ofString "code", code)]).toJson? rule := by
  simp only [toJson?, jsonFields]
  cases code.toJson? rule with
  | error e => rfl
  | ok j => cases j <;> rfl

/-- A failure is written as an object with its name in front of its envelope. -/
theorem toJson?_failure (kind : FailureKind) (message : Text) (envelope : List (Text × Value)) :
    (failure kind message envelope).toJson? rule =
      (object ((Text.ofString "name", .string kind.name) :: envelope)).toJson? rule := by
  simp only [toJson?, jsonFields]
  cases jsonFields rule envelope <;> rfl

theorem jsonText?_error (name code : Value) (message : Text) :
    (error name message code).jsonText? rule =
      (object [(Text.ofString "code", code)]).jsonText? rule := by
  rw [jsonText?, jsonText?, toJson?_error]

theorem jsonText?_failure (kind : FailureKind) (message : Text)
    (envelope : List (Text × Value)) :
    (failure kind message envelope).jsonText? rule =
      (object ((Text.ofString "name", .string kind.name) :: envelope)).jsonText? rule := by
  rw [jsonText?, jsonText?, toJson?_failure]

end Value

end Interchain
