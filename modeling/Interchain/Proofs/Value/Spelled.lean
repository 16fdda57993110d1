import Interchain.Proofs.Failure.Lines
import Interchain.Proofs.Value.JsonText

/-! # Values of a context as text

A value of a context is shown by its JSON text, in which big integers are spelt out. Spelling them
while the value is written comes to the same as putting their texts in their place beforehand, at
every depth and in every kind of container (`jsonText?_spelled`). A text of more than 120 units is
cut: it keeps its first and its last 59 units around an ellipsis, and is shorter for it
(`contextText?_spelled`).
-/

namespace Interchain

namespace Value

/-! ### Big integers -/

mutual

/-- A value with each big integer that is written with it spelt as text. -/
def spelled : Value → Value
  | .bigint n => .string (Text.ofInt n ++ [Text.unit 'n'])
  | .array items => .array (spelledItems items)
  | .object fields => .object (spelledFields fields)
  | .error name message code => .error name message (spelled code)
  | .failure kind message envelope => .failure kind message (spelledFields envelope)
  | v => v

def spelledItems : List Value → List Value
  | [] => []
  | item :: rest => spelled item :: spelledItems rest

def spelledFields : List (Text × Value) → List (Text × Value)
  | [] => []
  | (key, value) :: rest => (key, spelled value) :: spelledFields rest

end

mutual

/-- **Big integers may be spelt beforehand.** Then none is left that could not be written. -/
theorem jsonText?_spelled : ∀ v : Value, v.spelled.jsonText? .refused = v.jsonText? .spelt
  | .array items => by
    rw [spelled, jsonText?_array, jsonText?_array, elementTexts?_spelled items]
  | .object fields => by
    rw [spelled, jsonText?_object, jsonText?_object, memberTexts?_spelled fields]
  | .error name message code => by
    have htext := jsonText?_spelled code
    simp only [spelled, jsonText?_error, jsonText?_object, memberTexts?, htext]
  | .failure kind message envelope => by
    have htexts := memberTexts?_spelled envelope
    have hname : (Value.string kind.name).jsonText? .refused =
        (Value.string kind.name).jsonText? .spelt := rfl
    simp only [spelled, jsonText?_failure, jsonText?_object, memberTexts?, hname, htexts]
  | .bigint _ => rfl
  | .undefined => rfl
  | .null => rfl
  | .bool _ => rfl
  | .number _ => rfl
  | .string _ => rfl
  | .symbol _ => rfl
  | .chain _ => rfl
  | .circular _ => rfl

theorem elementTexts?_spelled : ∀ items : List Value,
    elementTexts? .refused (spelledItems items) = elementTexts? .spelt items
  | [] => rfl
  | item :: rest => by
    rw [spelledItems, elementTexts?, elementTexts?, jsonText?_spelled item,
      elementTexts?_spelled rest]

theorem memberTexts?_spelled : ∀ fields : List (Text × Value),
    memberTexts? .refused (spelledFields fields) = memberTexts? .spelt fields
  | [] => rfl
  | (key, value) :: rest => by
    rw [spelledFields, memberTexts?, memberTexts?, jsonText?_spelled value,
      memberTexts?_spelled rest]

end

/-! ### Values of a context -/

/-- **How a value of a context is shown.** Let the value have no circular part and be neither
nothing at all nor a symbol. Then it has a JSON text once its big integers are spelt, and it can
always be shown: by this text if that has at most 120 units, and otherwise by the first 59 units of
it, the ellipsis and the last 59. So what is shown never has more than 120 units, and it is shorter
than the JSON text unless it is that text. -/
theorem contextText?_spelled {v : Value} (hacyclic : ¬∃ shape, v.Meets (.circular shape))
    (hundefined : v ≠ .undefined) (hsymbol : ∀ description, v ≠ .symbol description) :
    ∃ j t, v.spelled.jsonText? .refused = .ok (some j) ∧ Envelope.contextText? v = some t ∧
      (∀ key, Envelope.entryText? (key, v) = some (key ++ Text.ofString "=" ++ t)) ∧
      (j.length ≤ 120 → t = j) ∧
      (120 < j.length →
        t = j.take 59 ++ Text.ofString "…" ++ j.drop (j.length - 59)) ∧
      t.length ≤ 120 ∧ (t ≠ j → t.length < j.length) := by
  obtain ⟨json, hjson⟩ := written_of_acyclic hacyclic hundefined hsymbol
  have hwritten : v.jsonText? .spelt = .ok (some json.text) := by
    rw [jsonText?, hjson]
    rfl
  have hshown : Envelope.contextText? v = some (json.text.elide Envelope.contextLimit) := by
    rw [Envelope.contextText?, hwritten]
  have hlimit : 2 * Text.endLength Envelope.contextLimit < Envelope.contextLimit := by decide
  refine ⟨json.text, json.text.elide Envelope.contextLimit, ?_, hshown, ?_, ?_, ?_, ?_, ?_⟩
  · rw [jsonText?_spelled, hwritten]
  · intro key
    rw [Envelope.entryText?, hshown, List.append_assoc]
    rfl
  · intro hle
    exact Text.elide_of_le hle
  · intro hlt
    exact Text.elide_of_lt hlt
  · exact Text.length_elide_le hlimit json.text
  · intro hne
    exact Text.length_elide_lt hlimit hne

/-- Big integers as a member and as the code of an error, in front of a long text. -/
def longContext : Value :=
  .object [(Text.ofString "n", .bigint (-7)),
    (Text.ofString "e", .error .undefined [] (.bigint 12)),
    (Text.ofString "s", .string (List.replicate 100 (Text.unit 'x')))]

theorem contextText?_spelled_long :
    (¬∃ shape, longContext.Meets (.circular shape)) ∧ longContext ≠ .undefined ∧
    (∀ description, longContext ≠ .symbol description) ∧
    ∃ j, longContext.spelled.jsonText? .refused = .ok (some j) ∧ j.length = 137 ∧
      j.take 33 = Text.ofString "\x7b\"n\":\"-7n\",\"e\":\x7b\"code\":\"12n\"\x7d,\"s\"" ∧
      Envelope.contextText? longContext =
        some (j.take 59 ++ Text.ofString "…" ++ j.drop 78) := by
  have hacyclic : ¬∃ shape, longContext.Meets (.circular shape) := by
    rw [← toJson?_spelt_eq_error_iff]
    rintro ⟨e, he⟩
    cases he
  have hundefined : longContext ≠ .undefined := by
    intro h
    cases h
  have hsymbol : ∀ description, longContext ≠ .symbol description := by
    intro description h
    cases h
  obtain ⟨j, t, hj, ht, -, -, hcut, -⟩ := contextText?_spelled hacyclic hundefined hsymbol
  have hlength : j.length = 137 ∧
      j.take 33 = Text.ofString "\x7b\"n\":\"-7n\",\"e\":\x7b\"code\":\"12n\"\x7d,\"s\"" := by
    cases hj
    decide +kernel
  refine ⟨hacyclic, hundefined, hsymbol, j, hj, hlength.1, hlength.2, ?_⟩
  rw [ht, hcut (by omega), hlength.1]

end Value

end Interchain
