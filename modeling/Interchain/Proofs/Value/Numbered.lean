import Interchain.Proofs.Value.JsonText
import Interchain.Proofs.Value.Unshowable
import Interchain.Session.Query

/-! # Chains as numbers

Nobody who reads JSON can tell a chain from its number. `Numbered v w` says that `w` is `v` with
chains replaced by their numbers, wherever they stand: in arrays and objects, in the code of an
error and in the envelope of a failure; `v.numbers` has all of them replaced. The texts of `v` and
`w` are put together from the same texts, so they are the same, and where one cannot be written, the
other cannot either (`jsonText?_numbered`). A value of a context is shown by its JSON text, unless
it is circular; so there, too, a chain and its number look alike.
-/

namespace Interchain

namespace Value

mutual

/-- The second value is the first with chains replaced by their numbers, all of them or only some.
A failure was laid out with the chains or with the numbers, so its message may be another. -/
def Numbered : Value → Value → Prop
  | .chain c, w => w = .number c.value ∨ w = .chain c
  | .array items, w => ∃ items', w = .array items' ∧ NumberedItems items items'
  | .object fields, w => ∃ fields', w = .object fields' ∧ NumberedFields fields fields'
  | .error name message code, w => ∃ code', w = .error name message code' ∧ Numbered code code'
  | .failure kind _ envelope, w =>
    ∃ message envelope', w = .failure kind message envelope' ∧ NumberedFields envelope envelope'
  | v, w => w = v

/-- The elements are those of the first list with chains replaced. -/
def NumberedItems : List Value → List Value → Prop
  | [], items => items = []
  | item :: rest, items =>
    ∃ item' rest', items = item' :: rest' ∧ Numbered item item' ∧ NumberedItems rest rest'

/-- The members are those of the first list with chains replaced, under the same keys. -/
def NumberedFields : List (Text × Value) → List (Text × Value) → Prop
  | [], fields => fields = []
  | (key, value) :: rest, fields =>
    ∃ value' rest', fields = (key, value') :: rest' ∧ Numbered value value' ∧
      NumberedFields rest rest'

end

mutual

/-- A value with every chain replaced by its number. -/
def numbers : Value → Value
  | .chain c => .number c.value
  | .array items => .array (numbersItems items)
  | .object fields => .object (numbersFields fields)
  | .error name message code => .error name message (numbers code)
  | .failure kind message envelope => .failure kind message (numbersFields envelope)
  | v => v

def numbersItems : List Value → List Value
  | [] => []
  | item :: rest => numbers item :: numbersItems rest

def numbersFields : List (Text × Value) → List (Text × Value)
  | [] => []
  | (key, value) :: rest => (key, numbers value) :: numbersFields rest

end

mutual

theorem numbered_numbers : ∀ v : Value, Numbered v v.numbers
  | .chain _ => Or.inl rfl
  | .array items => ⟨_, rfl, numberedItems_numbers items⟩
  | .object fields => ⟨_, rfl, numberedFields_numbers fields⟩
  | .error _ _ code => ⟨_, rfl, numbered_numbers code⟩
  | .failure _ _ envelope => ⟨_, _, rfl, numberedFields_numbers envelope⟩
  | .undefined => rfl
  | .null => rfl
  | .bool _ => rfl
  | .number _ => rfl
  | .bigint _ => rfl
  | .string _ => rfl
  | .symbol _ => rfl
  | .circular _ => rfl

theorem numberedItems_numbers : ∀ items : List Value, NumberedItems items (numbersItems items)
  | [] => rfl
  | item :: rest => ⟨_, _, rfl, numbered_numbers item, numberedItems_numbers rest⟩

theorem numberedFields_numbers : ∀ fields : List (Text × Value),
    NumberedFields fields (numbersFields fields)
  | [] => rfl
  | (_, value) :: rest => ⟨_, _, rfl, numbered_numbers value, numberedFields_numbers rest⟩

end

variable {rule : BigInts}

/-! ### In JSON -/

mutual

/-- **A value with chains and the value with their numbers have the same JSON text**, or both have
none for the same reason. -/
theorem jsonText?_numbered : ∀ v w : Value, Numbered v w → w.jsonText? rule = v.jsonText? rule
  | .chain c, w, h => by
    rcases h with rfl | rfl <;> rfl
  | .array items, w, h => by
    obtain ⟨items', rfl, hitems⟩ := h
    rw [jsonText?_array, jsonText?_array, elementTexts?_numbered items items' hitems]
  | .object fields, w, h => by
    obtain ⟨fields', rfl, hfields⟩ := h
    rw [jsonText?_object, jsonText?_object, memberTexts?_numbered fields fields' hfields]
  | .error name message code, w, h => by
    obtain ⟨code', rfl, hcode⟩ := h
    have htext := jsonText?_numbered code code' hcode
    simp only [jsonText?_error, jsonText?_object, memberTexts?, htext]
  | .failure kind message envelope, w, h => by
    obtain ⟨message', envelope', rfl, henvelope⟩ := h
    have htexts := memberTexts?_numbered envelope envelope' henvelope
    simp only [jsonText?_failure, jsonText?_object, memberTexts?, htexts]
  | .undefined, w, h => by rw [h]
  | .null, w, h => by rw [h]
  | .bool _, w, h => by rw [h]
  | .number _, w, h => by rw [h]
  | .bigint _, w, h => by rw [h]
  | .string _, w, h => by rw [h]
  | .symbol _, w, h => by rw [h]
  | .circular _, w, h => by rw [h]

theorem elementTexts?_numbered : ∀ items items' : List Value, NumberedItems items items' →
    elementTexts? rule items' = elementTexts? rule items
  | [], items', h => by rw [h]
  | item :: rest, items', h => by
    obtain ⟨item', rest', rfl, hitem, hrest⟩ := h
    rw [elementTexts?, elementTexts?, jsonText?_numbered item item' hitem,
      elementTexts?_numbered rest rest' hrest]

theorem memberTexts?_numbered : ∀ fields fields' : List (Text × Value),
    NumberedFields fields fields' → memberTexts? rule fields' = memberTexts? rule fields
  | [], fields', h => by rw [h]
  | (key, value) :: rest, fields', h => by
    obtain ⟨value', rest', rfl, hvalue, hrest⟩ := h
    rw [memberTexts?, memberTexts?, jsonText?_numbered value value' hvalue,
      memberTexts?_numbered rest rest' hrest]

end

/-! ### In the context of an envelope -/

/-- Only a circular value shows its plain text, in which a chain is not its number. -/
theorem contextText?_numbered {v w : Value} (h : Numbered v w)
    (hacyclic : ¬∃ shape, v.Meets (.circular shape)) :
    Envelope.contextText? w = Envelope.contextText? v := by
  have htext : w.jsonText? .spelt = v.jsonText? .spelt := jsonText?_numbered v w h
  unfold Envelope.contextText?
  rw [htext, jsonText?]
  cases hv : v.toJson? .spelt with
  | error e => exact absurd (toJson?_spelt_eq_error_iff.1 ⟨e, hv⟩) hacyclic
  | ok j =>
    cases j with
    | some json => rfl
    | none =>
      -- What is left out of JSON holds no chain, so nothing was replaced.
      obtain rfl | ⟨description, rfl⟩ := omitted_of_toJson?_eq_none hv
      · rw [h]
      · rw [h]

end Value

namespace Envelope

/-- The text of an envelope depends on a value of its context only through the text it shows. -/
theorem text?_congr {v w : Value} (h : contextText? w = contextText? v) (colour : Colour)
    (e : Envelope Value) (before after : Fields Value) (key : Text) :
    { e with context := some (before ++ (key, w) :: after) }.text? colour =
      { e with context := some (before ++ (key, v) :: after) }.text? colour := by
  have hlines : ∀ x, contextLines? colour (some (before ++ (key, x) :: after)) =
      ((before ++ (key, x) :: after).mapM entryText?).map fun parts =>
        [labelled colour "Context" (Text.join contextSeparator parts)] := by
    intro x
    cases before <;> rfl
  have hparts : (before ++ (key, w) :: after).mapM entryText? =
      (before ++ (key, v) :: after).mapM entryText? := by
    have hentry : entryText? (key, w) = entryText? (key, v) := by
      rw [entryText?, entryText?, h]
    rw [List.mapM_append, List.mapM_append, List.mapM_cons, List.mapM_cons, hentry]
  unfold text?
  rw [hlines, hlines, hparts]
  rfl

end Envelope

namespace Value

/-- **Nobody can tell a chain from its number.** Let chains of a value be replaced by their numbers,
wherever they stand; all of them can be. Writing the value and writing what it has become have the
same outcome: the same text, or no text, or the same fault. If the value has no circular part, it is
also shown in the same way as a value of a context, whatever else the envelope holds. -/
theorem numbered_alike (v : Value) (colour : Colour) :
    Numbered v v.numbers ∧ ∀ w, Numbered v w →
      ((∃ t, (Query.stringify v).answer colour = .ok (.text t) ∧
          (Query.stringify w).answer colour = .ok (.text t)) ∨
        ((Query.stringify v).answer colour = .ok .noText ∧
          (Query.stringify w).answer colour = .ok .noText) ∨
        ((Query.stringify v).answer colour = .error .unwritable ∧
          (Query.stringify w).answer colour = .error .unwritable)) ∧
      ((¬∃ shape, v.Meets (.circular shape)) →
        Envelope.contextText? w = Envelope.contextText? v ∧
        ∀ (e : Envelope Value) (before after : Fields Value) (key : Text),
          { e with context := some (before ++ (key, w) :: after) }.text? colour =
            { e with context := some (before ++ (key, v) :: after) }.text? colour) := by
  refine ⟨numbered_numbers v, ?_⟩
  intro w h
  constructor
  · have htext : w.jsonText? .refused = v.jsonText? .refused := jsonText?_numbered v w h
    simp only [Query.answer, Query.stringified, htext]
    cases v.jsonText? .refused with
    | error e => exact Or.inr (Or.inr ⟨rfl, rfl⟩)
    | ok t =>
      cases t with
      | none => exact Or.inr (Or.inl ⟨rfl, rfl⟩)
      | some t => exact Or.inl ⟨t, rfl, rfl⟩
  · intro hacyclic
    have hshown := contextText?_numbered h hacyclic
    exact ⟨hshown, Envelope.text?_congr hshown colour⟩

/-- A chain as an element, as a member, as the code of an error, and in the context and the cause of
a failure. -/
def scattered : Value :=
  .array [.chain Chain.solana, .undefined,
    .object [(Text.ofString "to", .chain Chain.any), (Text.ofString "note", .symbol [])],
    .error .undefined [] (.chain Chain.solana),
    .failure .general [] [
      (Text.ofString "context", .object [(Text.ofString "value", .chain Chain.any)]),
      (Text.ofString "cause", .chain Chain.solana)]]

def scatteredText : Text := Text.ofString
  ("[1,null,\x7b\"to\":0\x7d,\x7b\"code\":1\x7d,\x7b\"name\":\"ChainIdError\","
    ++ "\"context\":\x7b\"value\":0\x7d,\"cause\":1\x7d]")

theorem numbered_alike_scattered :
    Numbered scattered scattered.numbers ∧ (¬∃ shape, scattered.Meets (.circular shape)) ∧
    (Query.stringify scattered).answer .plain = .ok (.text scatteredText) ∧
    (Query.stringify scattered.numbers).answer .plain = .ok (.text scatteredText) ∧
    Envelope.contextText? scattered.numbers = Envelope.contextText? scattered := by
  have hacyclic : ¬∃ shape, scattered.Meets (.circular shape) := by
    rw [← toJson?_spelt_eq_error_iff]
    rintro ⟨e, he⟩
    cases he
  have htext : (Query.stringify scattered).answer .plain = .ok (.text scatteredText) := by
    rfl
  obtain ⟨hnumbered, halike⟩ := numbered_alike scattered .plain
  obtain ⟨hwritten, hshown⟩ := halike _ hnumbered
  refine ⟨hnumbered, hacyclic, htext, ?_, (hshown hacyclic).1⟩
  rcases hwritten with ⟨t, ht, ht'⟩ | ⟨hno, -⟩ | ⟨hno, -⟩
  · rw [ht', ← ht, htext]
  · rw [htext] at hno
    cases hno
  · rw [htext] at hno
    cases hno

end Value

end Interchain
