import Interchain.Proofs.Chain.Spelling
import Interchain.Proofs.Document.Message
import Interchain.Proofs.Wire.Frame

/-! # Conversions

A chain can be written in several forms: as its number, its text, its number in a document, two
bytes in a frame, a hexadecimal text, and by its name if it has one. A conversion writes a chain in
one form and reads it back. Whatever the form, what is read decides on the number of the chain, and
the registry keeps the chain under it; so one conversion leads back to the chain itself and issues
none (`perform_eq`), and so does every sequence of them (`run_conversions`).
-/

namespace Interchain

/-- A form in which a chain is written and then read back. -/
inductive Conversion where
  | number
  | text
  | serialized
  /-- The one member of an object in a JSON document, under this key. -/
  | document (key : Text)
  /-- Two bytes in a frame, between other bytes. -/
  | bytes (before after : List UInt8) (endian : Wire.Endian)
  | hex (endian : Wire.Endian)
  | name

namespace Conversion

/-- The empty key is also that of the root of a document, and not every chain has a name. -/
def Applies : Conversion → Chain → Prop
  | document key, _ => key ≠ []
  | name, c => ∃ s, c.name? = some s
  | _, _ => True

/-- The chain that a value shows under a key. -/
def chainAt (key : Text) : Value → Action Chain
  | .object fields =>
    match Fields.get? key fields with
    | some (.chain c) => pure c
    | _ => throw .wrongKind
  | _ => throw .wrongKind

/-- Writes a document with a chain under a key, revives it and reads the key. -/
def throughDocument (colour : Colour) (key : Text) (c : Chain) : Action Chain :=
  match (Value.object [(key, .chain c)]).jsonText? .refused with
  | .ok (some t) => do
    let v ← Chain.revive colour [key] t
    chainAt key v
  | _ => throw .unwritable

/-- Takes the name of a chain and the chain of that name. -/
def throughName (colour : Colour) (c : Chain) : Action Chain :=
  match c.name? with
  | some s => Chain.coalesce colour (.string s)
  | none => throw .wrongKind

/-- Writes a chain in a form and reads it back. -/
def perform (colour : Colour) (c : Chain) : Conversion → Action Chain
  | number => Chain.ofValue colour (.number c.value)
  | text => Chain.parse colour c.text
  | serialized => Chain.deserialize colour (.number c.value)
  | document key => throughDocument colour key c
  | bytes before after endian =>
    Wire.decode colour (before ++ Wire.encode endian c ++ after) (.number (.ofInt before.length))
      endian
  | hex endian => Wire.decodeHex colour (Wire.encodeHex endian c) endian
  | name => throughName colour c

/-- Makes one conversion after the other, each of the chain that the one before it led to. -/
def run (colour : Colour) : List Conversion → Chain → Action Chain
  | [], c => pure c
  | conversion :: rest, c => do
    let d ← conversion.perform colour c
    run colour rest d

section

variable {colour : Colour} {r : Registry} {c : Chain}

/-! ### One conversion -/

theorem parsed_text (h : r.Valid) (hc : r.Issues c) : Chain.parsed colour c.text = .ok c.value := by
  obtain ⟨n, hn, hv⟩ := h.value_of_issues hc
  have hspells : Chain.Spells c.text n := Chain.spells_text (h.kind_of_issues hc) hv hn
  rw [Chain.parsed, Chain.read?_eq_some_iff.2 hspells, hv]

/-- A key that is not empty is not that of the root, so only the member is revived. -/
theorem message_member (hc : r.Issues c) {key : Text} (hkey : key ≠ []) :
    Document.Message r [key] [] (.object [(key, .chain c)]) := by
  have hroot : [] ∉ [key] := by simpa using hkey.symm
  exact ⟨hroot, List.pairwise_singleton _ _, ⟨List.mem_singleton_self key, hc⟩, trivial⟩

theorem throughDocument_eq (h : r.Valid) (hc : r.Issues c) {key : Text} (hkey : key ≠ []) :
    throughDocument colour key c r = (.ok c, r) := by
  obtain ⟨t, hwritten, hrevived⟩ := Document.revive_message h colour (message_member hc hkey)
  have hget : Fields.get? key [(key, Value.chain c)] = some (.chain c) := by
    simp [Fields.get?]
  unfold throughDocument
  rw [hwritten]
  simp only [Action.bind_apply, hrevived, chainAt, hget, Action.pure_apply]

theorem throughName_eq (h : r.Valid) (hc : r.Issues c) (hname : ∃ s, c.name? = some s) :
    throughName colour c r = (.ok c, r) := by
  obtain ⟨s, hs⟩ := hname
  obtain ⟨n, -, hv⟩ := h.value_of_issues hc
  unfold throughName
  rw [hs]
  show Chain.ofValue colour (Chain.numberOfName s) r = _
  rw [Chain.numberOfName_of_name? hv hs, Chain.ofValue_eq, h.requireU16_value hc, h.issue_value hc]

/-- **One conversion leads back to the chain**, and none is issued. -/
theorem perform_eq (h : r.Valid) (hc : r.Issues c) {conversion : Conversion}
    (happlies : conversion.Applies c) : conversion.perform colour c r = (.ok c, r) := by
  obtain ⟨n, hn, hv⟩ := h.value_of_issues hc
  cases conversion with
  | number => rw [perform, Chain.ofValue_eq, h.requireU16_value hc, h.issue_value hc]
  | text => rw [perform, Chain.parse_apply h, parsed_text h hc, h.issue_value hc]
  | serialized => rw [perform, Chain.deserialize_eq, h.requireU16_value hc, h.issue_value hc]
  | document key => exact throughDocument_eq h hc happlies
  | bytes before after endian =>
    rw [perform, Wire.decode_eq, Wire.decoded_encode hv hn, h.issue_value hc]
  | hex endian => rw [perform, Wire.decodeHex_eq, Wire.decodedHex_encodeHex hv hn, h.issue_value hc]
  | name => exact throughName_eq h hc happlies

/-! ### Sequences -/

/-- **The path through the forms does not matter.** Every sequence of conversions that can be made
of a chain ends with the chain itself, none of them fails, and the registry is as it was before. -/
theorem run_conversions (h : r.Reachable) (hc : r.Issues c) (colour : Colour)
    (conversions : List Conversion) (happly : ∀ conversion ∈ conversions, conversion.Applies c) :
    run colour conversions c r = (.ok c, r) := by
  induction conversions with
  | nil => rfl
  | cons conversion rest ih =>
    have hstep : conversion.perform colour c r = (.ok c, r) :=
      perform_eq h.valid hc (happly conversion List.mem_cons_self)
    rw [run, Action.bind_apply, hstep]
    exact ih fun other hother => happly other (List.mem_cons_of_mem conversion hother)

end

/-- Every form but the name. In its frame the chain stands at an odd offset. -/
def allForms : List Conversion :=
  [text, document (Text.ofString "7"), bytes [0xFF] [0x07, 0x00] .little, hex .big, serialized,
    number]

/-- The chain that was asked for goes through all of these forms, and the one with a name through
that, too. -/
theorem run_conversions_seven :
    Registry.withSeven.Reachable ∧
    (∀ conversion ∈ allForms, conversion.Applies ⟨.unknown, .ofNat 7, 2⟩) ∧
    run .plain allForms ⟨.unknown, .ofNat 7, 2⟩ .withSeven =
      (.ok ⟨.unknown, .ofNat 7, 2⟩, .withSeven) ∧
    (∀ conversion ∈ name :: allForms, conversion.Applies Chain.solana) ∧
    run .plain (name :: allForms) Chain.solana .withSeven = (.ok Chain.solana, .withSeven) := by
  have hreachable : Registry.withSeven.Reachable := Registry.Reachable.initial.call _ _
  have hissues : Registry.withSeven.Issues ⟨.unknown, .ofNat 7, 2⟩ := by
    unfold Registry.Issues
    decide
  have hkey : Text.ofString "7" ≠ [] := by decide
  have hforms : ∀ c : Chain, ∀ conversion ∈ allForms, conversion.Applies c := by
    intro c
    simp [allForms, Applies, hkey]
  have hnamed : ∀ conversion ∈ name :: allForms, conversion.Applies Chain.solana := by
    intro conversion hmem
    rcases List.mem_cons.1 hmem with rfl | hmem
    · exact ⟨_, rfl⟩
    · exact hforms _ conversion hmem
  exact ⟨hreachable, hforms _, run_conversions hreachable hissues .plain allForms (hforms _), hnamed,
    run_conversions hreachable hreachable.valid.issues_solana .plain _ hnamed⟩

end Conversion

end Interchain
