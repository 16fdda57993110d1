import Interchain.Proofs.Json.ReadBack
import Interchain.Proofs.Registry.Reachable

/-! # Messages

A message is plain data with chains in it. If it holds a chain wherever its key is listed, and
nowhere else, then writing it as JSON and reviving the text with these keys gives the message back:
the same data with the same members in the same order, and the same chain objects
(`revive_written`). One induction follows writing and reviving side by side: what is written is a
plain tree, which is read back as it is, and reviving the tree under its key gives the value that
was written (`message_tree`).
-/

namespace Interchain.Document

mutual

/-- Plain data under a key that holds a chain of the registry where its key is listed, and nowhere
else. Numbers are safe whole numbers and objects show their members in order. -/
def Message (r : Registry) (keys : List Text) (key : Text) : Value → Prop
  | .chain c => key ∈ keys ∧ r.Issues c
  | .null | .bool _ | .string _ => key ∉ keys
  | .number x => key ∉ keys ∧ ∃ n, Number.isSafe n = true ∧ x = .ofInt n
  | .array items => key ∉ keys ∧ MessageItems r keys 0 items
  | .object fields => key ∉ keys ∧ Fields.Arranged fields ∧ MessageFields r keys fields
  | _ => False

def MessageItems (r : Registry) (keys : List Text) (index : Nat) : List Value → Prop
  | [] => True
  | item :: rest => Message r keys (Text.ofNat index) item ∧ MessageItems r keys (index + 1) rest

def MessageFields (r : Registry) (keys : List Text) : List (Text × Value) → Prop
  | [] => True
  | (key, value) :: rest => Message r keys key value ∧ MessageFields r keys rest

end

section

variable {colour : Colour} {r : Registry} {keys : List Text}

/-! ### Writing and reviving -/

theorem reviveEntry_unlisted {key : Text} (h : key ∉ keys) (v : Value) :
    Chain.reviveEntry colour keys key v r = (.ok v, r) := by
  rw [Chain.reviveEntry_of_not_mem h]
  rfl

/-- A chain is written as its number, and its number is revived as the chain. -/
theorem reviveEntry_chain (hr : r.Valid) {key : Text} (h : key ∈ keys) {c : Chain}
    (hc : r.Issues c) :
    Chain.reviveEntry colour keys key (.number c.value) r = (.ok (.chain c), r) := by
  rw [Chain.reviveEntry_eq h, Action.map_apply, hr.requireU16_value hc, hr.issue_value hc]
  rfl

theorem plain_chain (hr : r.Valid) {c : Chain} (hc : r.Issues c) :
    Value.jsonNumber c.value = .number c.value ∧ (Json.number c.value).Plain := by
  obtain ⟨n, hn, hv⟩ := hr.value_of_issues hc
  rw [hv]
  exact ⟨rfl, n, Number.isSafe_of_isU16 hn, (Number.ofInt_natCast n).symm⟩

mutual

/-- **A message is written as a plain tree, and reviving the tree gives the message.** -/
theorem message_tree (colour : Colour) (hr : r.Valid) :
    ∀ (key : Text) (v : Value), Message r keys key v →
      ∃ t : Json, v.toJson? .refused = .ok (some t) ∧ t.Plain ∧
        Chain.reviveTree colour keys key t r = (.ok v, r)
  | key, .chain c, h => by
    obtain ⟨hnumber, hplain⟩ := plain_chain hr h.2
    exact ⟨.number c.value, by rw [Value.toJson?, hnumber], hplain, reviveEntry_chain hr h.1 h.2⟩
  | _, .null, h => ⟨.null, rfl, trivial, reviveEntry_unlisted h _⟩
  | _, .bool b, h => ⟨.bool b, rfl, trivial, reviveEntry_unlisted h _⟩
  | _, .string t, h => ⟨.string t, rfl, trivial, reviveEntry_unlisted h _⟩
  | _, .number x, h => by
    obtain ⟨hkey, n, hn, rfl⟩ := h
    exact ⟨.number (.ofInt n), rfl, ⟨n, hn, rfl⟩, reviveEntry_unlisted hkey _⟩
  | key, .array items, h => by
    obtain ⟨ts, hts, hplain, hrevive⟩ := message_items colour hr 0 items h.2
    refine ⟨.array ts, by rw [Value.toJson?, hts]; rfl, hplain, ?_⟩
    rw [Chain.reviveTree, Action.bind_apply, hrevive]
    exact reviveEntry_unlisted h.1 _
  | key, .object fields, h => by
    obtain ⟨hkey, harranged, hfields⟩ := h
    obtain ⟨ts, hts, hkeys, hplain, hrevive⟩ := message_fields colour hr fields hfields
    refine ⟨.object ts, by rw [Value.toJson?, hts]; rfl,
      ⟨Fields.arranged_of_keys_eq hkeys harranged, hplain⟩, ?_⟩
    rw [Chain.reviveTree, Action.bind_apply, hrevive]
    exact reviveEntry_unlisted hkey _
  | _, .undefined, h => h.elim
  | _, .bigint _, h => h.elim
  | _, .symbol _, h => h.elim
  | _, .error .., h => h.elim
  | _, .failure .., h => h.elim
  | _, .circular _, h => h.elim

theorem message_items (colour : Colour) (hr : r.Valid) :
    ∀ (index : Nat) (items : List Value), MessageItems r keys index items →
      ∃ ts : List Json, Value.jsonItems .refused items = .ok ts ∧ Json.PlainItems ts ∧
        Chain.reviveItems colour keys index ts r = (.ok items, r)
  | _, [], _ => ⟨[], rfl, trivial, rfl⟩
  | index, item :: rest, h => by
    obtain ⟨t, ht, hplain, hrevive⟩ := message_tree colour hr _ item h.1
    obtain ⟨ts, hts, hplains, hrevives⟩ := message_items colour hr (index + 1) rest h.2
    refine ⟨t :: ts, by rw [Value.jsonItems, ht, hts]; rfl, ⟨hplain, hplains⟩, ?_⟩
    rw [Chain.reviveItems, Action.bind_apply, hrevive]
    simp only [Action.bind_apply, hrevives, Action.pure_apply]

theorem message_fields (colour : Colour) (hr : r.Valid) :
    ∀ fields : List (Text × Value), MessageFields r keys fields →
      ∃ ts : List (Text × Json), Value.jsonFields .refused fields = .ok ts ∧
        ts.map Prod.fst = fields.map Prod.fst ∧ Json.PlainFields ts ∧
        Chain.reviveFields colour keys ts r = (.ok fields, r)
  | [], _ => ⟨[], rfl, rfl, trivial, rfl⟩
  | (key, value) :: rest, h => by
    obtain ⟨t, ht, hplain, hrevive⟩ := message_tree colour hr key value h.1
    obtain ⟨ts, hts, hkeys, hplains, hrevives⟩ := message_fields colour hr rest h.2
    refine ⟨(key, t) :: ts, by rw [Value.jsonFields, ht, hts]; rfl, by simp [hkeys],
      ⟨hplain, hplains⟩, ?_⟩
    rw [Chain.reviveFields, Action.bind_apply, hrevive]
    simp only [Action.bind_apply, hrevives, Action.pure_apply]

end

/-! ### Messages -/

/-- Writing a message and reviving its text leads back to it, and no chain is issued on the way. -/
theorem revive_message (hr : r.Valid) (colour : Colour) {v : Value} (hv : Message r keys [] v) :
    ∃ document, v.jsonText? .refused = .ok (some document) ∧
      Chain.revive colour keys document r = (.ok v, r) := by
  obtain ⟨t, ht, hplain, hrevive⟩ := message_tree colour hr [] v hv
  refine ⟨t.text, by rw [Value.jsonText?, ht]; rfl, ?_⟩
  rw [Chain.revive, Json.parse?_text hplain]
  exact hrevive

/-- **The round trip of messages.** A value that holds a chain exactly where its key is listed can be
written, and reviving the text with the listed keys gives the value itself: the same members in the
same order, and at each listed position the same chain object. -/
theorem revive_written (h : r.Reachable) (colour : Colour) {v : Value} (hv : Message r keys [] v) :
    ∃ document,
      (Call.query (.stringify v)).perform colour r = (.ok (.text document), r) ∧
      (Call.revive keys document).perform colour r = (.ok (.value v), r) := by
  obtain ⟨document, hwritten, hrevived⟩ := revive_message h.valid colour hv
  refine ⟨document, ?_, ?_⟩
  · rw [Call.perform, Query.answer, Query.stringified, hwritten]
    rfl
  · rw [Call.perform, Action.map_apply, hrevived]
    rfl

end

/-- A message with a chain as an element and another as a member, a string with a lone surrogate
and a quote, and an index key in front of the empty key. -/
def sampleMessage : Value :=
  .object [
    (Text.ofString "7", .array [.chain Chain.solana, .number (.ofInt (-5)), .null]),
    ([], .string [0xD800, Json.quoteMark]),
    (Text.ofString "k", .chain Chain.any)]

/-- The key `0` stands for the first element and `k` for a member; the root has the empty key, which
is not listed though a member has it, too. -/
theorem revive_written_sample :
    Registry.initial.Reachable ∧
    Message .initial [Text.ofString "0", Text.ofString "k"] [] sampleMessage ∧
    ∃ document,
      (Call.query (.stringify sampleMessage)).perform .plain .initial =
        (.ok (.text document), .initial) ∧
      (Call.revive [Text.ofString "0", Text.ofString "k"] document).perform .plain .initial =
        (.ok (.value sampleMessage), .initial) := by
  have hmessage : Message .initial [Text.ofString "0", Text.ofString "k"] [] sampleMessage := by
    have harranged : Fields.Arranged [
        (Text.ofString "7", Value.array [.chain Chain.solana, .number (.ofInt (-5)), .null]),
        ([], .string [0xD800, Json.quoteMark]), (Text.ofString "k", .chain Chain.any)] := by
      unfold Fields.Arranged Fields.Before
      decide
    have hsolana : Text.ofNat 0 ∈ [Text.ofString "0", Text.ofString "k"] := by decide
    have hnumber : Text.ofNat 1 ∉ [Text.ofString "0", Text.ofString "k"] := by decide
    have hnull : Text.ofNat 2 ∉ [Text.ofString "0", Text.ofString "k"] := by decide
    have hempty : [] ∉ [Text.ofString "0", Text.ofString "k"] := by decide
    exact ⟨hempty, harranged,
      ⟨by decide, ⟨hsolana, Registry.valid_initial.issues_solana⟩,
        ⟨hnumber, -5, by decide, rfl⟩, hnull, trivial⟩,
      hempty, ⟨by decide, Registry.valid_initial.issues_any⟩, trivial⟩
  exact ⟨.initial, hmessage, revive_written .initial .plain hmessage⟩

end Interchain.Document
