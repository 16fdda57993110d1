import Mathlib
import Interchain.Proofs.Registry.Reachable
import Interchain.Proofs.Value.JsonText

/-! # Writing a revived document

A document that was read and revived is written as if it had only been read. Reviving puts a chain
in the place of a listed number, and a chain is written as its number, which is the listed one up to
the sign of a zero; and that sign is not written (`jsonText?_unsignZero`). All else is put together
from the same texts, so one induction goes through the tree and what it has become side by side
(`jsonText?_inside`). Without any keys reviving leaves the tree as it was read
(`reviveTree_unlisted`).
-/

namespace Interchain

namespace Number

/-- Zero has no halvings, so it is one of the two zeros. -/
theorem eq_whole_of_isZero {x : Number} (h : x.isZero = true) :
    ∃ negative, x = whole negative 0 := by
  cases x with
  | finite negative numerator halvings lowest =>
    have hnumerator : numerator = 0 := by simpa [isZero] using h
    subst hnumerator
    have hhalvings : halvings = 0 := by
      rcases lowest with h0 | hodd
      · exact h0
      · omega
    subst hhalvings
    exact ⟨negative, rfl⟩
  | nan => cases h
  | infinite negative => cases h

end Number

namespace Document

open Value (elementTexts? memberTexts? ofJson ofJsonItems ofJsonFields)

variable {rule : BigInts} {keys : List Text} {chain : Number → Chain}

/-! ### Numbers and their chains -/

/-- The sign of a zero is not written. -/
theorem jsonText?_unsignZero (x : Number) :
    (Value.number x.unsignZero).jsonText? rule = (Value.number x).jsonText? rule := by
  by_cases hzero : x.isZero = true
  · obtain ⟨negative, rfl⟩ := Number.eq_whole_of_isZero hzero
    cases negative <;> rfl
  · rw [Number.unsignZero, if_neg hzero]

/-- What stands under a key is written as the tree under it, if what is inside the tree is. -/
theorem jsonText?_entry (hchain : ∀ x, x.isU16 = true → (chain x).value = x.unsignZero)
    (keys : List Text) (key : Text) {t : Json} {v : Value}
    (hv : v.jsonText? rule = (ofJson t).jsonText? rule) :
    (entry chain keys key t v).jsonText? rule = (ofJson t).jsonText? rule := by
  rw [entry]
  cases hl : listed? keys (key, t) with
  | none => exact hv
  | some x =>
    obtain ⟨rfl, hu⟩ := isU16_of_u16? (listed?_eq_some.1 hl).2
    calc (Value.chain (chain x)).jsonText? rule
        = (Value.number (chain x).value).jsonText? rule := rfl
      _ = (Value.number x.unsignZero).jsonText? rule := by rw [hchain x hu]
      _ = (Value.number x).jsonText? rule := jsonText?_unsignZero x

/-! ### Trees -/

mutual

/-- **A tree with chains is written as the tree.** -/
theorem jsonText?_inside (hchain : ∀ x, x.isU16 = true → (chain x).value = x.unsignZero) :
    ∀ t : Json, (inside chain keys t).jsonText? rule = (ofJson t).jsonText? rule
  | .array items => by
    rw [inside, ofJson, Value.jsonText?_array, Value.jsonText?_array,
      elementTexts?_inside hchain 0 items]
  | .object fields => by
    rw [inside, ofJson, Value.jsonText?_object, Value.jsonText?_object,
      memberTexts?_inside hchain fields]
  | .null => rfl
  | .bool _ => rfl
  | .number _ => rfl
  | .string _ => rfl

theorem elementTexts?_inside (hchain : ∀ x, x.isU16 = true → (chain x).value = x.unsignZero) :
    ∀ (index : Nat) (items : List Json),
      elementTexts? rule (insideItems chain keys index items) =
        elementTexts? rule (ofJsonItems items)
  | _, [] => rfl
  | index, item :: rest => by
    have hitem := jsonText?_entry hchain keys (Text.ofNat index) (jsonText?_inside hchain item)
    rw [insideItems, ofJsonItems, elementTexts?, elementTexts?, hitem,
      elementTexts?_inside hchain (index + 1) rest]

theorem memberTexts?_inside (hchain : ∀ x, x.isU16 = true → (chain x).value = x.unsignZero) :
    ∀ fields : List (Text × Json),
      memberTexts? rule (insideFields chain keys fields) =
        memberTexts? rule (ofJsonFields fields)
  | [] => rfl
  | (key, value) :: rest => by
    have hvalue := jsonText?_entry hchain keys key (jsonText?_inside hchain value)
    rw [insideFields, ofJsonFields, memberTexts?, memberTexts?, hvalue,
      memberTexts?_inside hchain rest]

end

/-! ### Reading without keys -/

section

variable {colour : Colour}

mutual

theorem reviveTree_unlisted : ∀ (key : Text) (t : Json),
    Chain.reviveTree colour [] key t = pure (ofJson t)
  | key, .array items => by
    rw [Chain.reviveTree, reviveItems_unlisted 0 items, pure_bind, ofJson,
      Chain.reviveEntry_of_not_mem List.not_mem_nil]
  | key, .object fields => by
    rw [Chain.reviveTree, reviveFields_unlisted fields, pure_bind, ofJson,
      Chain.reviveEntry_of_not_mem List.not_mem_nil]
  | _, .null => rfl
  | _, .bool _ => rfl
  | _, .number _ => rfl
  | _, .string _ => rfl

theorem reviveItems_unlisted : ∀ (index : Nat) (items : List Json),
    Chain.reviveItems colour [] index items = pure (ofJsonItems items)
  | _, [] => rfl
  | index, item :: rest => by
    rw [Chain.reviveItems, reviveTree_unlisted _ item, reviveItems_unlisted (index + 1) rest,
      pure_bind, pure_bind, ofJsonItems]

theorem reviveFields_unlisted : ∀ fields : List (Text × Json),
    Chain.reviveFields colour [] fields = pure (ofJsonFields fields)
  | [] => rfl
  | (key, value) :: rest => by
    rw [Chain.reviveFields, reviveTree_unlisted key value, reviveFields_unlisted rest,
      pure_bind, pure_bind, ofJsonFields]

end

/-! ### Documents -/

variable {r r' : Registry}

/-- What reviving a document gives is the tree that was read, with chains of the listed numbers. -/
theorem eq_replaced_of_revive (hr : r.Valid) {document : Text} {v : Value}
    (hv : Chain.revive colour keys document r = (.ok v, r')) :
    ∃ t, Json.parse? document = some t ∧ v = replaced r'.chain keys [] t ∧ r'.Valid := by
  cases ht : Json.parse? document with
  | none =>
    rw [Call.revive_malformed keys ht] at hv
    cases hv
  | some t =>
    rw [Call.revive_apply hr keys ht] at hv
    have hfirst := congrArg Prod.fst hv
    have hafter := congrArg Prod.snd hv
    rw [outcome_snd] at hafter
    have hr' : r.issueAll (revived keys (positions [] t)) = r' := hafter
    refine ⟨t, rfl, ?_, ?_⟩
    · rw [(outcome_eq_ok.1 hfirst).2.symm, hr']
    · rw [← hr']
      exact hr.grows (grows_revived r _)

/-- **Reviving does not change what a document is written as.** Whenever a document can be revived,
writing what comes of it gives the same text as writing the tree that was read, unit for unit; and
the tree that was read is what reviving with no keys gives. -/
theorem stringify_revived (h : r.Reachable) {document : Text} {v : Value}
    (hv : Chain.revive colour keys document r = (.ok v, r')) :
    ∃ t s, Json.parse? document = some t ∧
      Chain.revive colour [] document r = (.ok (ofJson t), r) ∧
      (Query.stringify v).answer colour = .ok (.text s) ∧
      (Query.stringify (ofJson t)).answer colour = .ok (.text s) := by
  obtain ⟨t, ht, rfl, hr'⟩ := eq_replaced_of_revive h.valid hv
  have hchain : ∀ x, x.isU16 = true → (r'.chain x).value = x.unsignZero := by
    intro x hx
    exact Registry.value_chainOf hr' hx
  obtain ⟨j, hj⟩ : ∃ j, (replaced r'.chain keys [] t).toJson? .refused = .ok (some j) :=
    written_entry r'.chain keys [] t (written_inside .refused t)
  have hwritten : (replaced r'.chain keys [] t).jsonText? .refused = .ok (some j.text) := by
    rw [Value.jsonText?, hj]
    rfl
  have hread : (ofJson t).jsonText? .refused = .ok (some j.text) := by
    rw [← hwritten, replaced]
    exact (jsonText?_entry hchain keys [] (jsonText?_inside hchain t)).symm
  refine ⟨t, j.text, ht, ?_, ?_, ?_⟩
  · rw [Chain.revive, ht]
    simp only [reviveTree_unlisted]
    rfl
  · rw [Query.answer, Query.stringified, hwritten]
    rfl
  · rw [Query.answer, Query.stringified, hread]
    rfl

end

/-- Numbers that are spelt in another way than they are written: one with a superfluous fraction,
one with an exponent and a negative zero. -/
def spellings : Text := Text.ofString "\x7b\"b\":[1.0,1e2,1.0],\"a\":-0\x7d"

/-- The first two elements and the member become chains, one of them new. -/
theorem stringify_revived_spellings :
    Registry.initial.Reachable ∧
    ∃ v r' t, Chain.revive .plain [Text.ofString "0", Text.ofString "1", Text.ofString "a"]
        spellings .initial = (.ok v, r') ∧
      v = .object [
        (Text.ofString "b", .array [.chain Chain.solana, .chain ⟨.unknown, .ofNat 100, 2⟩,
          .number (.ofNat 1)]),
        (Text.ofString "a", .chain Chain.any)] ∧
      Json.parse? spellings = some t ∧
      (Query.stringify v).answer .plain =
        .ok (.text (Text.ofString "\x7b\"b\":[1,100,1],\"a\":0\x7d")) ∧
      (Query.stringify (ofJson t)).answer .plain = (Query.stringify v).answer .plain := by
  have ht : Json.parse? spellings = some (.object [
      (Text.ofString "b", .array [.number (.ofNat 1), .number (.ofNat 100), .number (.ofNat 1)]),
      (Text.ofString "a", .number (.whole true 0))]) := by
    cbv
  have hv : ∃ r', Chain.revive .plain [Text.ofString "0", Text.ofString "1", Text.ofString "a"]
      spellings .initial = (.ok (.object [
        (Text.ofString "b", .array [.chain Chain.solana, .chain ⟨.unknown, .ofNat 100, 2⟩,
          .number (.ofNat 1)]),
        (Text.ofString "a", .chain Chain.any)]), r') := by
    rw [Chain.revive, ht]
    exact ⟨_, rfl⟩
  obtain ⟨r', hv⟩ := hv
  obtain ⟨t, s, ht', -, hwritten, hread⟩ := stringify_revived .initial hv
  refine ⟨.initial, _, r', t, hv, rfl, ht', rfl, ?_⟩
  rw [hwritten, hread]

end Document

end Interchain
