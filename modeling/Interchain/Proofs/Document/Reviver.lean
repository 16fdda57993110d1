import Mathlib
import Interchain.Proofs.Registry.Reachable

/-! # Reviving a document

Reading a document with the listed keys gives its tree with the listed numbers turned into chains,
or raises at the first listed position that holds no chain number. The keys count as a set.
-/

namespace Interchain.Document

variable {colour : Colour} {keys : List Text} {r : Registry}

theorem u16?_eq_some_iff {t : Json} :
    (∃ x, t.u16? = some x) ↔
      ∃ x n, t = .number x ∧ x.toInt? = some n ∧ 0 ≤ n ∧ n ≤ 65535 := by
  constructor
  · rintro ⟨x, hx⟩
    obtain ⟨rfl, hu⟩ := isU16_of_u16? hx
    obtain ⟨n, hn⟩ := Number.isU16_iff_toInt?.1 hu
    exact ⟨x, n, rfl, hn⟩
  · rintro ⟨x, n, rfl, hn⟩
    exact ⟨x, by rw [Json.u16?, if_pos (Number.isU16_iff_toInt?.2 ⟨n, hn⟩)]⟩

theorem offends_eq_false_iff {p : Text × Json} :
    offends keys p = false ↔ (p.1 ∈ keys → ∃ x, p.2.u16? = some x) := by
  rw [Bool.eq_false_iff, ne_eq, offends_iff]
  cases p.2.u16? <;> simp

theorem operation_revive : Chain.operation "revive" = Text.ofString "chain.revive" := by decide

theorem rejection_reviveSite (key : Text) (v : Value) :
    (Chain.reviveSite key).rejection v =
      ⟨Text.ofString "chain", Text.ofString "chain.revive", Text.ofString "VALIDATION",
        Text.ofString "Invalid chain at \"" ++ key
          ++ Text.ofString "\": expected an integer in 0..=65535.",
        some [(Text.ofString "value", v)], .undefined⟩ := by
  have hfront : Text.ofString "Invalid " ++ Text.ofString "chain at \"" =
      Text.ofString "Invalid chain at \"" := by decide
  have hback : Text.ofString "\"" ++ (Text.ofString ": expected an integer in 0..=" ++
      (Text.ofNat Number.maxU16 ++ Text.ofString ".")) =
      Text.ofString "\": expected an integer in 0..=65535." := by decide
  simp only [Site.rejection, Site.message, Chain.reviveSite, Chain.resource, Envelope.validation,
    operation_revive, List.append_assoc, hback]
  rw [← hfront, List.append_assoc]

theorem raisedAs_refusal (chain : Number → Chain) (p : Text × Json) :
    Failure.RaisedAs colour .general
      ((Chain.reviveSite p.1).rejection (inside chain keys p.2))
      (refusal colour keys chain p) := by
  refine Failure.raisedAs_of_written rfl ⟨[], rfl⟩ ?_
  intro q hq
  rw [List.mem_singleton.1 hq]
  exact written_inside .spelt p.2

/-- The keys are only ever asked whether they hold a key. -/
theorem reviveEntry_congr {keys' : List Text} (h : ∀ key, key ∈ keys' ↔ key ∈ keys) (key : Text)
    (v : Value) : Chain.reviveEntry colour keys' key v = Chain.reviveEntry colour keys key v := by
  have hc : keys'.contains key = keys.contains key := by
    rw [Bool.eq_iff_iff]
    simpa using h key
  rw [Chain.reviveEntry, Chain.reviveEntry, hc]

mutual

theorem reviveTree_congr {keys' : List Text} (h : ∀ key, key ∈ keys' ↔ key ∈ keys) :
    ∀ (key : Text) (t : Json),
      Chain.reviveTree colour keys' key t = Chain.reviveTree colour keys key t
  | key, .array items => by
    rw [Chain.reviveTree, Chain.reviveTree, reviveItems_congr h 0 items]
    simp only [reviveEntry_congr h]
  | key, .object fields => by
    rw [Chain.reviveTree, Chain.reviveTree, reviveFields_congr h fields]
    simp only [reviveEntry_congr h]
  | key, .null => reviveEntry_congr h key _
  | key, .bool _ => reviveEntry_congr h key _
  | key, .number _ => reviveEntry_congr h key _
  | key, .string _ => reviveEntry_congr h key _

theorem reviveItems_congr {keys' : List Text} (h : ∀ key, key ∈ keys' ↔ key ∈ keys) :
    ∀ (index : Nat) (items : List Json),
      Chain.reviveItems colour keys' index items = Chain.reviveItems colour keys index items
  | _, [] => rfl
  | index, item :: rest => by
    rw [Chain.reviveItems, Chain.reviveItems, reviveTree_congr h _ item,
      reviveItems_congr h (index + 1) rest]

theorem reviveFields_congr {keys' : List Text} (h : ∀ key, key ∈ keys' ↔ key ∈ keys) :
    ∀ fields : List (Text × Json),
      Chain.reviveFields colour keys' fields = Chain.reviveFields colour keys fields
  | [] => rfl
  | (key, value) :: rest => by
    rw [Chain.reviveFields, Chain.reviveFields, reviveTree_congr h key value,
      reviveFields_congr h rest]

end

theorem revive_congr {keys' : List Text} (h : ∀ key, key ∈ keys' ↔ key ∈ keys) (document : Text) :
    Chain.revive colour keys' document = Chain.revive colour keys document := by
  rw [Chain.revive, Chain.revive]
  split
  · exact reviveTree_congr h [] _
  · rfl

/-- Asking for a number that was revived gives its chain and changes nothing. -/
theorem ofValue_revived (hr : r.Valid) {ps : List (Text × Json)} {x : Number}
    (hx : x ∈ revived keys ps) :
    Chain.ofValue colour (.number x) (r.issueAll (revived keys ps)) =
      (.ok ((r.issueAll (revived keys ps)).chain x), r.issueAll (revived keys ps)) := by
  have hreq : (Value.number x).requireU16 colour Chain.numberSite = .ok x :=
    Value.requireU16_eq_ok.2 ⟨rfl, isU16_of_mem_revived x hx⟩
  rw [Chain.ofValue_eq, hreq]
  simp only [Action.issue, chainOf_issueAll hr isU16_of_mem_revived (.refl _) x hx]

/-- **Reviving a document.** It goes well exactly if each listed position holds a whole number from
0 to 65535. Then the answer is the tree with just those numbers turned into the chains that asking
for them gives. Otherwise a failure is raised that names the key of the first listed position that
holds no such number, and carries what stands there with the listed numbers strictly inside it
already turned into chains. Neither the order of the keys nor their repetition matters. -/
theorem revive_document (h : r.Reachable) (colour : Colour) (keys : List Text) {document : Text}
    {t : Json} (ht : Json.parse? document = some t) :
    let run := Chain.revive colour keys document r
    ((∃ v, run.1 = .ok v) ↔
      ∀ p ∈ positions [] t, p.1 ∈ keys →
        ∃ x n, p.2 = .number x ∧ x.toInt? = some n ∧ 0 ≤ n ∧ n ≤ 65535) ∧
    (∀ v, run.1 = .ok v → v = replaced run.2.chain keys [] t) ∧
    (∀ e, run.1 = .error e →
      ∃ before key s rest, positions [] t = before ++ (key, s) :: rest ∧
        (key ∈ keys ∧ ¬∃ x n, s = .number x ∧ x.toInt? = some n ∧ 0 ≤ n ∧ n ≤ 65535) ∧
        (∀ p ∈ before, p.1 ∈ keys →
          ∃ x n, p.2 = .number x ∧ x.toInt? = some n ∧ 0 ≤ n ∧ n ≤ 65535) ∧
        Failure.RaisedAs colour .general
          ⟨Text.ofString "chain", Text.ofString "chain.revive", Text.ofString "VALIDATION",
            Text.ofString "Invalid chain at \"" ++ key
              ++ Text.ofString "\": expected an integer in 0..=65535.",
            some [(Text.ofString "value", inside run.2.chain keys s)], .undefined⟩ e) ∧
    (∀ x ∈ revived keys (positions [] t),
      Chain.ofValue colour (.number x) run.2 = (.ok (run.2.chain x), run.2)) ∧
    ∀ keys' : List Text, (∀ key, key ∈ keys' ↔ key ∈ keys) →
      Chain.revive colour keys' document r = run := by
  have hr := h.valid
  intro run
  have hrun : run = outcome colour keys r (positions [] t) fun chain => replaced chain keys [] t :=
    Call.revive_apply hr keys ht
  have hafter : run.2 = r.issueAll (revived keys (positions [] t)) := by rw [hrun, outcome_snd]
  refine ⟨?_, ?_, ?_, ?_, ?_⟩
  · simp only [← u16?_eq_some_iff, ← offends_eq_false_iff]
    rw [hrun]
    constructor
    · rintro ⟨v, hv⟩
      exact (outcome_eq_ok.1 hv).1
    · exact fun hall => ⟨_, outcome_eq_ok.2 ⟨hall, rfl⟩⟩
  · intro v hv
    rw [hrun] at hv
    rw [hafter]
    exact (outcome_eq_ok.1 hv).2.symm
  · intro e he
    rw [hrun] at he
    obtain ⟨before, p, rest, hsplit, hoff, hbefore, -, rfl⟩ := outcome_eq_error he
    refine ⟨before, p.1, p.2, rest, hsplit, ?_, ?_, ?_⟩
    · rw [← u16?_eq_some_iff]
      obtain ⟨hkey, hnone⟩ := offends_iff.1 hoff
      exact ⟨hkey, by simp [hnone]⟩
    · intro q hq hkey
      rw [← u16?_eq_some_iff]
      exact offends_eq_false_iff.1 (hbefore q hq) hkey
    · rw [← rejection_reviveSite, hafter]
      exact raisedAs_refusal _ p
  · intro x hx
    rw [hafter]
    exact ofValue_revived hr hx
  · intro keys' hkeys
    rw [revive_congr hkeys]

/-- In `[2,[5,7]]` the key `1` stands for the 7 and for the inner array, which is no number. -/
theorem revive_document_nested :
    Json.parse? (Text.ofString "[2,[5,7]]") =
      some (.array [.number (.ofNat 2), .array [.number (.ofNat 5), .number (.ofNat 7)]]) ∧
    ¬∃ v, (Chain.revive .plain [Text.ofString "1"] (Text.ofString "[2,[5,7]]") .initial).1 =
      .ok v := by
  have ht : Json.parse? (Text.ofString "[2,[5,7]]") =
      some (.array [.number (.ofNat 2), .array [.number (.ofNat 5), .number (.ofNat 7)]]) := by
    cbv
  refine ⟨ht, ?_⟩
  obtain ⟨hok, -⟩ := revive_document .initial .plain [Text.ofString "1"] ht
  rw [hok]
  intro hall
  have hkey : Text.ofNat 1 = Text.ofString "1" := by decide
  obtain ⟨x, n, hx, -⟩ := hall
    (Text.ofString "1", .array [.number (.ofNat 5), .number (.ofNat 7)])
    (by simp [positions, itemPositions, hkey]) (by simp)
  cases hx

end Interchain.Document
