import Interchain.Proofs.Document.Revive
import Interchain.Session.Call

/-! # Reachable registries

A registry is reachable if calls lead to it from the initial one, whatever they are given and
whether they fail or not. Every call but the reviving of a document is a run of one step
(`perform_single`), so it adds at most one entry and, if it fails, none, also where the failure is
its answer (`perform_answered`). Reviving goes through the positions of the document and adds the
listed numbers before the first position that offends. `reachable_registry` puts the two together
with the invariant.
-/

namespace Interchain

inductive Registry.Reachable : Registry → Prop
  | initial : Reachable Registry.initial
  | call {r : Registry} (colour : Colour) (call : Call) :
      Reachable r → Reachable (call.perform colour r).2

namespace Call

open Document

/-- What a call that failed has done to the registry, whether it raised the failure or answered it:
nothing, except that reviving a document has issued the chains of the listed positions before the
first one that offends. -/
structure FailsCleanly (colour : Colour) (call : Call) (r : Registry) : Prop where
  raised : ∀ e, (call.perform colour r).1 = .error e →
    match call with
    | .revive keys document =>
      match Json.parse? document with
      | none => (call.perform colour r).2 = r
      | some t =>
        ∃ before p rest, positions [] t = before ++ p :: rest ∧
          offends keys p = true ∧ (∀ q ∈ before, offends keys q = false) ∧
          ∀ k, k ∈ (call.perform colour r).2.entries.map Prod.fst ↔
            k ∈ r.entries.map Prod.fst ∨
              ∃ q ∈ before, ∃ x, listed? keys q = some x ∧ k = x.unsignZero
    | _ => (call.perform colour r).2 = r
  answered : ∀ f, (call.perform colour r).1 = .ok (.attempt (.error f)) →
    (call.perform colour r).2 = r

section

variable {colour : Colour} {r : Registry}

theorem single_parseValue (hr : r.Valid) (v : Value) :
    Action.Single (Chain.parseValue colour v) r := by
  cases v with
  | string s =>
    exact (Action.Single.issue fun _ => Chain.isU16_of_parsed).congr (Chain.parse_apply hr s)
  | _ => exact .throw _

theorem single_tryParse (hr : r.Valid) (v : Value) :
    Action.Single (Chain.tryParse colour v) r := by
  have hparse : Action.Single (Chain.parseValue colour v) r := single_parseValue hr v
  cases hparse with
  | still x hx => exact .still (Chain.captured x) (by rw [Chain.tryParse_apply, hx])
  | issued x c hu hc => exact .issued x (.ok c) hu (by rw [Chain.tryParse_apply, hc]; rfl)

theorem single_requireU16 (site : Site) (v : Value) :
    Action.Single (Action.issue (v.requireU16 colour site)) r :=
  .issue fun _ h => (Value.requireU16_eq_ok.1 h).2

theorem single_ofValue (v : Value) : Action.Single (Chain.ofValue colour v) r := by
  rw [Chain.ofValue_eq]
  exact single_requireU16 _ v

theorem single_ofKey (key : Option Text) : Action.Single (Chain.ofKey colour key) r := by
  cases key with
  | some s => exact single_ofValue _
  | none => exact .throw _

theorem single_coalesce (v : Value) : Action.Single (Chain.coalesce colour v) r := by
  have hkey : Action.Single (Chain.ofKey colour v.convert?) r := single_ofKey _
  cases v with
  | chain c => exact .pure c
  | number x => exact single_ofValue _
  | string s => exact single_ofValue _
  | symbol description => exact single_ofValue .undefined
  | _ => exact hkey

theorem single_reviveEntry (keys : List Text) (key : Text) (v : Value) :
    Action.Single (Chain.reviveEntry colour keys key v) r := by
  by_cases h : key ∈ keys
  · rw [Chain.reviveEntry_eq h]
    exact (single_requireU16 _ v).map _
  · rw [Chain.reviveEntry_of_not_mem h]
    exact .pure v

/-- **Every call but one is a run of one step.** -/
theorem perform_single (hr : r.Valid) (call : Call)
    (hrevive : ∀ keys document, call ≠ .revive keys document) :
    Action.Single (call.perform colour) r := by
  cases call with
  | revive keys document => exact absurd rfl (hrevive keys document)
  | ofValue v => exact (single_ofValue v).map _
  | ofName name => exact (single_ofValue _).map _
  | coalesce v => exact (single_coalesce v).map _
  | parse v => exact (single_parseValue hr v).map _
  | tryParse v => exact (single_tryParse hr v).map _
  | deserialize v =>
    rw [perform, Chain.deserialize_eq]
    exact (single_requireU16 _ v).map _
  | reviveEntry keys key v => exact (single_reviveEntry keys key v).map _
  | decode bytes offset endian =>
    rw [perform, Wire.decode_eq]
    exact (Action.Single.issue fun _ => Wire.isU16_of_decoded).map _
  | decodeHex hex endian =>
    rw [perform, Wire.decodeHex_eq]
    exact (Action.Single.issue fun _ => Wire.isU16_of_decodedHex).map _
  | query q => exact .ofExcept _

theorem revive_apply (hr : r.Valid) (keys : List Text) {document : Text} {t : Json}
    (ht : Json.parse? document = some t) :
    Chain.revive colour keys document r =
      outcome colour keys r (positions [] t) fun chain => replaced chain keys [] t := by
  rw [Chain.revive, ht]
  exact reviveTree_apply t [] r hr

theorem revive_malformed (keys : List Text) {document : Text}
    (ht : Json.parse? document = none) :
    Chain.revive colour keys document r = (.error .malformed, r) := by
  rw [Chain.revive, ht]
  rfl

theorem perform_grows (hr : r.Valid) (call : Call) :
    Registry.Grows r (call.perform colour r).2 := by
  by_cases h : ∃ keys document, call = .revive keys document
  · obtain ⟨keys, document, rfl⟩ := h
    rw [perform, Action.map_apply]
    cases ht : Json.parse? document with
    | none => rw [revive_malformed keys ht]; exact .refl r
    | some t =>
      rw [revive_apply hr keys ht, outcome_snd]
      exact grows_revived r _
  · exact (perform_single hr call fun keys document he => h ⟨keys, document, he⟩).grows

/-- Any other kind of answer is no captured failure. -/
theorem map_ne_attempt {α : Type} {a : Action α} {give : α → Answer} {f : Failure}
    (hgive : ∀ x, give x ≠ .attempt (.error f)) :
    ((give <$> a) r).1 ≠ .ok (.attempt (.error f)) := by
  intro h
  rw [Action.map_apply] at h
  cases ha : (a r).1 with
  | ok x =>
    rw [ha] at h
    exact hgive x (Except.ok.inj h)
  | error e =>
    rw [ha] at h
    cases h

/-- **A failure that is an answer** comes from a text that could not be read, and reading it issued
nothing. -/
theorem perform_answered (hr : r.Valid) (call : Call) {f : Failure}
    (hf : (call.perform colour r).1 = .ok (.attempt (.error f))) :
    (call.perform colour r).2 = r := by
  cases call with
  | tryParse v =>
    rw [perform, Action.map_apply] at hf ⊢
    cases htry : (Chain.tryParse colour v r).1 with
    | ok answer =>
      rw [htry] at hf
      cases hf
      rw [Chain.tryParse_apply] at htry ⊢
      exact (single_parseValue hr v).eq_of_error (Chain.captured_eq_ok_error_iff.1 htry)
    | error e =>
      rw [htry] at hf
      cases hf
  | query q => rfl
  | _ => exact absurd hf (map_ne_attempt fun _ h => by cases h)

/-- **Half a document.** A failed reviving has gone through the positions before the first that
offends, and the new keys are the numbers listed there. -/
theorem revive_failsCleanly (hr : r.Valid) (keys : List Text) (document : Text) :
    FailsCleanly colour (.revive keys document) r where
  raised := by
    intro e he
    rw [perform, Action.map_apply] at he ⊢
    simp only
    cases ht : Json.parse? document with
    | none => simp only [revive_malformed keys ht]
    | some t =>
      rw [revive_apply hr keys ht] at he ⊢
      cases hx : (outcome colour keys r (positions [] t) fun chain =>
          replaced chain keys [] t).1 with
      | ok v => rw [hx] at he; cases he
      | error e =>
        obtain ⟨before, p, rest, hsplit, hoff, hbefore, hrev, -⟩ := outcome_eq_error hx
        refine ⟨before, p, rest, hsplit, hoff, hbefore, ?_⟩
        intro k
        rw [outcome_snd, Registry.mem_keys_issueAll hr isU16_of_mem_revived, hrev]
        simp only [List.mem_filterMap]
        constructor
        · rintro (hk | ⟨x, ⟨q, hq, hx⟩, hk⟩)
          · exact Or.inl hk
          · exact Or.inr ⟨q, hq, x, hx, hk⟩
        · rintro (hk | ⟨q, hq, x, hx, hk⟩)
          · exact Or.inl hk
          · exact Or.inr ⟨x, ⟨q, hq, hx⟩, hk⟩
  answered := fun _ hf => perform_answered hr _ hf

theorem perform_failsCleanly (hr : r.Valid) (call : Call) : FailsCleanly colour call r := by
  by_cases h : ∃ keys document, call = .revive keys document
  · obtain ⟨keys, document, rfl⟩ := h
    exact revive_failsCleanly hr keys document
  · have hother : ∀ keys document, call ≠ .revive keys document :=
      fun keys document he => h ⟨keys, document, he⟩
    refine ⟨?_, fun f hf => perform_answered hr call hf⟩
    intro e he
    have hsame := (perform_single hr call hother).eq_of_error he
    cases call with
    | revive keys document => exact absurd ⟨keys, document, rfl⟩ h
    | _ => exact hsame

end

end Call

namespace Registry

/-- What one call keeps, every sequence of calls keeps. -/
theorem Reachable.valid {r : Registry} (h : r.Reachable) : r.Valid := by
  induction h with
  | initial => exact valid_initial
  | call colour call _ ih => exact ih.grows (Call.perform_grows ih call)

/-- **The invariant of the registry and the atomicity of calls.** In every reachable registry the
keys are the numbers from 0 to 65535, zero without its sign; each keeps the chain of its number and
kind; the two chains of a kind of their own are there. A call only adds entries at the end, and a
call that fails adds none, or has revived the first part of a document. -/
theorem reachable_registry {r : Registry} (h : r.Reachable) :
    (∀ k c, (k, c) ∈ r.entries →
      (∃ n : Nat, n ≤ 65535 ∧ k = .ofNat n) ∧ k.isNegativeZero = false ∧ c.value = k ∧
        (c.kind = .any ↔ k = .ofNat 0) ∧ (c.kind = .solana ↔ k = .ofNat 1)) ∧
    (r.entries.map Prod.fst).Nodup ∧
    (.ofNat 0, Chain.any) ∈ r.entries ∧ (.ofNat 1, Chain.solana) ∈ r.entries ∧
    ∀ (colour : Colour) (call : Call),
      r.entries <+: (call.perform colour r).2.entries ∧ call.FailsCleanly colour r := by
  have hr := h.valid
  refine ⟨?_, hr.keys, hr.any, hr.solana, ?_⟩
  · intro k c hm
    obtain ⟨n, hn, rfl⟩ := hr.number k c hm
    refine ⟨⟨n, hn, rfl⟩, rfl, hr.value _ c hm, ?_⟩
    rw [hr.kind _ c hm, Chain.Kind.ofNumber]
    by_cases h0 : n = 0
    · simp [h0]
    · by_cases h1 : n = 1 <;> simp [h0, h1]
  · intro colour call
    exact ⟨(Call.perform_grows hr call).prefix_entries hr, Call.perform_failsCleanly hr call⟩

/-- The registry after 7 was asked for. -/
def withSeven : Registry := ((Call.ofValue (.number (.ofNat 7))).perform .plain initial).2

theorem reachable_registry_seven :
    withSeven.Reachable ∧
    withSeven.entries =
      [(.ofNat 0, .any), (.ofNat 1, .solana), (.ofNat 7, ⟨.unknown, .ofNat 7, 2⟩)] ∧
    (withSeven.entries.map Prod.fst).Nodup ∧
    ∀ (colour : Colour) (call : Call),
      withSeven.entries <+: (call.perform colour withSeven).2.entries ∧
        call.FailsCleanly colour withSeven := by
  have h : withSeven.Reachable := Reachable.initial.call _ _
  obtain ⟨-, hkeys, -, -, hcall⟩ := reachable_registry h
  exact ⟨h, rfl, hkeys, hcall⟩

end Registry

end Interchain
