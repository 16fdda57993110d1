import Interchain.Proofs.Failure.Shown
import Interchain.Proofs.Registry.Issue
import Interchain.Proofs.Value.Unshowable

/-! # Rejected values

Every value that is no whole number from 0 to 65535 is rejected wherever a chain number is expected,
with a failure that carries the value itself, and nothing is issued (`rejected_everywhere`). The one
exception is a value that cannot be shown: the text of the failure is made when the failure is, so
the fault in showing the value is raised in its place. A symbol beside a circular array is enough
(`unshowable_escapes`).
-/

namespace Interchain

/-- What is raised at a site for a value that is no chain number. -/
structure RejectedAs (colour : Colour) (site : Site) (v : Value) (e : Raised) : Prop where
  /-- A value that can be shown is carried by the failure as it is. -/
  failure : ¬v.Unshowable →
    Failure.RaisedAs colour .general
      ⟨site.resource, site.operation, Text.ofString "VALIDATION", site.message,
        some [(Text.ofString "value", v)], .undefined⟩ e
  fault : v.Unshowable → e = .unprintable

section

variable {colour : Colour} {v : Value}

theorem Value.u16?_eq_none (h : ¬∃ x n, v = .number x ∧ x.toInt? = some n ∧ 0 ≤ n ∧ n ≤ 65535) :
    v.u16? = none := by
  cases hv : v.u16? with
  | none => rfl
  | some x =>
    obtain ⟨rfl, hu⟩ := Value.u16?_eq_some.1 hv
    obtain ⟨n, hn⟩ := Number.isU16_iff_toInt?.1 hu
    exact absurd ⟨x, n, rfl, hn⟩ h

/-- The text of a rejection is made if the rejected value can be shown. -/
theorem text?_rejection_eq_none_iff (colour : Colour) (site : Site) (v : Value) :
    (site.rejection v).text? colour = none ↔ v.Unshowable := by
  rw [← Value.contextText?_eq_none_iff]
  cases hv : Envelope.contextText? v <;>
    simp [Envelope.text?, Site.rejection, Envelope.contextLines?, Envelope.entryText?, hv,
      Envelope.causeLines?, Value.isObject, Value.isTruthy]

theorem rejectedAs_reject (colour : Colour) (site : Site) (v : Value) :
    RejectedAs colour site v (Failure.reject colour (site.rejection v)) := by
  have htext := text?_rejection_eq_none_iff colour site v
  constructor
  · intro hshown
    cases ht : (site.rejection v).text? colour with
    | none => exact absurd (htext.1 ht) hshown
    | some t => exact Failure.raisedAs_of_text? ht
  · intro hunshowable
    rw [Failure.reject, Failure.build, htext.2 hunshowable]
    rfl

theorem requireU16_rejected (hv : v.u16? = none) (site : Site) :
    v.requireU16 colour site = .error (Failure.reject colour (site.rejection v)) := by
  rw [Value.requireU16, hv]

/-- **A value that is no chain number is rejected wherever one is expected.** The failure carries
the value as it is, and no chain is issued. In place of the failure the fault in showing the value
is raised exactly if the value has a circular part and no plain text. -/
theorem rejected_everywhere (colour : Colour) (r : Registry) {v : Value}
    (hv : ¬∃ x n, v = .number x ∧ x.toInt? = some n ∧ 0 ≤ n ∧ n ≤ 65535) :
    (∀ site, ∃ e, v.requireU16 colour site = .error e ∧ RejectedAs colour site v e) ∧
    (∃ e, Chain.ofValue colour v r = (.error e, r) ∧ RejectedAs colour Chain.numberSite v e) ∧
    (∃ e, Chain.deserialize colour v r = (.error e, r) ∧
      RejectedAs colour Chain.deserializeSite v e) ∧
    ∀ keys key, key ∈ keys → ∃ e, Chain.reviveEntry colour keys key v r = (.error e, r) ∧
      RejectedAs colour (Chain.reviveSite key) v e := by
  have hnone := Value.u16?_eq_none hv
  refine ⟨?_, ⟨_, ?_, rejectedAs_reject ..⟩, ⟨_, ?_, rejectedAs_reject ..⟩, ?_⟩
  · intro site
    exact ⟨_, requireU16_rejected hnone site, rejectedAs_reject ..⟩
  · rw [Chain.ofValue_eq, requireU16_rejected hnone]
    rfl
  · rw [Chain.deserialize_eq, requireU16_rejected hnone]
    rfl
  · intro keys key hkey
    refine ⟨_, ?_, rejectedAs_reject ..⟩
    rw [Chain.reviveEntry_eq hkey, requireU16_rejected hnone, Action.map_apply]
    rfl

end

/-- A circular array cannot be written, but it has a text, so the failure carries it. -/
theorem rejected_everywhere_circular :
    (¬∃ x n, Value.circular .array = .number x ∧ x.toInt? = some n ∧ 0 ≤ n ∧ n ≤ 65535) ∧
    ¬(Value.circular .array).Unshowable ∧
    ∃ e, Chain.deserialize .plain (.circular .array) .initial = (.error e, .initial) ∧
      RejectedAs .plain Chain.deserializeSite (.circular .array) e := by
  have hno : ¬∃ x n, Value.circular .array = .number x ∧ x.toInt? = some n ∧ 0 ≤ n ∧ n ≤ 65535 :=
    nofun
  have hshown : ¬(Value.circular .array).Unshowable := by
    rintro ⟨-, htextless⟩
    cases htextless
  exact ⟨hno, hshown, (rejected_everywhere .plain .initial hno).2.2.1⟩

/-- A symbol beside a circular array. -/
def symbolBesideCircle : Value := .array [.symbol (Text.ofString "x"), .circular .array]

/-- **The fault in showing a value escapes in place of its rejection.** Deserializing a symbol beside
a circular array raises no failure, though the array is no number. -/
theorem unshowable_escapes :
    (¬∃ x n, symbolBesideCircle = .number x ∧ x.toInt? = some n ∧ 0 ≤ n ∧ n ≤ 65535) ∧
    ¬∃ f, (Chain.deserialize .plain symbolBesideCircle .initial).1 = .error (.failure f) := by
  refine ⟨nofun, ?_⟩
  have hraised : (Chain.deserialize .plain symbolBesideCircle .initial).1 = .error .unprintable :=
    rfl
  rintro ⟨f, hf⟩
  rw [hraised] at hf
  cases hf

end Interchain
