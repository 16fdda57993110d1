import Interchain.Proofs.Registry.Reachable

/-! # Reading a chain text

A chain text is read in one of two ways: it spells a number and gives the chain of that number, or
it spells none and is refused with the text itself, unit for unit.
-/

namespace Interchain.Chain

open Registry

variable {r : Registry}

theorem raisedAs_unreadable (colour : Colour) (s : Text) :
    Failure.RaisedAs colour (.invalidText s) (parseRejection s)
      (Failure.raise (unreadable colour s)) := by
  refine Failure.raisedAs_of_written rfl ⟨[], rfl⟩ ?_
  intro p hp
  rw [List.mem_singleton.1 hp]
  exact ⟨_, rfl⟩

theorem parse_of_spells (h : r.Valid) (colour : Colour) {s : Text} {n : Nat} (hs : Spells s n) :
    ∃ c, parse colour s r = (.ok c, (r.chainOf (.ofNat n)).2) ∧ c.value = .ofNat n := by
  have hparsed : parsed colour s = .ok (.ofNat n) := by rw [parsed, read?_eq_some_iff.2 hs]
  refine ⟨(r.chainOf (.ofNat n)).1, ?_, ?_⟩
  · rw [parse_apply h, hparsed]
    rfl
  · rw [value_chainOf h (isU16_of_parsed hparsed), Number.unsignZero_ofNat]

theorem parse_of_not_spells (h : r.Valid) (colour : Colour) {s : Text}
    (hs : ∀ n, ¬Spells s n) :
    ∃ message, parse colour s r =
      (.error (.failure ⟨.invalidText s, parseRejection s, message⟩), r) := by
  have hread : read? s = none := by
    cases hr : read? s with
    | none => rfl
    | some n => exact absurd (read?_eq_some_iff.1 hr) (hs n)
  obtain ⟨message, -, hraised⟩ := raisedAs_unreadable colour s
  refine ⟨message, ?_⟩
  rw [parse_apply h, parsed, hread]
  simp only [Action.issue, hraised]

/-- **The chain texts are exactly those of the grammar.** Reading a text gives a chain of number `n`
exactly if the text spells `n`. Every text that spells no number raises a failure that carries the
text, as such and in its context. -/
theorem parse_iff_spells (h : r.Reachable) (colour : Colour) (s : Text) :
    (∀ n : Nat, (∃ c, (parse colour s r).1 = .ok c ∧ c.value = .ofNat n) ↔ Spells s n) ∧
    ((∀ n, ¬Spells s n) →
      ∃ f, (parse colour s r).1 = .error (.failure f) ∧ f.kind = .invalidText s ∧
        f.envelope.context = some [(Text.ofString "input", .string s)]) := by
  refine ⟨fun n => ⟨?_, ?_⟩, ?_⟩
  · rintro ⟨c, hc, hv⟩
    by_cases hs : ∃ m, Spells s m
    · obtain ⟨m, hm⟩ := hs
      obtain ⟨c', hc', hv'⟩ := parse_of_spells h.valid colour hm
      rw [hc'] at hc
      cases hc
      rw [hv'] at hv
      exact Number.ofNat_injective hv ▸ hm
    · obtain ⟨message, he⟩ := parse_of_not_spells h.valid colour fun m hm => hs ⟨m, hm⟩
      rw [he] at hc
      cases hc
  · intro hs
    obtain ⟨c, hc, hv⟩ := parse_of_spells h.valid colour hs
    exact ⟨c, by rw [hc], hv⟩
  · intro hs
    obtain ⟨message, he⟩ := parse_of_not_spells h.valid colour hs
    exact ⟨_, by rw [he], rfl, rfl⟩

/-- No bracket is closed here, the digits have a sign and zeros in front, and what follows them is
behind a bracket. -/
theorem parse_iff_spells_seven :
    Registry.initial.Reachable ∧
      ∃ c, (parse .plain (Text.ofString "UnKnown)+0007(x") Registry.initial).1 = .ok c ∧
        c.value = .ofNat 7 :=
  ⟨.initial, ((parse_iff_spells .initial .plain (Text.ofString "UnKnown)+0007(x")).1 7).2
    (read?_eq_some_iff.1 (by decide))⟩

end Interchain.Chain
