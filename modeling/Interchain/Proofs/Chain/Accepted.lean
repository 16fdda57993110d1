import Interchain.Proofs.Registry.Reachable

/-! # Accepted values

The counterpart of rejection. A value is accepted where a chain number is expected exactly if it is
a number, and a whole one from 0 to 65535 (`Value.Holds`); no other kind of value is taken for a
number. Each way to ask for the chain of a value requires a number of 16 bits at a site of its own
and then asks the registry for it (`AsksFor.perform_eq`), so all of them accept the same values and
are given the same object (`AsksFor.perform_of_number`). That object has the number without its
sign, so the chain of either zero shows 0.
-/

namespace Interchain

/-- The value is a number, and this whole one of 16 bits. Both zeros are 0. -/
def Value.Holds (v : Value) (n : Nat) : Prop :=
  ∃ x, v = .number x ∧ x.toInt? = some (n : Int) ∧ n ≤ 65535

/-- The chain that an answer gives, as such or as a value. -/
def Answer.given? : Answer → Option Chain
  | .chain c => some c
  | .value (.chain c) => some c
  | _ => none

/-- The calls that ask for the chain of a value. A key has to be listed, and only a number is taken
for the number of a chain where a name or a chain could stand as well. -/
inductive Call.AsksFor (v : Value) : Call → Prop
  | ofValue : AsksFor v (.ofValue v)
  | deserialize : AsksFor v (.deserialize v)
  | reviveEntry {keys : List Text} {key : Text} : key ∈ keys → AsksFor v (.reviveEntry keys key v)
  | coalesce {x : Number} : v = .number x → AsksFor v (.coalesce v)

/-! ### Numbers that are held -/

namespace Value

variable {v : Value}

theorem isU16_iff_holds : v.isU16 = true ↔ ∃ n, v.Holds n := by
  rw [isU16, Option.isSome_iff_exists]
  constructor
  · rintro ⟨x, hx⟩
    obtain ⟨rfl, hu⟩ := u16?_eq_some.1 hx
    obtain ⟨n, hn, hnonneg, hle⟩ := Number.isU16_iff_toInt?.1 hu
    refine ⟨n.toNat, x, rfl, ?_, by omega⟩
    rw [hn, Int.toNat_of_nonneg hnonneg]
  · rintro ⟨n, x, rfl, hn, hle⟩
    exact ⟨x, u16?_eq_some.2 ⟨rfl, Number.isU16_iff_toInt?.2 ⟨n, hn, by omega, by omega⟩⟩⟩

theorem requireU16_ok_iff_holds (colour : Colour) (site : Site) :
    (∃ x, v.requireU16 colour site = .ok x) ↔ ∃ n, v.Holds n := by
  rw [← isU16_iff_holds, isU16, Option.isSome_iff_exists]
  simp only [requireU16_eq_ok, u16?_eq_some]

end Value

/-! ### Calls -/

namespace Call.AsksFor

variable {v : Value} {call : Call}

/-- **All of these calls do one thing**: they require a number and ask for its chain. They differ in
the site at which a rejection is raised, and in whether the chain is answered as a value. -/
theorem perform_eq (h : call.AsksFor v) (colour : Colour) :
    ∃ (site : Site) (give : Chain → Answer), (∀ c, (give c).given? = some c) ∧
      call.perform colour = give <$> Action.issue (v.requireU16 colour site) := by
  cases h with
  | ofValue =>
    refine ⟨Chain.numberSite, .chain, fun _ => rfl, ?_⟩
    rw [perform, Chain.ofValue_eq]
  | deserialize =>
    refine ⟨Chain.deserializeSite, .chain, fun _ => rfl, ?_⟩
    rw [perform, Chain.deserialize_eq]
  | @reviveEntry keys key hkey =>
    refine ⟨Chain.reviveSite key, fun c => .value (.chain c), fun _ => rfl, ?_⟩
    rw [perform, Chain.reviveEntry_eq hkey, Functor.map_map]
  | coalesce hv =>
    refine ⟨Chain.numberSite, .chain, fun _ => rfl, ?_⟩
    rw [perform, hv, Chain.coalesce, Chain.ofValue_eq]

theorem perform_ok_iff (h : call.AsksFor v) (colour : Colour) (r : Registry) :
    (∃ a, (call.perform colour r).1 = .ok a) ↔ ∃ n, v.Holds n := by
  obtain ⟨site, give, -, hperform⟩ := h.perform_eq colour
  rw [hperform, Action.map_apply, ← Value.requireU16_ok_iff_holds colour site]
  cases v.requireU16 colour site with
  | ok x => exact ⟨fun _ => ⟨x, rfl⟩, fun _ => ⟨_, rfl⟩⟩
  | error e => constructor <;> rintro ⟨a, ha⟩ <;> cases ha

/-- What such a call gives does not depend on which one it is. -/
theorem perform_of_number (h : call.AsksFor v) (colour : Colour) (r : Registry) {x : Number}
    (hv : v = .number x) (hx : x.isU16 = true) :
    ∃ a, call.perform colour r = (.ok a, (r.chainOf x).2) ∧
      a.given? = some (r.chainOf x).1 := by
  obtain ⟨site, give, hgive, hperform⟩ := h.perform_eq colour
  refine ⟨give (r.chainOf x).1, ?_, hgive _⟩
  rw [hperform, Action.map_apply, Value.requireU16_eq_ok.2 ⟨hv, hx⟩]
  rfl

end Call.AsksFor

/-! ### All ways to ask -/

section

variable {r : Registry}

/-- **All that take numbers accept the same values and give the same object.** For every value,
whether it passes for a number of 16 bits, whether it is let through where one is required, and
whether a call that asks for its chain goes well, are the same question: is it a whole number from 0
to 65535. If it is, there is one chain that all of these calls give, now and however much the
registry grows after the first of them, which alone may issue it. The chain shows the number without
a sign, also written as JSON. -/
theorem numbers_accepted_alike (h : r.Reachable) (colour : Colour) (v : Value) :
    (v.isU16 = true ↔ ∃ n, v.Holds n) ∧
    (∀ site, (∃ x, v.requireU16 colour site = .ok x) ↔ ∃ n, v.Holds n) ∧
    (∀ call : Call, call.AsksFor v → ((∃ a, (call.perform colour r).1 = .ok a) ↔ ∃ n, v.Holds n)) ∧
    ∀ n, v.Holds n → ∃ c r₁,
      (∀ call : Call, call.AsksFor v →
        ∃ a, call.perform colour r = (.ok a, r₁) ∧ a.given? = some c) ∧
      (∀ call : Call, call.AsksFor v → ∀ shade r₂, Registry.Grows r₁ r₂ →
        ∃ a, call.perform shade r₂ = (.ok a, r₂) ∧ a.given? = some c) ∧
      c.value = .ofNat n ∧ (Query.serialize c).answer colour = .ok (.number (.ofNat n)) ∧
      ∀ rule, (Value.chain c).toJson? rule = .ok (some (.number (.ofNat n))) := by
  refine ⟨Value.isU16_iff_holds, Value.requireU16_ok_iff_holds colour,
    fun call hcall => hcall.perform_ok_iff colour r, ?_⟩
  rintro n ⟨x, hv, hn, hle⟩
  have hx : x.isU16 = true := Number.isU16_iff_toInt?.2 ⟨n, hn, by omega, by omega⟩
  have hvalue : (r.chainOf x).1.value = .ofNat n := by
    rw [Registry.value_chainOf h.valid hx, Number.unsignZero_of_toInt? hn]
  refine ⟨(r.chainOf x).1, (r.chainOf x).2, ?_, ?_, hvalue, ?_, ?_⟩
  · exact fun call hcall => hcall.perform_of_number colour r hv hx
  · intro call hcall shade r₂ hgrows
    have hsame := hcall.perform_of_number shade r₂ hv hx
    rwa [Registry.Grows.chainOf_eq h.valid hx hgrows] at hsame
  · rw [Query.answer, hvalue]
  · intro rule
    rw [Value.toJson?, hvalue]
    rfl

/-- Negative zero is accepted, and two ways to ask give one chain for it, which has the number 0.
The big integer 0 is not accepted. -/
theorem numbers_accepted_alike_zero :
    Registry.initial.Reachable ∧ (Value.number (.whole true 0)).Holds 0 ∧
    (∃ c r₁ a b,
      (Call.deserialize (.number (.whole true 0))).perform .plain .initial = (.ok a, r₁) ∧
      (Call.coalesce (.number (.whole true 0))).perform .plain r₁ = (.ok b, r₁) ∧
      a.given? = some c ∧ b.given? = some c ∧ c.value = .ofNat 0) ∧
    ¬∃ a, ((Call.deserialize (.bigint 0)).perform .plain .initial).1 = .ok a := by
  have hzero : (Value.number (.whole true 0)).Holds 0 := ⟨_, rfl, rfl, by decide⟩
  obtain ⟨-, -, -, hgiven⟩ :=
    numbers_accepted_alike .initial .plain (Value.number (.whole true 0))
  obtain ⟨c, r₁, hfirst, hlater, hvalue, -⟩ := hgiven 0 hzero
  obtain ⟨a, ha, hac⟩ := hfirst _ .deserialize
  obtain ⟨b, hb, hbc⟩ := hlater _ (.coalesce rfl) .plain r₁ (.refl r₁)
  obtain ⟨-, -, hbig, -⟩ := numbers_accepted_alike .initial .plain (Value.bigint 0)
  refine ⟨.initial, hzero, ⟨c, r₁, a, b, ha, hb, hac, hbc, hvalue⟩, ?_⟩
  rw [hbig _ .deserialize]
  rintro ⟨n, x, hx, -⟩
  cases hx

end

end Interchain
