import Interchain.Chain.Document
import Interchain.Chain.Name
import Interchain.Proofs.Chain.Grammar
import Interchain.Proofs.Registry.Growth
import Interchain.Wire.Frame

/-! # Operations that issue a chain

Nearly every operation that gives a chain first decides on a number, without looking at the
registry, and then asks for the chain of that number. `Action.issue` is such an operation, and each
equation below names the number that an operation decides on. That one number is asked for, and
only when nothing can fail any more, is what makes these operations atomic (`Single`).
-/

namespace Interchain

/-- Asks for the chain of a number, or raises. -/
def Action.issue (x : Except Raised Number) : Action Chain := fun r =>
  match x with
  | .ok x => (.ok (r.chainOf x).1, (r.chainOf x).2)
  | .error e => (.error e, r)

/-- A run that left the registry alone, or that asked for one chain and went well. -/
inductive Action.Single {α : Type} (a : Action α) (r : Registry) : Prop
  | still (x : Except Raised α) : a r = (x, r) → Single a r
  | issued (x : Number) (y : α) : x.isU16 = true → a r = (.ok y, (r.chainOf x).2) → Single a r

namespace Action

variable {α β : Type} {a : Action α} {r : Registry}

theorem bind_chainOf (x : Except Raised Number) : (ofExcept x >>= chainOf) = issue x := by
  funext r
  rw [bind_apply]
  cases x <;> rfl

namespace Single

theorem pure (x : α) : Single (Pure.pure x) r := .still (.ok x) rfl

theorem ofExcept (x : Except Raised α) : Single (Action.ofExcept x) r := .still x rfl

theorem throw (e : Raised) : Single (MonadExcept.throw e : Action α) r := .still (.error e) rfl

theorem issue {x : Except Raised Number} (h : ∀ n, x = .ok n → n.isU16 = true) :
    Single (Action.issue x) r := by
  cases x with
  | ok n => exact .issued n _ (h n rfl) rfl
  | error e => exact .still (.error e) rfl

theorem map (f : α → β) (h : Single a r) : Single (f <$> a) r := by
  cases h with
  | still x hx => exact .still (x.map f) (by rw [map_apply, hx])
  | issued x y hu hy => exact .issued x (f y) hu (by rw [map_apply, hy]; rfl)

theorem congr {b : Action α} (h : Single a r) (he : b r = a r) : Single b r := by
  cases h with
  | still x hx => exact .still x (he.trans hx)
  | issued x y hu hy => exact .issued x y hu (he.trans hy)

theorem grows (h : Single a r) : Registry.Grows r (a r).2 := by
  cases h with
  | still x hx => rw [hx]; exact .refl r
  | issued x y hu hy => rw [hy]; exact .single r hu

/-- **A run of one step is atomic.** -/
theorem eq_of_error (h : Single a r) {e : Raised} (he : (a r).1 = .error e) : (a r).2 = r := by
  cases h with
  | still x hx => rw [hx]
  | issued x y hu hy => rw [hy] at he; cases he

end Single

end Action

/-! ### Numbers of values -/

namespace Value

theorem u16?_eq_some {v : Value} {x : Number} :
    v.u16? = some x ↔ v = .number x ∧ x.isU16 = true := by
  cases v with
  | number y =>
    by_cases hy : y.isU16 = true
    · simp only [u16?, hy, if_true, Option.some.injEq, number.injEq]
      constructor
      · rintro rfl
        exact ⟨rfl, hy⟩
      · exact fun h => h.1
    · simp only [u16?, if_neg hy, number.injEq]
      constructor
      · intro h
        cases h
      · rintro ⟨rfl, hx⟩
        exact absurd hx hy
  | _ => simp [u16?]

theorem requireU16_eq_ok {colour : Colour} {site : Site} {v : Value} {x : Number} :
    v.requireU16 colour site = .ok x ↔ v = .number x ∧ x.isU16 = true := by
  rw [← u16?_eq_some, requireU16]
  cases v.u16? <;> simp

end Value

namespace Registry.Valid

variable {r : Registry} {c : Chain}

theorem requireU16_value (h : r.Valid) (hc : r.Issues c) (colour : Colour) (site : Site) :
    (Value.number c.value).requireU16 colour site = .ok c.value := by
  obtain ⟨n, hn, hv⟩ := h.value_of_issues hc
  refine Value.requireU16_eq_ok.2 ⟨rfl, ?_⟩
  rw [hv]
  exact Number.isU16_ofNat.2 hn

/-- **Asking for the chain of a chain's own number gives that chain**, and issues none. -/
theorem issue_value (h : r.Valid) (hc : r.Issues c) :
    Action.issue (.ok c.value) r = (.ok c, r) := by
  simp only [Action.issue, h.chainOf_value hc]

end Registry.Valid

namespace Chain

open Interchain.Action

variable {colour : Colour} {r : Registry}

theorem ofValue_eq (v : Value) : ofValue colour v = issue (v.requireU16 colour numberSite) :=
  bind_chainOf _

/-- A number that was found to have 16 bits is not refused after that. -/
theorem bind_requireU16_ofValue (site : Site) (v : Value) :
    (do let _ ← Action.ofExcept (v.requireU16 colour site); ofValue colour v) =
      issue (v.requireU16 colour site) := by
  cases h : v.requireU16 colour site with
  | error e => rfl
  | ok x =>
    have hx : v.requireU16 colour numberSite = .ok x :=
      Value.requireU16_eq_ok.2 (Value.requireU16_eq_ok.1 h)
    change ofValue colour v = _
    rw [ofValue_eq, hx]

theorem deserialize_eq (v : Value) :
    deserialize colour v = issue (v.requireU16 colour deserializeSite) :=
  bind_requireU16_ofValue _ v

theorem reviveEntry_eq {keys : List Text} {key : Text} (h : key ∈ keys) (v : Value) :
    reviveEntry colour keys key v = .chain <$> issue (v.requireU16 colour (reviveSite key)) := by
  rw [← bind_requireU16_ofValue, reviveEntry, if_pos (by simpa using h)]
  funext r
  simp only [map_eq_pure_bind, bind_assoc]

theorem reviveEntry_of_not_mem {keys : List Text} {key : Text} (h : key ∉ keys) (v : Value) :
    reviveEntry colour keys key v = pure v := by
  rw [reviveEntry, if_neg (by simpa using h)]

/-- The number that a chain text spells. -/
def parsed (colour : Colour) (s : Text) : Except Raised Number :=
  match read? s with
  | some n => .ok (.ofNat n)
  | none => .error (Failure.raise (unreadable colour s))

theorem isU16_of_parsed {s : Text} {x : Number} (h : parsed colour s = .ok x) :
    x.isU16 = true := by
  rw [parsed] at h
  cases hr : read? s with
  | none => rw [hr] at h; cases h
  | some n =>
    rw [hr] at h
    cases h
    rw [Number.isU16_ofNat]
    cases read?_eq_some_iff.1 hr with
    | any => decide
    | solana => decide
    | unknown _ _ _ _ _ _ hbound => exact hbound

theorem parse_unknown {s : Text} (hany : s.lower ≠ Text.ofString "any")
    (hsolana : s.lower ≠ Text.ofString "solana") : parse colour s = issue (parsed colour s) := by
  rw [parse, if_neg hany, if_neg hsolana, parsed, read?, if_neg hany, if_neg hsolana,
    spelledNumber?]
  cases hseg : segments s with
  | mk word number? =>
    cases number? with
    | none => rfl
    | some number =>
      by_cases hn : word.lower = Text.ofString "unknown" ∧ isUnsigned number = true
      · by_cases hb : (unsigned number).digitsValue ≤ 65535
        · have hu : (Value.number (.ofText number)).isU16 = true := by
            simp [Value.isU16, Value.u16?, (isU16_ofText hn.2).2 hb]
          have hr : (Value.number (.ofText number)).requireU16 colour numberSite =
              .ok (.ofText number) :=
            Value.requireU16_eq_ok.2 ⟨rfl, (isU16_ofText hn.2).2 hb⟩
          simp only [if_pos hn, if_pos hu, if_pos (And.intro hn.1 (And.intro hn.2 hb))]
          rw [ofValue_eq, hr, ofText_of_isU16 hn.2 hb]
        · have hu : ¬(Value.number (.ofText number)).isU16 = true := by
            intro h
            refine hb ((isU16_ofText hn.2).1 ?_)
            simpa [Value.isU16, Value.u16?] using h
          have hno : ¬(word.lower = Text.ofString "unknown" ∧ isUnsigned number = true ∧
              (unsigned number).digitsValue ≤ 65535) := fun h => hb h.2.2
          simp only [if_pos hn, if_neg hu, if_neg hno]
          rfl
      · have hno : ¬(word.lower = Text.ofString "unknown" ∧ isUnsigned number = true ∧
            (unsigned number).digitsValue ≤ 65535) := fun h => hn ⟨h.1, h.2.1⟩
        simp only [if_neg hn, if_neg hno]
        rfl

/-- The two words give the chains that were issued from the start, which are the chains of their
numbers. -/
theorem parse_apply (h : r.Valid) (s : Text) : parse colour s r = issue (parsed colour s) r := by
  by_cases hany : s.lower = Text.ofString "any"
  · rw [parse, if_pos hany, parsed, read?, if_pos hany]
    change _ = (Except.ok (r.chainOf Chain.any.value).1, (r.chainOf Chain.any.value).2)
    rw [h.chainOf_value h.issues_any]
    rfl
  · by_cases hsolana : s.lower = Text.ofString "solana"
    · rw [parse, if_neg hany, if_pos hsolana, parsed, read?, if_neg hany, if_pos hsolana]
      change _ = (Except.ok (r.chainOf Chain.solana.value).1, (r.chainOf Chain.solana.value).2)
      rw [h.chainOf_value h.issues_solana]
      rfl
    · rw [parse_unknown hany hsolana]

/-- The outcome in which a failure is an answer. -/
def captured {α : Type} : Except Raised α → Except Raised (Except Failure α)
  | .ok x => .ok (.ok x)
  | .error (.failure f) => .ok (.error f)
  | .error e => .error e

theorem captured_eq_ok_error_iff {α : Type} {x : Except Raised α} {f : Failure} :
    captured x = .ok (.error f) ↔ x = .error (.failure f) := by
  rcases x with e | y
  · cases e <;> simp [captured]
  · simp [captured]

/-- A failure to read is answered and every other fault is raised again, after the same run. -/
theorem tryParse_apply (colour : Colour) (v : Value) (r : Registry) :
    tryParse colour v r = (captured (parseValue colour v r).1, (parseValue colour v r).2) := by
  rw [tryParse, tryCatch_apply, map_apply]
  rcases parseValue colour v r with ⟨e | c, r'⟩
  · cases e <;> rfl
  · rfl

end Chain

namespace Wire

open Interchain.Action

variable {colour : Colour}

/-- The number that stands in bytes at an offset. -/
def decoded (colour : Colour) (bytes : List UInt8) (offset : Value) (endian : Endian) :
    Except Raised Number :=
  match offset? bytes.length (startAt offset) with
  | none => .error (Failure.reject colour (tooShort (startAt offset) bytes.length))
  | some o =>
    match read? bytes o endian with
    | some n => .ok (.ofNat n)
    | none => .error .outOfBounds

/-- The number that a hexadecimal text of two bytes holds. -/
def decodedHex (colour : Colour) (hex : Text) (endian : Endian) : Except Raised Number :=
  match bytesOfHex hex with
  | .error fault => .error (Failure.reject colour (malformedHex hex fault))
  | .ok bytes =>
    if bytes.length = chainBytes then decoded colour bytes .undefined endian
    else .error (Failure.reject colour (wrongWidth hex bytes.length))

theorem read?_le {bytes : List UInt8} {offset n : Nat} {endian : Endian}
    (h : read? bytes offset endian = some n) : n ≤ Number.maxU16 := by
  rw [read?] at h
  split at h
  · next first second _ _ =>
    have hf := first.toNat_lt
    have hs := second.toNat_lt
    cases endian <;> simp only [Option.some.injEq] at h <;> simp only [Number.maxU16] <;> omega
  · cases h

theorem isU16_of_decoded {bytes : List UInt8} {offset : Value} {endian : Endian} {x : Number}
    (h : decoded colour bytes offset endian = .ok x) : x.isU16 = true := by
  rw [decoded] at h
  split at h
  · cases h
  · split at h
    · next n hn => cases h; exact Number.isU16_ofNat.2 (read?_le hn)
    · cases h

theorem isU16_of_decodedHex {hex : Text} {endian : Endian} {x : Number}
    (h : decodedHex colour hex endian = .ok x) : x.isU16 = true := by
  rw [decodedHex] at h
  split at h
  · cases h
  · split at h
    · exact isU16_of_decoded h
    · cases h

theorem decode_eq (bytes : List UInt8) (offset : Value) (endian : Endian) :
    decode colour bytes offset endian = issue (decoded colour bytes offset endian) := by
  rw [decode, decoded]
  cases offset? bytes.length (startAt offset) with
  | none => rfl
  | some o =>
    simp only
    cases hn : read? bytes o endian with
    | none => rfl
    | some n =>
      have hr : (Value.number (.ofNat n)).requireU16 colour Chain.numberSite = .ok (.ofNat n) :=
        Value.requireU16_eq_ok.2 ⟨rfl, Number.isU16_ofNat.2 (read?_le hn)⟩
      simp only [Number.ofInt_natCast]
      rw [Chain.ofValue_eq, hr]

theorem decodeHex_eq (hex : Text) (endian : Endian) :
    decodeHex colour hex endian = issue (decodedHex colour hex endian) := by
  rw [decodeHex, decodedHex]
  cases bytesOfHex hex with
  | error fault => rfl
  | ok bytes =>
    simp only
    by_cases hl : bytes.length = chainBytes
    · rw [if_pos hl, if_pos hl, decode_eq]
    · rw [if_neg hl, if_neg hl]; rfl

end Wire

end Interchain
