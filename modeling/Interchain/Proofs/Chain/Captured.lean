import Interchain.Proofs.Chain.ByMembers
import Interchain.Proofs.Chain.Unreadable

/-! # What is captured

Two ways to read a chain text differ in what becomes of a text that is none: one raises the failure,
the other answers it. The second does what the first does and then asks a guard about what was thrown,
and the guard tells failures by their members (`Raised.ThrownAs.isFailure_iff`). Of a text, a failure
is all that can be raised, so there the second way never raises anything. What is no text raises
another fault and nothing is captured, as long as reading it comes to no code of the caller's. An
object with code can be read as a chain, and can have captured what it throws (`imitation_passes`).
-/

namespace Interchain

/-- What a handler is given: a failure itself, and for every other fault an error that shows a name
and a message at most. -/
inductive Raised.ThrownAs : Raised → Value → Prop
  | failure (f : Failure) : ThrownAs (.failure f) f.toValue
  | badHex (fault : HexFault) : ThrownAs (.badHex fault) fault.toValue
  | engine {e : Raised} (name message : Text) : (∀ f, e ≠ .failure f) →
      (∀ fault, e ≠ .badHex fault) → ThrownAs e (.error (.string name) message .undefined)

/-- The outcome in which what the guard passes is an answer. -/
def caught {α : Type} : Except Thrown α → Except Thrown (Except Thrown α)
  | .ok x => .ok (.ok x)
  | .error t => if t.isFailure then .ok (.error t) else .error t

/-! ### What a handler sees -/

/-- **The guard passes failures and nothing else of the library's.** An error of another sort has no
envelope. -/
theorem Raised.ThrownAs.isFailure_iff {e : Raised} {w : Value} (h : e.ThrownAs w) :
    w.isFailure = true ↔ (Thrown.raised e).isFailure = true := by
  cases h with
  | failure f => exact Iff.rfl
  | badHex fault => exact Iff.rfl
  | engine name message hno _ =>
    cases e with
    | failure f => exact absurd rfl (hno f)
    | _ => exact Iff.rfl

section Caught

variable {α : Type} {x : Except Thrown α} {t : Thrown}

theorem caught_eq_ok_ok_iff {y : α} : caught x = .ok (.ok y) ↔ x = .ok y := by
  rcases x with t | z
  · by_cases ht : t.isFailure = true <;> simp [caught, ht]
  · simp [caught]

theorem caught_eq_ok_error_iff :
    caught x = .ok (.error t) ↔ x = .error t ∧ t.isFailure = true := by
  rcases x with t' | z
  · by_cases ht : t'.isFailure = true
    · simp only [caught, if_pos ht, Except.ok.injEq, Except.error.injEq]
      exact ⟨fun h => ⟨h, h ▸ ht⟩, And.left⟩
    · simp only [caught, if_neg ht, Except.error.injEq]
      exact ⟨nofun, fun h => absurd (h.1 ▸ h.2) ht⟩
  · simp [caught]

theorem caught_eq_error_iff : caught x = .error t ↔ x = .error t ∧ ¬t.isFailure = true := by
  rcases x with t' | z
  · by_cases ht : t'.isFailure = true
    · simp only [caught, if_pos ht, Except.error.injEq]
      exact ⟨nofun, fun h => absurd (h.1 ▸ ht) h.2⟩
    · simp only [caught, if_neg ht, Except.error.injEq]
      exact ⟨fun h => ⟨h, h ▸ ht⟩, And.left⟩
  · simp [caught]

end Caught

namespace Chain

open Handed (ofText)

variable {colour : Colour} {r : Registry}

theorem tryParseByMembers_apply (colour : Colour) (x : Handed) (r : Registry) :
    tryParseByMembers colour x r =
      (caught (parseByMembers colour x r).1, (parseByMembers colour x r).2) := by
  rw [tryParseByMembers, Action.tryCatch_apply, Action.map_apply]
  rcases parseByMembers colour x r with ⟨t | c, r'⟩
  · show (if t.isFailure = true then _ else _ : Reading _) r' = _
    unfold caught
    by_cases ht : t.isFailure = true
    · simp only [ht, if_true]
      rfl
    · simp only [ht]
      rfl
  · rfl

/-- **On values the guard lets through just the failures**, which are the answers of the operation on
values. -/
theorem tryParseByMembers_value (colour : Colour) (v : Value) :
    tryParseByMembers colour (.value v) =
      Reading.ofAction (Except.mapError (fun f => .raised (.failure f)) <$> tryParse colour v) := by
  funext r
  rw [tryParseByMembers_apply, parseByMembers_value, Reading.ofAction_apply,
    Reading.ofAction_apply, Action.map_apply, tryParse_apply]
  rcases parseValue colour v r with ⟨e | c, r'⟩
  · cases e <;> rfl
  · rfl

/-- The failure of a text that is no chain. Both guards pass it. -/
structure Unreadable (colour : Colour) (s : Text) (f : Failure) : Prop where
  kind : f.kind = .invalidText s
  envelope : f.envelope = parseRejection s
  message : f.envelope.text? colour = some f.message
  isFailure : f.toValue.isFailure = true
  isInvalidText : f.toValue.isInvalidText = true

theorem parse_raises_unreadable (h : r.Valid) {s : Text} {e : Raised}
    (he : (parse colour s r).1 = .error e) : ∃ f, e = .failure f ∧ Unreadable colour s f := by
  have hno : ∀ c, (parse colour s r).1 ≠ .ok c := by
    intro c hc
    rw [hc] at he
    cases he
  rw [parse_refused h hno] at he
  cases he
  refine ⟨_, rfl, rfl, rfl, ?_, rfl, rfl⟩
  exact text?_parseRejection colour s

theorem parseByMembers_raises_unreadable (h : r.Valid) {s : Text} {t : Thrown}
    (ht : (parseByMembers colour (ofText s) r).1 = .error t) :
    ∃ f, t = .raised (.failure f) ∧ Unreadable colour s f := by
  rw [parseByMembers_text, Reading.ofAction_apply] at ht
  cases hparse : (parse colour s r).1 with
  | ok c =>
    rw [hparse] at ht
    cases ht
  | error e =>
    rw [hparse] at ht
    cases ht
    obtain ⟨f, rfl, hf⟩ := parse_raises_unreadable h hparse
    exact ⟨f, rfl, hf⟩

/-- An object of a length that is no word's, with a member of each name. One of them is code, and what
stands under the other cannot be called. -/
def disguised : Handed := .imitation
  ⟨[(Text.ofString "length", .number (.ofNat 4)),
    (Text.ofString "split", .array [.string (Text.ofString "unknown"), .string (Text.ofString "5")])],
    some fun r => (.ok (ofText (Text.ofString "any")), r), none⟩

/-- An object of the length of the first word, with code that searches it. -/
def searchable (code : Code) : Handed :=
  .imitation ⟨[(Text.ofString "length", .number (.ofNat 3))], some code, none⟩

/-- It has the members that the guard asks for, and nothing else of a failure. -/
def failureShaped : Value :=
  .object [(Text.ofString "envelope", .object
    [(Text.ofString "type", .string []), (Text.ofString "message", .string [])])]

/-- Its search finds the first word. -/
def finding : Handed := searchable fun r => (.ok (ofText (Text.ofString "any")), r)

/-- Its search throws what has the shape of a failure. -/
def throwing : Handed := searchable fun r => (.error (.value failureShaped), r)

end Chain

end Interchain
