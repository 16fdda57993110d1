import Interchain.Json.Parse
import Interchain.Proofs.Number.Whole
import Interchain.Proofs.Text.Decimal
import Mathlib.Data.List.TakeDrop

/-! # Whole numbers in JSON

A whole number below `2 ^ 53` is written as its digits after an optional minus sign. Reading stops
at the end of the digits if what follows cannot continue a number (`Closes`): there is no fraction
and no exponent, so no rounding takes place and the number itself is read (`number?_text`).
-/

namespace Interchain.Json

/-- What can follow a value: nothing, a comma, or the end of a container. -/
def Closes (rest : Text) : Prop :=
  ∀ u ∈ rest.head?, u = Text.unit ',' ∨ u = Text.unit ']' ∨ u = Text.unit '}'

section Closes

variable {u : UInt16} {rest : Text}

theorem closes_nil : Closes [] := by
  intro u hu
  cases hu

theorem closes_cons (h : u = Text.unit ',' ∨ u = Text.unit ']' ∨ u = Text.unit '}') :
    Closes (u :: rest) := by
  intro v hv
  cases hv
  exact h

theorem Closes.not_isDigit (h : Closes (u :: rest)) : Text.isDigit u = false := by
  rcases h u rfl with rfl | rfl | rfl <;> decide

end Closes

/-! ### The parts of a number -/

section Parts

variable {rest : Text}

/-- The digits in front are taken off as a whole. -/
theorem span_isDigit {digits : Text} (hdigits : ∀ u ∈ digits, Text.isDigit u = true)
    (h : Closes rest) : (digits ++ rest).span Text.isDigit = (digits, rest) := by
  rw [List.span_eq_takeWhile_dropWhile, List.takeWhile_append_of_pos hdigits,
    List.dropWhile_append_of_pos hdigits]
  cases rest with
  | nil => simp
  | cons u after => simp [h.not_isDigit]

theorem whole?_ofNat (n : Nat) (h : Closes rest) :
    whole? (Text.ofNat n ++ rest) = some (Text.ofNat n, rest) := by
  have hzero : ¬(Text.ofNat n = [] ∨
      (1 < (Text.ofNat n).length ∧ (Text.ofNat n).head? = some (Text.unit '0'))) := by
    rintro (hnil | ⟨hlength, hhead⟩)
    · exact Text.ofNat_ne_nil n hnil
    · exact Text.head?_ofNat hlength hhead
  unfold whole?
  rw [span_isDigit (fun u hu => Text.isDigit_of_mem_ofNat hu) h]
  exact if_neg hzero

theorem fraction?_of_closes (h : Closes rest) : fraction? rest = some ([], rest) := by
  cases rest with
  | nil => rfl
  | cons u after =>
    have hpoint : u ≠ Text.unit '.' := by
      rcases h u rfl with rfl | rfl | rfl <;> decide
    rw [fraction?, if_neg hpoint]

theorem exponent?_of_closes (h : Closes rest) : exponent? rest = some (0, rest) := by
  cases rest with
  | nil => rfl
  | cons u after =>
    have hmark : ¬(u = Text.unit 'e' ∨ u = Text.unit 'E') := by
      rcases h u rfl with rfl | rfl | rfl <;> decide
    rw [exponent?, if_neg hmark]

/-- **Digits that need no rounding are read as their number.** -/
theorem unsigned?_ofNat (negative : Bool) {n : Nat} (hn : n < 2 ^ 53) (h : Closes rest) :
    unsigned? negative (Text.ofNat n ++ rest) = some (Number.whole negative n, rest) := by
  have hread : Number.ofDecimal negative (Text.ofNat n).digitsValue 0 = .whole negative n := by
    rw [Text.digitsValue_ofNat, Number.ofDecimal_of_lt negative hn]
  unfold unsigned?
  simp [whole?_ofNat n h, fraction?_of_closes h, exponent?_of_closes h, hread]

end Parts

/-! ### Whole numbers -/

/-- A unit that can begin a number. -/
def BeginsNumber (u : UInt16) : Prop := u = Text.unit '-' ∨ Text.isDigit u = true

instance (u : UInt16) : Decidable (BeginsNumber u) := inferInstanceAs (Decidable (_ ∨ _))

theorem head_ofNat (n : Nat) :
    ∃ u after, Text.ofNat n = u :: after ∧ Text.isDigit u = true := by
  cases hdigits : Text.ofNat n with
  | nil => exact absurd hdigits (Text.ofNat_ne_nil n)
  | cons u after =>
    refine ⟨u, after, rfl, ?_⟩
    apply Text.isDigit_of_mem_ofNat (n := n)
    rw [hdigits]
    exact List.mem_cons_self

section Whole

variable {n : Int}

theorem natAbs_lt_of_isSafe (h : Number.isSafe n = true) : n.natAbs < 2 ^ 53 := by
  have hlt := of_decide_eq_true h
  rwa [Nat.one_shiftLeft] at hlt

theorem text_ofInt (h : Number.isSafe n = true) : (Number.ofInt n).text = Text.ofInt n := by
  have hmagnitude : Number.magnitudeText n.natAbs 0 = Text.ofNat n.natAbs := by
    rw [Number.magnitudeText, if_pos ⟨rfl, of_decide_eq_true h⟩]
  rw [Text.ofInt, Number.ofInt, Number.whole, Number.text, hmagnitude]
  by_cases hneg : n < 0
  · have hne : n.natAbs ≠ 0 := by omega
    simp [hneg, hne]
  · simp [hneg]

theorem text_ofNat {n : Nat} (h : Number.isSafe n = true) :
    (Number.ofNat n).text = Text.ofNat n := by
  have hneg : ¬(n : Int) < 0 := by omega
  rw [← Number.ofInt_natCast, text_ofInt h, Text.ofInt, if_neg hneg]
  rfl

theorem head_text_ofInt (h : Number.isSafe n = true) :
    ∃ u after, (Number.ofInt n).text = u :: after ∧ BeginsNumber u := by
  rw [text_ofInt h, Text.ofInt]
  split
  · exact ⟨_, _, rfl, Or.inl rfl⟩
  · obtain ⟨u, after, hu, hdigit⟩ := head_ofNat n.natAbs
    exact ⟨u, after, hu, Or.inr hdigit⟩

/-- **A safe whole number is read back.** -/
theorem number?_text (hn : Number.isSafe n = true) {rest : Text} (h : Closes rest) :
    number? ((Number.ofInt n).text ++ rest) = some (Number.ofInt n, rest) := by
  have hlt := natAbs_lt_of_isSafe hn
  rw [text_ofInt hn, Text.ofInt]
  by_cases hneg : n < 0
  · rw [if_pos hneg, List.cons_append, number?, if_pos rfl, unsigned?_ofNat true hlt h,
      Number.ofInt]
    simp [hneg]
  · obtain ⟨u, after, hu, hdigit⟩ := head_ofNat n.natAbs
    have hminus : u ≠ Text.unit '-' := by
      rintro rfl
      exact absurd hdigit (by decide)
    have hread := unsigned?_ofNat false hlt h
    rw [hu, List.cons_append] at hread
    rw [if_neg hneg, hu, List.cons_append, number?, if_neg hminus, hread, Number.ofInt]
    simp [hneg]

end Whole

end Interchain.Json
