import Interchain.Proofs.Text.Decimal

/-! # Read hexadecimal digits

A unit is a hexadecimal digit if it is one of `0` to `9`, `a` to `f` or `A` to `F`. Exactly these
have a value (`hexValue?_isSome_iff`), and the digit that is written for the value is the one that
was read, in lower case (`hexDigit_of_hexValue?`).
-/

namespace Interchain.Text

variable {u u₁ u₂ u₃ u₄ : UInt16} {d d₁ d₂ d₃ d₄ : Nat}

/-- The hexadecimal digits of either case. -/
def IsHex (u : UInt16) : Prop :=
  (unit '0' ≤ u ∧ u ≤ unit '9') ∨ (unit 'a' ≤ u ∧ u ≤ unit 'f') ∨ (unit 'A' ≤ u ∧ u ≤ unit 'F')

instance (u : UInt16) : Decidable (IsHex u) := inferInstanceAs (Decidable (_ ∨ _))

/-- The hexadecimal digits that are written. -/
def IsLowerHex (u : UInt16) : Prop :=
  (unit '0' ≤ u ∧ u ≤ unit '9') ∨ (unit 'a' ≤ u ∧ u ≤ unit 'f')

instance (u : UInt16) : Decidable (IsLowerHex u) := inferInstanceAs (Decidable (_ ∨ _))

theorem isLowerHex_hexDigit (h : d < 16) : IsLowerHex (hexDigit d) := by
  revert h d
  decide

theorem isHex_of_all {t : Text} (h : t.all (fun u => decide (IsHex u)) = true) :
    ∀ u ∈ t, IsHex u :=
  fun u hu => of_decide_eq_true (List.all_eq_true.1 h u hu)

/-- The number that hexadecimal digits spell. -/
def hexDigitsValue (t : Text) : Nat :=
  t.foldl (fun value u => 16 * value + (hexValue? u).getD 0) 0

/-- **Exactly the hexadecimal digits have a value.** -/
theorem hexValue?_isSome_iff : (hexValue? u).isSome ↔ IsHex u := by
  unfold hexValue? IsHex isDigit
  simp only [Bool.and_eq_true, decide_eq_true_eq]
  split
  · next h => simp [h]
  · next h =>
    split
    · next h' => simp [h']
    · next h' => split <;> simp_all

theorem hexValue?_of_isHex (h : IsHex u) : ∃ d, hexValue? u = some d :=
  Option.isSome_iff_exists.1 (hexValue?_isSome_iff.2 h)

theorem hexValue?_of_not_isHex (h : ¬IsHex u) : hexValue? u = none := by
  rw [← hexValue?_isSome_iff] at h
  simpa using h

/-- A statement about the units below 128 can be checked one by one. -/
theorem forall_ascii {P : UInt16 → Prop} (h : ∀ n < 128, P (UInt16.ofNat n)) (hu : u ≤ 127) :
    P u := by
  have hlt : u.toNat ≤ 127 := UInt16.le_iff_toNat_le.1 hu
  rw [← UInt16.ofNat_toNat (x := u)]
  exact h u.toNat (by omega)

theorem le_of_isHex (h : IsHex u) : u ≤ 127 := by
  rcases h with ⟨-, h⟩ | ⟨-, h⟩ | ⟨-, h⟩ <;> exact UInt16.le_trans h (by decide)

/-- **The value of a digit is written as the digit itself, in lower case.** -/
theorem hexDigit_of_hexValue? (h : hexValue? u = some d) : d < 16 ∧ hexDigit d = lowerUnit u := by
  have hall : ∀ n < 128, ∀ d ∈ hexValue? (UInt16.ofNat n),
      d < 16 ∧ hexDigit d = lowerUnit (UInt16.ofNat n) := by decide
  have hhex : IsHex u := hexValue?_isSome_iff.1 (by rw [h]; rfl)
  exact forall_ascii (P := fun u => ∀ d ∈ hexValue? u, d < 16 ∧ hexDigit d = lowerUnit u) hall
    (le_of_isHex hhex) d h

/-- Four digits are two pairs. -/
theorem hexDigitsValue_four (h₁ : hexValue? u₁ = some d₁) (h₂ : hexValue? u₂ = some d₂)
    (h₃ : hexValue? u₃ = some d₃) (h₄ : hexValue? u₄ = some d₄) :
    hexDigitsValue [u₁, u₂, u₃, u₄] = (d₁ * 16 + d₂) * 256 + (d₃ * 16 + d₄) := by
  simp only [hexDigitsValue, List.foldl_cons, List.foldl_nil, h₁, h₂, h₃, h₄, Option.getD_some]
  omega

end Interchain.Text
