import Interchain.Text.Hexadecimal
import Mathlib.Data.List.Basic

/-! # Written digits

A number is written with its last decimal digit last (`ofNat_eq`), and reading the digits gives the
number back (`digitsValue_ofNat`). The text has no superfluous leading zero (`head?_ofNat`), so it
is a whole part as JSON wants it. A hexadecimal digit, too, is read as the number it was written
for.
-/

namespace Interchain.Text

variable {n d : Nat} {u : UInt16}

/-! ### One digit -/

theorem isDigit_digitChar (h : d < 10) : isDigit (unit (Nat.digitChar d)) = true := by
  revert h d
  decide

theorem digitValue_digitChar (h : d < 10) : digitValue (unit (Nat.digitChar d)) = d := by
  revert h d
  decide

theorem digitChar_ne_zero (h : d < 10) (h0 : d ≠ 0) : unit (Nat.digitChar d) ≠ unit '0' := by
  revert h0 h d
  decide

theorem hexValue?_hexDigit (h : d < 16) : hexValue? (hexDigit d) = some d := by
  revert h d
  decide

/-! ### All digits -/

/-- The last digit is the remainder by ten, and the digits before it are those of the quotient. -/
theorem ofNat_eq (n : Nat) :
    ofNat n =
      if n < 10 then [unit (Nat.digitChar n)]
      else ofNat (n / 10) ++ [unit (Nat.digitChar (n % 10))] := by
  unfold ofNat
  rw [Nat.toDigits_eq_if (by decide)]
  split
  · rfl
  · rw [List.map_append]
    rfl

theorem ofNat_ne_nil (n : Nat) : ofNat n ≠ [] := by
  rw [ofNat_eq]
  split <;> simp

theorem isDigit_of_mem_ofNat (h : u ∈ ofNat n) : isDigit u = true := by
  induction n using Nat.strongRecOn with
  | ind n ih =>
    rw [ofNat_eq] at h
    split at h
    · next hn =>
      rw [List.mem_singleton.1 h]
      exact isDigit_digitChar hn
    · rcases List.mem_append.1 h with h | h
      · exact ih (n / 10) (by omega) h
      · rw [List.mem_singleton.1 h]
        exact isDigit_digitChar (Nat.mod_lt n (by decide))

theorem digitsValue_concat (t : Text) (u : UInt16) :
    digitsValue (t ++ [u]) = 10 * digitsValue t + digitValue u := by
  simp [digitsValue]

/-- **Decimal digits are read back.** -/
theorem digitsValue_ofNat (n : Nat) : digitsValue (ofNat n) = n := by
  induction n using Nat.strongRecOn with
  | ind n ih =>
    rw [ofNat_eq]
    split
    · next hn =>
      show 10 * 0 + digitValue (unit (Nat.digitChar n)) = n
      rw [digitValue_digitChar hn]
      omega
    · rw [digitsValue_concat, ih (n / 10) (by omega),
        digitValue_digitChar (Nat.mod_lt n (by decide))]
      omega

theorem head?_ofNat_ne_zero (h : n ≠ 0) : (ofNat n).head? ≠ some (unit '0') := by
  induction n using Nat.strongRecOn with
  | ind n ih =>
    rw [ofNat_eq]
    split
    · next hn => simpa using digitChar_ne_zero hn h
    · rw [List.head?_append_of_ne_nil _ (ofNat_ne_nil _)]
      exact ih (n / 10) (by omega) (by omega)

/-- **Only a lone zero begins with one.** -/
theorem head?_ofNat (h : 1 < (ofNat n).length) : (ofNat n).head? ≠ some (unit '0') := by
  apply head?_ofNat_ne_zero
  rintro rfl
  exact absurd h (by decide)

end Interchain.Text
