import Interchain.Json.Parse
import Interchain.Proofs.Json.Printable
import Interchain.Proofs.Text.Decimal

/-! # Quoted strings

A string is written unit by unit, and it is read back unit by unit: whatever stands for a unit, an
escape or the unit itself, is taken off the front and the unit is put there (`Takes`). Both halves
of a surrogate pair stand for themselves, and so does every unit that is not escaped. So the string
that was written is read back, whatever units it has (`string?_writtenUnits`).
-/

namespace Interchain.Json

variable {u letter a b c d : UInt16}

/-- A text in front is read as one unit of a string. -/
def Takes (written : Text) (u : UInt16) : Prop :=
  ∀ rest, string? (written ++ rest) = (string? rest).map fun p => (u :: p.1, p.2)

/-! ### Units that stand for themselves -/

/-- A unit that is not escaped inside a string. -/
def isBare (u : UInt16) : Prop := u ≠ quoteMark ∧ u ≠ backslash ∧ ¬u < 0x20

theorem takes_self (h : isBare u) : Takes [u] u := by
  intro rest
  obtain ⟨hquote, hback, hcontrol⟩ := h
  rw [List.singleton_append, string?.eq_def]
  simp only [if_neg hquote, if_neg hcontrol, if_neg hback]
  cases string? rest <;> rfl

theorem isBare_of_le (h : 0xD800 ≤ u) : isBare u := by
  have hle : 0xD800 ≤ u.toNat := UInt16.le_iff_toNat_le.1 h
  refine ⟨?_, ?_, ?_⟩
  · rintro rfl
    exact absurd hle (by decide)
  · rintro rfl
    exact absurd hle (by decide)
  · intro hlt
    have hlt' : u.toNat < 0x20 := UInt16.lt_iff_toNat_lt.1 hlt
    omega

theorem isBare_of_isHighSurrogate (h : Text.isHighSurrogate u = true) : isBare u := by
  simp only [Text.isHighSurrogate, Bool.and_eq_true, decide_eq_true_eq] at h
  exact isBare_of_le h.1

theorem isBare_of_isLowSurrogate (h : Text.isLowSurrogate u = true) : isBare u := by
  simp only [Text.isLowSurrogate, Bool.and_eq_true, decide_eq_true_eq] at h
  exact isBare_of_le (UInt16.le_trans (by decide) h.1)

theorem string?_quoteMark (rest : Text) : string? (quoteMark :: rest) = some ([], rest) := by
  rw [string?.eq_def]
  exact if_pos rfl

/-! ### Escapes -/

theorem backslash_ne_quoteMark : backslash ≠ quoteMark := by decide

theorem backslash_not_control : ¬backslash < 0x20 := by decide

theorem takes_letter (hu : letter ≠ Text.unit 'u') (h : escaped? letter = some u) :
    Takes [backslash, letter] u := by
  intro rest
  show string? (backslash :: letter :: rest) = _
  rw [string?.eq_def]
  simp only [if_neg backslash_ne_quoteMark, if_neg backslash_not_control, if_true, if_neg hu, h]
  cases string? rest <;> rfl

theorem takes_hex (h : hexUnit? a b c d = some u) :
    Takes [backslash, Text.unit 'u', a, b, c, d] u := by
  intro rest
  show string? (backslash :: Text.unit 'u' :: a :: b :: c :: d :: rest) = _
  rw [string?.eq_def]
  simp only [if_neg backslash_ne_quoteMark, if_neg backslash_not_control, if_true, h]
  cases string? rest <;> rfl

/-- The letter of an escape stands for the unit that it was chosen for. -/
theorem escaped?_escapeLetter (h : escapeLetter? u = some letter) :
    letter ≠ Text.unit 'u' ∧ escaped? letter = some u := by
  have hall : escapes.all (fun p => p.2 ≠ Text.unit 'u' ∧ escaped? p.2 = some p.1) = true := by
    decide
  exact of_decide_eq_true (List.all_eq_true.1 hall _ (mem_escapes h))

/-- **Four hexadecimal digits spell the unit they were written for.** -/
theorem hexUnit?_hexDigits (u : UInt16) :
    hexUnit? (Text.hexDigit (u.toNat / 4096)) (Text.hexDigit (u.toNat / 256 % 16))
      (Text.hexDigit (u.toNat / 16 % 16)) (Text.hexDigit (u.toNat % 16)) = some u := by
  have hu : u.toNat < 2 ^ 16 := u.toNat_lt
  have hsum : u.toNat / 4096 * 4096 + u.toNat / 256 % 16 * 256 + u.toNat / 16 % 16 * 16
      + u.toNat % 16 = u.toNat := by omega
  unfold hexUnit?
  rw [Text.hexValue?_hexDigit (by omega), Text.hexValue?_hexDigit (by omega),
    Text.hexValue?_hexDigit (by omega), Text.hexValue?_hexDigit (by omega)]
  simp only [hsum, Nat.toUInt16_eq, UInt16.ofNat_toNat]

/-! ### Strings -/

theorem takes_writtenUnit (u : UInt16) : Takes (writtenUnit u) u := by
  unfold writtenUnit
  cases hl : escapeLetter? u with
  | some letter =>
    obtain ⟨hne, hu⟩ := escaped?_escapeLetter hl
    exact takes_letter hne hu
  | none =>
    simp only
    split
    · exact takes_hex (hexUnit?_hexDigits u)
    · next hcontrol =>
      refine takes_self ⟨?_, ?_, ?_⟩
      · rintro rfl
        cases hl
      · rintro rfl
        cases hl
      · intro hlt
        simp [hlt] at hcontrol

/-- **A written string is read back**, lone surrogates and control units included. -/
theorem string?_writtenUnits : ∀ t rest : Text,
    string? (writtenUnits t ++ quoteMark :: rest) = some (t, rest)
  | [], rest => by
    rw [writtenUnits, List.nil_append, string?_quoteMark]
  | [u], rest => by
    rw [writtenUnits, takes_writtenUnit u, string?_quoteMark]
    rfl
  | u :: v :: tail, rest => by
    rw [writtenUnits]
    split
    · next hpair =>
      obtain ⟨hu, hv⟩ := Bool.and_eq_true_iff.1 hpair
      have htail := string?_writtenUnits tail rest
      show string? ([u] ++ ([v] ++ (writtenUnits tail ++ quoteMark :: rest))) = _
      rw [takes_self (isBare_of_isHighSurrogate hu), takes_self (isBare_of_isLowSurrogate hv),
        htail]
      rfl
    · rw [List.append_assoc, takes_writtenUnit u, string?_writtenUnits (v :: tail) rest]
      rfl

end Interchain.Json
