import Interchain.Chain.Name
import Interchain.Proofs.Chain.Grammar
import Interchain.Proofs.Json.Numeral
import Interchain.Proofs.Registry.Growth

/-! # The texts of a chain

The canonical text of a chain spells its number (`spells_text`): the two chains with a kind of their
own are written as their words, and every other one as its digits in brackets. The name of a chain,
if it has one, stands for its number (`numberOfName_of_name?`).
-/

namespace Interchain.Chain

variable {c : Chain} {n : Nat}

/-! ### Canonical texts -/

theorem spells_unknown (h : n ≤ 65535) :
    Spells (Kind.unknown.name ++ [Text.unit '('] ++ Text.ofNat n ++ [Text.unit ')']) n := by
  have hread : (Text.ofNat n).digitsValue = n := Text.digitsValue_ofNat n
  have hspells : Spells (Kind.unknown.name ++ [Text.unit '('] ++ ([] ++ Text.ofNat n) ++
      [Text.unit ')']) (Text.ofNat n).digitsValue := by
    refine .unknown ?_ ?_ ?_ ?_ ?_ ?_ ?_
    · decide
    · exact Or.inl rfl
    · exact Or.inl rfl
    · exact Text.ofNat_ne_nil n
    · exact fun u hu => Text.isDigit_of_mem_ofNat hu
    · exact Or.inr ⟨_, [], rfl, Or.inr rfl⟩
    · rwa [hread]
  rwa [hread] at hspells

/-- The text of a chain by its number. -/
theorem text_eq (hkind : c.kind = .ofNumber c.value) (hvalue : c.value = .ofNat n)
    (hn : n ≤ 65535) :
    c.text =
      if n = 0 then Kind.any.name
      else if n = 1 then Kind.solana.name
      else Kind.unknown.name ++ [Text.unit '('] ++ Text.ofNat n ++ [Text.unit ')'] := by
  rw [hvalue] at hkind
  by_cases h0 : n = 0
  · subst h0
    rw [text, hkind]
    rfl
  · by_cases h1 : n = 1
    · subst h1
      rw [text, hkind]
      rfl
    · have hunknown : c.kind = .unknown := by simp [hkind, Kind.ofNumber, h0, h1]
      rw [if_neg h0, if_neg h1, text, hunknown, hvalue,
        Json.text_ofNat (Number.isSafe_of_isU16 hn)]

/-- **The canonical text of a chain spells its number.** -/
theorem spells_text (hkind : c.kind = .ofNumber c.value) (hvalue : c.value = .ofNat n)
    (hn : n ≤ 65535) : Spells c.text n := by
  rw [text_eq hkind hvalue hn]
  by_cases h0 : n = 0
  · rw [if_pos h0, h0]
    exact .any (by decide)
  · by_cases h1 : n = 1
    · rw [if_neg h0, if_pos h1, h1]
      exact .solana (by decide)
    · rw [if_neg h0, if_neg h1]
      exact spells_unknown hn

/-! ### Names -/

theorem name?_eq (hvalue : c.value = .ofNat n) :
    c.name? =
      if n = 0 then some (Text.ofString "any")
      else if n = 1 then some (Text.ofString "solana")
      else none := by
  unfold name?
  rw [hvalue, Number.unsignZero_ofNat]
  by_cases h0 : n = 0
  · rw [if_pos h0, h0]
    rfl
  · by_cases h1 : n = 1
    · rw [if_neg h0, if_pos h1, h1]
      rfl
    · have hany : (Number.ofNat n == .ofNat 0) = false :=
        beq_false_of_ne fun h => h0 (Number.ofNat_injective h)
      have hsolana : (Number.ofNat n == .ofNat 1) = false :=
        beq_false_of_ne fun h => h1 (Number.ofNat_injective h)
      simp [nameTable, names, List.lookup_cons, hany, hsolana, h0, h1]

/-- **The name of a chain stands for its number.** -/
theorem numberOfName_of_name? (hvalue : c.value = .ofNat n) {s : Text} (h : c.name? = some s) :
    numberOfName s = .number c.value := by
  rw [name?_eq hvalue] at h
  by_cases h0 : n = 0
  · rw [if_pos h0] at h
    cases h
    rw [hvalue, h0]
    rfl
  · by_cases h1 : n = 1
    · rw [if_neg h0, if_pos h1] at h
      cases h
      rw [hvalue, h1]
      rfl
    · rw [if_neg h0, if_neg h1] at h
      cases h

end Interchain.Chain
