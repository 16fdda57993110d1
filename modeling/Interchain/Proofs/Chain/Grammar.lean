import Interchain.Chain.Parse
import Interchain.Proofs.Number.Whole
import Mathlib.Data.List.TakeDrop
import Mathlib.Data.List.TakeWhile

/-! # The grammar of chain texts

`Spells s n` says that the text `s` spells the chain number `n`, and it says so in whole numbers
alone. `read?` decides it (`read?_eq_some_iff`): of a text that is neither `any` nor `solana` it
takes the word up to the first bracket and the digits up to the next one, and it never looks
further. `spelledNumber?` reads the same digits as a binary number; `isU16_ofText` says that the
two agree on which digits are a chain number, and `ofText_of_isU16` on which number they are.
-/

namespace Interchain.Chain

/-- A text spells a number: it is one of the two words, or the word `unknown`, a bracket of either
side, digits after an optional plus sign, and then nothing or anything behind another bracket. -/
inductive Spells : Text → Nat → Prop
  | any {s : Text} : s.lower = Text.ofString "any" → Spells s 0
  | solana {s : Text} : s.lower = Text.ofString "solana" → Spells s 1
  | unknown {word sign digits rest : Text} {bracket : UInt16} :
      word.lower = Text.ofString "unknown" →
      (bracket = Text.unit '(' ∨ bracket = Text.unit ')') →
      (sign = [] ∨ sign = [Text.unit '+']) →
      digits ≠ [] → (∀ u ∈ digits, Text.isDigit u = true) →
      (rest = [] ∨ ∃ u after, rest = u :: after ∧ (u = Text.unit '(' ∨ u = Text.unit ')')) →
      digits.digitsValue ≤ 65535 →
      Spells (word ++ [bracket] ++ (sign ++ digits) ++ rest) digits.digitsValue

/-- A number without its plus sign. -/
def unsigned (t : Text) : Text := if t.head? = some (Text.unit '+') then t.tail else t

/-- The chain number that a text spells. -/
def read? (s : Text) : Option Nat :=
  if s.lower = Text.ofString "any" then some 0
  else if s.lower = Text.ofString "solana" then some 1
  else
    match segments s with
    | (word, some number) =>
      if word.lower = Text.ofString "unknown" ∧ isUnsigned number = true
          ∧ (unsigned number).digitsValue ≤ 65535 then
        some (unsigned number).digitsValue
      else none
    | (_, none) => none

theorem isBracket_iff {u : UInt16} :
    isBracket u = true ↔ u = Text.unit '(' ∨ u = Text.unit ')' := by
  simp [isBracket]

theorem isUnsigned_iff {t : Text} :
    isUnsigned t = true ↔ unsigned t ≠ [] ∧ ∀ u ∈ unsigned t, Text.isDigit u = true := by
  simp only [isUnsigned, unsigned, Bool.and_eq_true, List.all_eq_true]
  generalize (if t.head? = some (Text.unit '+') then t.tail else t) = d
  cases d <;> simp

theorem isBracket_of_isDigit {u : UInt16} (h : Text.isDigit u = true) : isBracket u = false := by
  rw [Bool.eq_false_iff]
  intro hb
  rcases isBracket_iff.mp hb with rfl | rfl <;> exact absurd h (by decide)

theorem ne_of_isDigit {u v : UInt16} (h : Text.isDigit u = true) (hv : Text.isDigit v = false) :
    u ≠ v := by
  rintro rfl
  rw [h] at hv
  cases hv

/-! ### Splitting at brackets -/

/-- A bracket has no other case, so a word without brackets has none in either case. -/
theorem isBracket_of_mem_lower {word : Text} {known : Text} (h : word.lower = known)
    (hk : known.any isBracket = false) : ∀ u ∈ word, isBracket u = false := by
  intro u hu
  rw [Bool.eq_false_iff]
  intro hb
  have hfix : Text.lowerUnit u = u := by rcases isBracket_iff.mp hb with rfl | rfl <;> decide
  have hmem : u ∈ known := by
    rw [← h, ← hfix]
    exact List.mem_map_of_mem hu
  exact List.any_eq_false.mp hk u hmem hb

theorem takeWhile_stop {p : UInt16 → Bool} {l r : Text} (hl : ∀ u ∈ l, p u = true)
    (hr : r = [] ∨ ∃ u after, r = u :: after ∧ p u = false) : (l ++ r).takeWhile p = l := by
  rw [List.takeWhile_append_of_pos hl]
  rcases hr with rfl | ⟨u, after, rfl, hu⟩
  · simp
  · rw [List.takeWhile_cons_of_neg (by simp [hu]), List.append_nil]

theorem dropWhile_stop {p : UInt16 → Bool} {l r : Text} {u : UInt16} (hl : ∀ v ∈ l, p v = true)
    (hu : p u = false) : (l ++ u :: r).dropWhile p = u :: r := by
  rw [List.dropWhile_append_of_pos hl, List.dropWhile_cons_of_neg (by simp [hu])]

theorem segments_append {word number rest : Text} {bracket : UInt16}
    (hword : ∀ u ∈ word, isBracket u = false) (hbracket : isBracket bracket = true)
    (hnumber : ∀ u ∈ number, isBracket u = false)
    (hrest : rest = [] ∨ ∃ u after, rest = u :: after ∧ isBracket u = true) :
    segments (word ++ [bracket] ++ number ++ rest) = (word, some number) := by
  have htext : word ++ [bracket] ++ number ++ rest = word ++ bracket :: (number ++ rest) := by simp
  have hstop : (word ++ bracket :: (number ++ rest)).takeWhile (fun u => !isBracket u) = word :=
    takeWhile_stop (by simpa using hword) (Or.inr ⟨bracket, _, rfl, by simp [hbracket]⟩)
  have hdrop : (word ++ bracket :: (number ++ rest)).dropWhile (fun u => !isBracket u) =
      bracket :: (number ++ rest) :=
    dropWhile_stop (by simpa using hword) (by simp [hbracket])
  have htake : (number ++ rest).takeWhile (fun u => !isBracket u) = number := by
    refine takeWhile_stop (by simpa using hnumber) ?_
    simpa using hrest
  rw [htext, segments, List.span_eq_takeWhile_dropWhile, hstop, hdrop]
  simp only [htake]

/-- What the two segments say of the text. -/
theorem eq_of_segments {s word number : Text} (h : segments s = (word, some number)) :
    ∃ bracket rest, s = word ++ [bracket] ++ number ++ rest ∧ isBracket bracket = true ∧
      (rest = [] ∨ ∃ u after, rest = u :: after ∧ isBracket u = true) := by
  rw [segments, List.span_eq_takeWhile_dropWhile] at h
  have hsplit := List.takeWhile_append_dropWhile (p := fun u => !isBracket u) (l := s)
  cases hd : s.dropWhile (fun u => !isBracket u) with
  | nil => simp [hd] at h
  | cons bracket after =>
    simp only [hd, Prod.mk.injEq, Option.some.injEq] at h
    obtain ⟨hword, hnumber⟩ := h
    have hbracket : isBracket bracket = true := by
      simpa [hd] using List.head_dropWhile_not (p := fun u => !isBracket u) (l := s) (by simp [hd])
    refine ⟨bracket, after.dropWhile fun u => !isBracket u, ?_, hbracket, ?_⟩
    · have hafter := List.takeWhile_append_dropWhile (p := fun u => !isBracket u) (l := after)
      rw [← hword, ← hnumber, List.append_assoc, hafter, List.append_assoc]
      rw [hd] at hsplit
      simpa using hsplit.symm
    · cases hr : after.dropWhile (fun u => !isBracket u) with
      | nil => exact Or.inl rfl
      | cons u t =>
        have hu := List.head_dropWhile_not (fun u => !isBracket u) (l := after) (by simp [hr])
        exact Or.inr ⟨u, t, rfl, by simpa [hr] using hu⟩

/-! ### The grammar is decided -/

theorem unsigned_append {sign digits : Text} (hsign : sign = [] ∨ sign = [Text.unit '+'])
    (hd : ∀ u ∈ digits, Text.isDigit u = true) : unsigned (sign ++ digits) = digits := by
  rcases hsign with rfl | rfl
  · cases digits with
    | nil => rfl
    | cons u rest =>
      have hu : u ≠ Text.unit '+' := ne_of_isDigit (hd u (by simp)) (by decide)
      simp [unsigned, hu]
  · simp [unsigned]

theorem sign_append_unsigned (number : Text) :
    ∃ sign, (sign = [] ∨ sign = [Text.unit '+']) ∧ number = sign ++ unsigned number := by
  by_cases h : number.head? = some (Text.unit '+')
  · refine ⟨[Text.unit '+'], Or.inr rfl, ?_⟩
    cases number with
    | nil => simp at h
    | cons u rest =>
      simp only [List.head?_cons, Option.some.injEq] at h
      simp [unsigned, h]
  · exact ⟨[], Or.inl rfl, by simp [unsigned, h]⟩

theorem spells_of_segments {s word number : Text} (h : segments s = (word, some number))
    (hword : word.lower = Text.ofString "unknown") (hnumber : isUnsigned number = true)
    (hbound : (unsigned number).digitsValue ≤ 65535) :
    Spells s (unsigned number).digitsValue := by
  obtain ⟨bracket, rest, hs, hbracket, hrest⟩ := eq_of_segments h
  obtain ⟨sign, hsign, hsplit⟩ := sign_append_unsigned number
  obtain ⟨hne, hdigits⟩ := isUnsigned_iff.mp hnumber
  rw [hsplit] at hs
  rw [hs]
  exact .unknown hword (isBracket_iff.mp hbracket) hsign hne hdigits
    (hrest.imp_right fun ⟨u, after, he, hu⟩ => ⟨u, after, he, isBracket_iff.mp hu⟩) hbound

/-- A text with a bracket is neither of the two words. -/
theorem lower_ne_of_bracket {s known : Text} {bracket : UInt16} (hmem : bracket ∈ s)
    (hbracket : isBracket bracket = true) (hk : known.any isBracket = false) :
    s.lower ≠ known := by
  intro h
  rw [isBracket_of_mem_lower h hk bracket hmem] at hbracket
  cases hbracket

theorem read?_of_spells {s : Text} {n : Nat} (h : Spells s n) : read? s = some n := by
  cases h with
  | any h => rw [read?, if_pos h]
  | solana h => rw [read?, if_neg (by rw [h]; decide), if_pos h]
  | @unknown word sign digits rest bracket hword hbracket hsign hne hdigits hrest hbound =>
    have hb : isBracket bracket = true := isBracket_iff.mpr hbracket
    have hmem : bracket ∈ word ++ [bracket] ++ (sign ++ digits) ++ rest := by simp
    have hnumber : ∀ u ∈ sign ++ digits, isBracket u = false := by
      intro u hu
      rcases List.mem_append.mp hu with hu | hu
      · rcases hsign with rfl | rfl
        · simp at hu
        · rw [List.mem_singleton.mp hu]; decide
      · exact isBracket_of_isDigit (hdigits u hu)
    have hseg := segments_append (isBracket_of_mem_lower hword (by decide)) hb hnumber
      (hrest.imp_right fun ⟨u, after, he, hu⟩ => ⟨u, after, he, isBracket_iff.mpr hu⟩)
    have hun : unsigned (sign ++ digits) = digits := unsigned_append hsign hdigits
    have hread : isUnsigned (sign ++ digits) = true :=
      isUnsigned_iff.mpr (by rw [hun]; exact ⟨hne, hdigits⟩)
    rw [read?, if_neg (lower_ne_of_bracket hmem hb (by decide)),
      if_neg (lower_ne_of_bracket hmem hb (by decide)), hseg]
    simp only [hun]
    rw [if_pos ⟨hword, hread, hbound⟩]

theorem spells_of_read? {s : Text} {n : Nat} (h : read? s = some n) : Spells s n := by
  rw [read?] at h
  split at h
  · next hany => cases h; exact .any hany
  · split at h
    · next hsolana => cases h; exact .solana hsolana
    · split at h
      · next word number hseg =>
        split at h
        · next hc => cases h; exact spells_of_segments hseg hc.1 hc.2.1 hc.2.2
        · cases h
      · cases h

/-- **The grammar is decided**, and with it a text spells at most one number. -/
theorem read?_eq_some_iff {s : Text} {n : Nat} : read? s = some n ↔ Spells s n :=
  ⟨spells_of_read?, read?_of_spells⟩

/-! ### The digits as a binary number -/

theorem takeSign_digits {digits : Text} (h : ∀ u ∈ digits, Text.isDigit u = true) :
    Number.takeSign digits = (false, digits) := by
  cases digits with
  | nil => rfl
  | cons u rest =>
    have hu := h u (by simp)
    rw [Number.takeSign, if_neg (ne_of_isDigit hu (by decide)),
      if_neg (ne_of_isDigit hu (by decide))]

theorem takeSign_number {number : Text} (h : isUnsigned number = true) :
    Number.takeSign number = (false, unsigned number) := by
  obtain ⟨sign, hsign, hsplit⟩ := sign_append_unsigned number
  obtain ⟨-, hdigits⟩ := isUnsigned_iff.mp h
  generalize unsigned number = digits at hsplit hdigits
  rw [hsplit]
  rcases hsign with rfl | rfl
  · exact takeSign_digits hdigits
  · rfl

theorem ofUnsigned_digits {digits : Text} (hne : digits ≠ [])
    (h : ∀ u ∈ digits, Text.isDigit u = true) :
    Number.ofUnsigned false digits = Number.ofDecimal false digits.digitsValue 0 := by
  have htake : digits.takeWhile Text.isDigit = digits := List.takeWhile_eq_self_iff.mpr h
  have hdrop : digits.dropWhile Text.isDigit = [] := List.dropWhile_eq_nil_iff.mpr h
  have hempty : digits.isEmpty = false := by simpa using hne
  rw [Number.ofUnsigned, List.span_eq_takeWhile_dropWhile, htake, hdrop]
  simp [hempty, Number.exponent?]

theorem ofText_number {number : Text} (h : isUnsigned number = true) :
    Number.ofText number = Number.ofDecimal false (unsigned number).digitsValue 0 := by
  obtain ⟨hne, hdigits⟩ := isUnsigned_iff.mp h
  have hinf : unsigned number ≠ Text.ofString "Infinity" := by
    intro he
    have hI : Text.unit 'I' ∈ unsigned number := by rw [he]; decide
    exact absurd (hdigits _ hI) (by decide)
  rw [Number.ofText, takeSign_number h]
  simp only [if_neg hinf]
  exact ofUnsigned_digits hne hdigits

/-- **Digits of any length are judged by their exact value.** -/
theorem isU16_ofText {number : Text} (h : isUnsigned number = true) :
    (Number.ofText number).isU16 = true ↔ (unsigned number).digitsValue ≤ 65535 := by
  rw [ofText_number h]
  exact Number.isU16_ofDecimal _

theorem ofText_of_isU16 {number : Text} (h : isUnsigned number = true)
    (hbound : (unsigned number).digitsValue ≤ 65535) :
    Number.ofText number = .ofNat (unsigned number).digitsValue := by
  rw [ofText_number h]
  exact Number.ofDecimal_of_isU16 hbound

end Interchain.Chain
