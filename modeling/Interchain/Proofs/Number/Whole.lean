import Interchain.Number.Nearest
import Mathlib.Tactic.Ring

/-! # Whole numbers of 16 bits

A number of 16 bits is one of `ofNat 0` to `ofNat 65535` once a zero has lost its sign
(`isU16_iff`). Reading digits rounds them to the nearest number, but never across the bound: however
many digits there are, the number read has 16 bits exactly if the exact value of the digits has
(`isU16_ofDecimal`). From `2 ^ 53` on the number read is at least `2 ^ 53`, or infinite.
-/

namespace Interchain.Number

@[simp] theorem toInt?_ofNat (n : Nat) : (ofNat n).toInt? = some (n : Int) := rfl

theorem ofInt_natCast (n : Nat) : ofInt n = ofNat n := by
  have h : ¬((n : Int) < 0) := by omega
  simp [ofInt, ofNat, whole, h]

theorem ofNat_injective {m n : Nat} (h : ofNat m = ofNat n) : m = n := by
  simpa [ofNat, whole] using h

@[simp] theorem ofNat_inj {m n : Nat} : ofNat m = ofNat n ↔ m = n :=
  ⟨ofNat_injective, fun h => h ▸ rfl⟩

@[simp] theorem unsignZero_ofNat (n : Nat) : (ofNat n).unsignZero = ofNat n := by
  by_cases h : n = 0 <;> simp [unsignZero, isZero, ofNat, whole, h]

theorem equal_ofNat {m n : Nat} : (ofNat m).equal (ofNat n) = true ↔ m = n := by
  have hnumber : ofNat m ≠ .nan := nofun
  rw [equal, unsignZero_ofNat, unsignZero_ofNat, bne_iff_ne.2 hnumber, Bool.true_and, beq_iff_eq,
    ofNat_inj]

theorem isU16_whole (negative : Bool) (n : Nat) :
    (whole negative n).isU16 = true ↔ n ≤ maxU16 ∧ (negative = true → n = 0) := by
  cases negative <;> simp [isU16, whole, toInt?, signed, maxU16]
  omega

theorem unsignZero_whole (negative : Bool) (n : Nat) :
    (whole negative n).unsignZero = if n = 0 then ofNat 0 else whole negative n := by
  by_cases h : n = 0 <;> simp [unsignZero, isZero, whole, h]

/-- **The numbers of 16 bits.** Only negative zero is not already written without a sign. -/
theorem isU16_iff {x : Number} :
    x.isU16 = true ↔ ∃ n : Nat, n ≤ maxU16 ∧ x.unsignZero = ofNat n := by
  cases x with
  | nan => simp [isU16, toInt?, unsignZero, isZero, ofNat, whole]
  | infinite negative => simp [isU16, toInt?, unsignZero, isZero, ofNat, whole]
  | finite negative numerator halvings lowest =>
    cases halvings with
    | zero =>
      change (whole negative numerator).isU16 = true ↔
        ∃ n, n ≤ maxU16 ∧ (whole negative numerator).unsignZero = ofNat n
      rw [isU16_whole, unsignZero_whole]
      constructor
      · rintro ⟨hle, hneg⟩
        refine ⟨numerator, hle, ?_⟩
        by_cases h : numerator = 0
        · rw [if_pos h, h]
        · cases negative with
          | false => rw [if_neg h]; rfl
          | true => exact absurd (hneg rfl) h
      · rintro ⟨n, hle, he⟩
        by_cases h : numerator = 0
        · exact ⟨h ▸ Nat.zero_le _, fun _ => h⟩
        · rw [if_neg h] at he
          simp only [whole, ofNat, finite.injEq] at he
          exact ⟨he.2.1 ▸ hle, fun ht => absurd (he.1 ▸ ht) (by simp)⟩
    | succ halvings =>
      have hodd : numerator % 2 = 1 := lowest.resolve_left (Nat.succ_ne_zero _)
      have hzero : numerator ≠ 0 := by omega
      simp [isU16, toInt?, unsignZero, isZero, ofNat, whole, hzero]

theorem isU16_iff_toInt? {x : Number} :
    x.isU16 = true ↔ ∃ n, x.toInt? = some n ∧ 0 ≤ n ∧ n ≤ 65535 := by
  have hmax : ((maxU16 : Nat) : Int) = 65535 := rfl
  unfold isU16
  cases x.toInt? <;> simp [hmax]

/-- Without the sign of a zero there is one number for each natural number. -/
theorem unsignZero_of_toInt? {x : Number} {n : Nat} (hx : x.toInt? = some (n : Int)) :
    x.unsignZero = .ofNat n := by
  cases x with
  | finite negative numerator halvings lowest =>
    cases halvings with
    | succ halvings => cases hx
    | zero =>
      have hsigned : signed negative numerator = n := Option.some.inj hx
      change (whole negative numerator).unsignZero = _
      rw [unsignZero_whole]
      cases negative with
      | false =>
        have hnumerator : numerator = n := Int.ofNat.inj hsigned
        by_cases h0 : numerator = 0
        · rw [if_pos h0, ← hnumerator, h0]
        · rw [if_neg h0, ← hnumerator]
          rfl
      | true =>
        -- Of the numbers with a sign only zero is a natural number.
        have hneg : -(numerator : Int) = n := hsigned
        have h0 : numerator = 0 := by omega
        have hn : n = 0 := by omega
        rw [if_pos h0, hn]
  | _ => cases hx

theorem isU16_ofNat {n : Nat} : (ofNat n).isU16 = true ↔ n ≤ maxU16 := by
  simp [isU16_iff]

theorem isSafe_of_isU16 {n : Nat} (h : n ≤ maxU16) : isSafe n = true :=
  decide_eq_true (Nat.lt_of_le_of_lt h (by decide))

/-! ### Reading digits -/

theorem div_le_roundHalfEven (num den : Nat) : num / den ≤ roundHalfEven num den := by
  simp only [roundHalfEven]
  split
  · exact Nat.le_refl _
  · split
    · exact Nat.le_succ _
    · exact Nat.le_add_right _ _

/-- The exponent of a whole number is that of its leading binary digit. -/
theorem binaryExponent_one {n : Nat} (h : n ≠ 0) : binaryExponent n 1 = (n.log2 : Int) := by
  have hlog : Nat.log2 1 = 0 := by decide
  have hle : 2 ^ n.log2 ≤ n := Nat.log2_self_le h
  simp [binaryExponent, hlog, Nat.one_shiftLeft, hle]

theorem spacing_one {n : Nat} (h : 2 ^ 53 ≤ n) : spacing n 1 = ((n.log2 - 52 : Nat) : Int) := by
  have hn : n ≠ 0 := by omega
  have hlog : 53 ≤ n.log2 := (Nat.le_log2 hn).2 h
  rw [spacing, binaryExponent_one hn]
  omega

/-- A whole number from `2 ^ 53` on is rounded, but not below `2 ^ 53`. -/
theorem le_rounded {n : Nat} (h : 2 ^ 53 ≤ n) :
    2 ^ 53 ≤ roundHalfEven n (2 ^ (n.log2 - 52)) * 2 ^ (n.log2 - 52) := by
  have hn : n ≠ 0 := by omega
  have hlog : 53 ≤ n.log2 := (Nat.le_log2 hn).2 h
  have hsteps : 2 ^ 52 ≤ roundHalfEven n (2 ^ (n.log2 - 52)) := by
    refine Nat.le_trans ?_ (div_le_roundHalfEven _ _)
    rw [Nat.le_div_iff_mul_le (Nat.two_pow_pos _), ← Nat.pow_add,
      show 52 + (n.log2 - 52) = n.log2 by omega]
    exact Nat.log2_self_le hn
  calc 2 ^ 53 = 2 ^ 52 * 2 ^ 1 := by ring
    _ ≤ _ := Nat.mul_le_mul hsteps (Nat.pow_le_pow_right (by decide) (by omega))

/-- A whole number below `2 ^ 53` needs no rounding. -/
theorem ofRatio_one_of_lt (negative : Bool) {n : Nat} (h : n < 2 ^ 53) :
    ofRatio negative n 1 = whole negative n := by
  rw [ofRatio, if_pos ⟨Nat.mod_one n, by rwa [Nat.div_one]⟩, Nat.div_one]

/-- The number nearest to a whole number from `2 ^ 53` on is at least that great. -/
theorem ofRatio_one_of_le (negative : Bool) {n : Nat} (h : 2 ^ 53 ≤ n) :
    ofRatio negative n 1 = .infinite negative ∨
      ∃ m, 2 ^ 53 ≤ m ∧ ofRatio negative n 1 = whole negative m := by
  have hratio : ofRatio negative n 1 =
      ofSteps negative (roundHalfEven n (2 ^ (n.log2 - 52))) (Int.ofNat (n.log2 - 52)) := by
    have hneg : (-((n.log2 - 52 : Nat) : Int)).toNat = 0 := by omega
    rw [ofRatio, if_neg (by rw [Nat.div_one, Nat.one_shiftLeft]; omega)]
    simp only [spacing_one h, hneg, Int.toNat_natCast, Nat.shiftLeft_zero, Nat.one_shiftLeft]
    rfl
  rw [hratio, ofSteps]
  split
  · exact Or.inl rfl
  · exact Or.inr ⟨_, by rw [Nat.shiftLeft_eq]; exact le_rounded h, rfl⟩

theorem isU16_ofRatio_one (n : Nat) : (ofRatio false n 1).isU16 = true ↔ n ≤ maxU16 := by
  by_cases h : n < 2 ^ 53
  · rw [ofRatio_one_of_lt false h, isU16_whole]
    simp
  · have hle : 2 ^ 53 ≤ n := Nat.le_of_not_lt h
    have hmax : maxU16 < 2 ^ 53 := by decide
    have hbig : ¬n ≤ maxU16 := by omega
    rcases ofRatio_one_of_le false hle with hround | ⟨m, hm, hround⟩
    · rw [hround]
      exact iff_of_false Bool.false_ne_true hbig
    · have hmbig : ¬m ≤ maxU16 := by omega
      rw [hround, isU16_whole]
      exact iff_of_false (fun hu => hmbig hu.1) hbig

/-- **No rounding across the bound.** The number nearest to a whole number has 16 bits exactly if
the whole number has. -/
theorem isU16_ofDecimal (n : Nat) : (ofDecimal false n 0).isU16 = true ↔ n ≤ maxU16 := by
  by_cases h : n = 0
  · rw [ofDecimal, if_pos h, isU16_whole, h]
    simp
  · have hbound : ¬(n.log2 : Int) + 1100 < -3 * 0 := by omega
    rw [ofDecimal, if_neg h, if_neg (by decide), if_neg hbound]
    simpa using isU16_ofRatio_one n

/-- Digits below `2 ^ 53` need no rounding. -/
theorem ofDecimal_of_lt (negative : Bool) {n : Nat} (h : n < 2 ^ 53) :
    ofDecimal negative n 0 = whole negative n := by
  by_cases h0 : n = 0
  · rw [ofDecimal, if_pos h0, h0]
  · have hbound : ¬(n.log2 : Int) + 1100 < -3 * 0 := by omega
    rw [ofDecimal, if_neg h0, if_neg (by decide), if_neg hbound]
    simp only [Int.toNat_zero, Int.neg_zero, Nat.pow_eq, Nat.pow_zero, Nat.mul_one]
    exact ofRatio_one_of_lt negative h

theorem ofDecimal_of_isU16 {n : Nat} (h : n ≤ maxU16) : ofDecimal false n 0 = ofNat n :=
  ofDecimal_of_lt false (Nat.lt_of_le_of_lt h (by decide))

end Interchain.Number
