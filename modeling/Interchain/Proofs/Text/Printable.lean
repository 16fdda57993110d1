import Interchain.Number.Shortest
import Interchain.Proofs.Text.Hexadecimal

/-! # Printable texts

The units below U+0020 control a line or a terminal, and a text without them is printable. Cutting a
text in the middle and joining texts bring in no units but those of the ellipsis and the separator
(`mem_elide`, `mem_join`). Numbers are written with digits, signs, points and a few letters, so
their texts are printable, whatever the notation (`Number.printable_text`).
-/

namespace Interchain.Text

variable {s t : Text} {u : UInt16}

/-- No unit of the text is below U+0020. -/
def Printable (t : Text) : Prop := ∀ u ∈ t, 0x20 ≤ u

instance (t : Text) : Decidable (Printable t) := List.decidableBAll _ t

theorem printable_cons : Printable (u :: t) ↔ 0x20 ≤ u ∧ Printable t := List.forall_mem_cons

theorem printable_append : Printable (s ++ t) ↔ Printable s ∧ Printable t := List.forall_mem_append

theorem Printable.append (hs : Printable s) (ht : Printable t) : Printable (s ++ t) :=
  printable_append.2 ⟨hs, ht⟩

theorem Printable.not_mem (h : Printable t) (hu : u < 0x20) : u ∉ t :=
  fun hmem => UInt16.not_lt.2 (h u hmem) hu

/-! ### Cutting and joining -/

section

variable {limit : Nat}

theorem elide_of_le (h : t.length ≤ limit) : elide limit t = t := by
  rw [elide, if_pos h]

theorem elide_of_lt (h : limit < t.length) :
    elide limit t =
      t.take (endLength limit) ++ ellipsis ++ t.drop (t.length - endLength limit) := by
  rw [elide, if_neg (Nat.not_le.2 h)]

/-- Nothing is left of a text only if there was nothing. -/
theorem elide_eq_nil_iff : elide limit t = [] ↔ t = [] := by
  by_cases hle : t.length ≤ limit
  · rw [elide_of_le hle]
  · have hlt : limit < t.length := Nat.not_le.1 hle
    have ht : t ≠ [] := List.ne_nil_of_length_pos (Nat.zero_lt_of_lt hlt)
    have hellipsis : ellipsis ≠ [] := by decide
    rw [elide_of_lt hlt]
    simp [ht, hellipsis]

end

/-- A text that was cut has the units of its two ends and the ellipsis. -/
theorem mem_elide {limit : Nat} (h : u ∈ elide limit t) : u ∈ t ∨ u ∈ ellipsis := by
  unfold elide at h
  split at h
  · exact Or.inl h
  · rcases List.mem_append.1 h with h | h
    · rcases List.mem_append.1 h with h | h
      · exact Or.inl (List.mem_of_mem_take h)
      · exact Or.inr h
    · exact Or.inl (List.mem_of_mem_drop h)

/-- Joined texts have their own units and those of the separator. -/
theorem mem_join {separator : Text} {parts : List Text} (h : u ∈ join separator parts) :
    u ∈ separator ∨ ∃ t ∈ parts, u ∈ t := by
  unfold join at h
  induction parts with
  | nil => cases h
  | cons t rest ih =>
    cases rest with
    | nil =>
      rw [List.intercalate_singleton] at h
      exact Or.inr ⟨t, List.mem_cons_self, h⟩
    | cons next more =>
      rw [List.intercalate_cons_cons] at h
      rcases List.mem_append.1 h with h | h
      · rcases List.mem_append.1 h with h | h
        · exact Or.inr ⟨t, List.mem_cons_self, h⟩
        · exact Or.inl h
      · refine (ih h).imp_right ?_
        rintro ⟨t', ht', hu⟩
        exact ⟨t', List.mem_cons_of_mem t ht', hu⟩

theorem not_mem_elide (hellipsis : u ∉ ellipsis) (h : u ∉ t) (limit : Nat) : u ∉ elide limit t :=
  fun hmem => (mem_elide hmem).elim h hellipsis

theorem not_mem_join {separator : Text} {parts : List Text} (hseparator : u ∉ separator)
    (h : ∀ t ∈ parts, u ∉ t) : u ∉ join separator parts := by
  intro hmem
  rcases mem_join hmem with hmem | ⟨t, ht, hmem⟩
  · exact hseparator hmem
  · exact h t ht hmem

/-- A cut text keeps to its limit, if the two ends and the ellipsis do. -/
theorem length_elide_le {limit : Nat} (hlimit : 2 * endLength limit < limit) (t : Text) :
    (elide limit t).length ≤ limit := by
  have hellipsis : ellipsis.length = 1 := by decide
  unfold elide
  split
  · assumption
  · simp only [List.length_append, List.length_take, List.length_drop, hellipsis]
    omega

/-- A text that was cut is shorter than before. -/
theorem length_elide_lt {limit : Nat} (hlimit : 2 * endLength limit < limit)
    (h : elide limit t ≠ t) : (elide limit t).length < t.length := by
  by_cases hle : t.length ≤ limit
  · exact absurd (elide_of_le hle) h
  · have hcut := length_elide_le hlimit t
    omega

/-- Joined texts end as the last one does, if that is not empty. -/
theorem getLast?_join {separator last : Text} (hlast : last ≠ []) (parts : List Text) :
    (join separator (parts ++ [last])).getLast? = last.getLast? := by
  induction parts with
  | nil => simp [join]
  | cons part rest ih =>
    obtain ⟨next, more, hnext⟩ : ∃ next more, rest ++ [last] = next :: more :=
      List.exists_cons_of_ne_nil (by simp)
    have hsome : last.getLast?.isSome := List.getLast?_isSome.2 hlast
    simp only [join, List.cons_append, hnext, List.intercalate_cons_cons] at ih ⊢
    rw [List.getLast?_append, ih, Option.or_of_isSome hsome]

theorem Printable.elide (h : Printable t) (limit : Nat) : Printable (elide limit t) := by
  have hellipsis : Printable ellipsis := by decide
  intro u hu
  exact (mem_elide hu).elim (h u) (hellipsis u)

theorem Printable.join {separator : Text} {parts : List Text} (hseparator : Printable separator)
    (h : ∀ t ∈ parts, Printable t) : Printable (join separator parts) := by
  intro u hu
  rcases mem_join hu with hu | ⟨t, ht, hu⟩
  · exact hseparator u hu
  · exact h t ht u hu

/-! ### Digits -/

theorem space_le_of_isDigit (h : isDigit u = true) : 0x20 ≤ u := by
  simp only [isDigit, Bool.and_eq_true, decide_eq_true_eq] at h
  exact UInt16.le_trans (by decide) h.1

theorem printable_ofNat (n : Nat) : Printable (ofNat n) :=
  fun _ hu => space_le_of_isDigit (isDigit_of_mem_ofNat hu)

theorem printable_ofInt (n : Int) : Printable (ofInt n) := by
  unfold ofInt
  split
  · exact printable_cons.2 ⟨by decide, printable_ofNat _⟩
  · exact printable_ofNat _

theorem space_le_hexDigit {d : Nat} (h : d < 16) : 0x20 ≤ hexDigit d := by
  revert h d
  decide

end Interchain.Text

/-! ### Numbers -/

namespace Interchain.Number

open Text (Printable)

theorem Digits.printable_zeros (n : Nat) : Printable (zeros n) := by
  intro u hu
  rw [List.eq_of_mem_replicate hu]
  decide

theorem Digits.printable_exponential (d : Digits) : Printable d.exponential := by
  have hdigits := Text.printable_ofNat d.digits
  have hexponent := Text.printable_ofNat (d.point - 1).natAbs
  have hsign : Printable [Text.unit 'e', Text.unit (if d.point - 1 < 0 then '-' else '+')] := by
    split <;> decide
  simp only [exponential]
  refine Text.Printable.append (Text.Printable.append ?_ hsign) hexponent
  split
  · next first second rest hsplit =>
    rw [hsplit, Text.printable_cons] at hdigits
    exact Text.printable_cons.2 ⟨hdigits.1, Text.printable_cons.2 ⟨by decide, hdigits.2⟩⟩
  · exact hdigits

theorem Digits.printable_text (d : Digits) : Printable d.text := by
  have hdigits := Text.printable_ofNat d.digits
  have htake : Printable ((Text.ofNat d.digits).take d.point.toNat) :=
    fun u hu => hdigits u (List.mem_of_mem_take hu)
  have hdrop : Printable ((Text.ofNat d.digits).drop d.point.toNat) :=
    fun u hu => hdigits u (List.mem_of_mem_drop hu)
  simp only [text]
  split
  · exact hdigits.append (printable_zeros _)
  · split
    · exact (htake.append (by decide)).append hdrop
    · split
      · have hzero : Printable (Text.ofString "0.") := by decide
        exact (hzero.append (printable_zeros _)).append hdigits
      · exact d.printable_exponential

theorem printable_magnitudeText (numerator halvings : Nat) :
    Printable (magnitudeText numerator halvings) := by
  unfold magnitudeText
  split
  · exact Text.printable_ofNat numerator
  · exact Digits.printable_text _

/-- **The text of a number is printable.** -/
theorem printable_text (x : Number) : Printable x.text := by
  cases x with
  | nan => decide
  | infinite negative => cases negative <;> decide
  | finite negative numerator halvings lowest =>
    rw [text]
    split
    · exact Text.printable_cons.2 ⟨by decide, printable_magnitudeText _ _⟩
    · exact printable_magnitudeText _ _

end Interchain.Number
