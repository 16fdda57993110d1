import Interchain.Failure.Style
import Interchain.Proofs.Text.Printable
import Mathlib.Data.List.TakeWhile

/-! # Painted texts

Deleting the control sequences of a painted text gives back the text that was painted
(`paints_paint`). `Paints` says this of a piece of text whatever stands behind it, so painted pieces
can be put together: a control sequence is a painting of nothing, and a unit other than the escape
unit is a painting of itself. The text must not hold the escape unit; then it has no control
sequence of its own, and none comes about where the pieces meet.
-/

namespace Interchain.Style

variable {s s' t t' rest : Text} {u : UInt16}

/-! ### Deleting control sequences -/

/-- What stands behind a control sequence in front: the escape unit, a bracket, digits and an m. -/
def afterSequence? : Text → Option Text
  | u :: v :: rest =>
    if u = escapeUnit ∧ v = Text.unit '[' ∧ rest.takeWhile Text.isDigit ≠ [] then
      match rest.dropWhile Text.isDigit with
      | w :: after => if w = Text.unit 'm' then some after else none
      | [] => none
    else none
  | _ => none

theorem length_afterSequence? (h : afterSequence? s = some t) : t.length < s.length := by
  unfold afterSequence? at h
  split at h
  · next u v rest =>
    split at h
    · split at h
      · next w after hdrop =>
        have hle : (rest.dropWhile Text.isDigit).length ≤ rest.length :=
          (List.dropWhile_sublist _).length_le
        rw [hdrop, List.length_cons] at hle
        split at h
        · cases h
          simp only [List.length_cons]
          omega
        · cases h
      · cases h
    · cases h
  · cases h

/-- A text with every control sequence deleted, from left to right. -/
def unpainted : Text → Text
  | [] => []
  | u :: rest =>
    match _h : afterSequence? (u :: rest) with
    | some after => unpainted after
    | none => u :: unpainted rest
termination_by t => t.length
decreasing_by
  · exact length_afterSequence? _h
  · exact Nat.lt_succ_self _

theorem afterSequence?_sequence (n : Nat) (rest : Text) :
    afterSequence? (sequence n ++ rest) = some rest := by
  have hdigits : ∀ u ∈ Text.ofNat n, Text.isDigit u = true :=
    fun u hu => Text.isDigit_of_mem_ofNat hu
  have hend : ¬Text.isDigit (Text.unit 'm') = true := by decide
  have hframe : sequence n ++ rest =
      escapeUnit :: Text.unit '[' :: (Text.ofNat n ++ Text.unit 'm' :: rest) := by
    simp [sequence]
  rw [hframe, afterSequence?, List.takeWhile_append_of_pos hdigits,
    List.dropWhile_append_of_pos hdigits, List.takeWhile_cons_of_neg hend,
    List.dropWhile_cons_of_neg hend, List.append_nil]
  simp [Text.ofNat_ne_nil]

theorem afterSequence?_of_ne (h : u ≠ escapeUnit) (rest : Text) :
    afterSequence? (u :: rest) = none := by
  cases rest with
  | nil => rfl
  | cons v rest => exact if_neg fun hand => h hand.1

/-! ### Pieces -/

/-- A piece of text is another one with control sequences put in. -/
def Paints (painted t : Text) : Prop :=
  ∀ rest, unpainted (painted ++ rest) = t ++ unpainted rest

theorem Paints.unpainted_eq (h : Paints s t) : unpainted s = t := by
  have hnil := h []
  rwa [List.append_nil, unpainted, List.append_nil] at hnil

theorem paints_nil : Paints [] [] := fun _ => rfl

theorem Paints.append (h : Paints s t) (h' : Paints s' t') : Paints (s ++ s') (t ++ t') := by
  intro rest
  rw [List.append_assoc, h, h', List.append_assoc]

/-- **A control sequence paints nothing.** -/
theorem paints_sequence (n : Nat) : Paints (sequence n) [] := by
  intro rest
  have hcons : ∃ u tail, sequence n ++ rest = u :: tail := ⟨_, _, rfl⟩
  obtain ⟨u, tail, hu⟩ := hcons
  have hafter := afterSequence?_sequence n rest
  rw [hu] at hafter ⊢
  rw [unpainted, hafter]
  rfl

theorem paints_unit (h : u ≠ escapeUnit) : Paints [u] [u] := by
  intro rest
  show unpainted (u :: rest) = u :: unpainted rest
  rw [unpainted, afterSequence?_of_ne h]

theorem paints_self (h : escapeUnit ∉ t) : Paints t t := by
  induction t with
  | nil => exact paints_nil
  | cons u rest ih =>
    rw [List.mem_cons, not_or] at h
    exact (paints_unit (Ne.symm h.1)).append (ih h.2)

theorem paints_join {separator : Text} (hseparator : escapeUnit ∉ separator)
    {painted parts : List Text} (h : List.Forall₂ Paints painted parts) :
    Paints (Text.join separator painted) (Text.join separator parts) := by
  induction h with
  | nil => exact paints_nil
  | cons hpart hrest ih =>
    cases hrest with
    | nil =>
      simpa only [Text.join, List.intercalate_singleton] using hpart
    | cons _ _ =>
      simp only [Text.join, List.intercalate_cons_cons] at ih ⊢
      exact (hpart.append (paints_self hseparator)).append ih

/-! ### Painting -/

theorem escapeUnit_mem_sequence (n : Nat) : escapeUnit ∈ sequence n := by
  simp [sequence]

/-- Nothing is put into a text that has no control sequence. -/
theorem insertAfter_eq {pattern addition : Text} (hpattern : escapeUnit ∈ pattern) (seen : Text)
    (h : escapeUnit ∉ t) (hseen : escapeUnit ∉ seen) : insertAfter pattern addition seen t = t := by
  induction t generalizing seen with
  | nil => rfl
  | cons u rest ih =>
    rw [List.mem_cons, not_or] at h
    have hseen' : escapeUnit ∉ u :: seen := by
      rw [List.mem_cons, not_or]
      exact ⟨h.1, hseen⟩
    have hnone : ¬pattern.reverse.isPrefixOf (u :: seen) = true := by
      intro hprefix
      have hsubset := (List.isPrefixOf_iff_prefix.1 hprefix).subset
      exact hseen' (hsubset (List.mem_reverse.2 hpattern))
    rw [insertAfter, if_neg hnone, ih _ h.2 hseen']

/-- **What is put around line breaks is deleted again.** -/
theorem paints_aroundBreaks {before after : Text} (hbefore : Paints before [])
    (hafter : Paints after []) : ∀ t, escapeUnit ∉ t → Paints (aroundBreaks before after t) t
  | [], _ => paints_nil
  | [u], h => by
    have hu : Paints [u] [u] := paints_self h
    rw [aroundBreaks]
    split
    · exact (hbefore.append hu).append hafter
    · exact hu
  | u :: v :: rest, h => by
    simp only [List.mem_cons, not_or] at h
    have hu : Paints [u] [u] := paints_unit (Ne.symm h.1)
    have hv : Paints [v] [v] := paints_unit (Ne.symm h.2.1)
    have hvrest : escapeUnit ∉ v :: rest := by
      rw [List.mem_cons, not_or]
      exact h.2
    have hbehind := paints_aroundBreaks hbefore hafter (v :: rest) hvrest
    have hrest := paints_aroundBreaks hbefore hafter rest h.2.2
    rw [aroundBreaks]
    split
    · exact ((hbefore.append hu).append hafter).append hbehind
    · split
      · exact ((hbefore.append (hu.append hv)).append hafter).append hrest
      · exact hu.append hbehind

@[simp] theorem paint_plain (style : Style) (t : Text) : paint .plain style t = t :=
  if_pos (Or.inl rfl)

/-- **A painted text is the text with control sequences put in.** The text may have line breaks of
either sort, and it may be empty. -/
theorem paints_paint (colour : Colour) (style : Style) (h : escapeUnit ∉ t) :
    Paints (paint colour style t) t := by
  unfold paint
  split
  · exact paints_self h
  · have hon := paints_sequence style.start
    have hoff := paints_sequence style.stop
    have hbreaks := paints_aroundBreaks hoff hon t h
    have hall := (hon.append hbreaks).append hoff
    rw [List.nil_append, List.append_nil] at hall
    simp only [insertAfter_eq (escapeUnit_mem_sequence _) [] h List.not_mem_nil]
    exact hall

end Interchain.Style
