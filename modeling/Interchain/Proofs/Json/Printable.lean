import Interchain.Json.Print
import Interchain.Proofs.Text.Printable

/-! # JSON texts are printable

In a string every unit below U+0020 is escaped, and an escape is made of printable units. All else
that a tree is written with is printable, too. So a JSON text never holds a line break or any other
control unit, whatever the strings and keys in the tree are and however deep they lie
(`printable_text`).
-/

namespace Interchain.Json

open Text (Printable printable_cons printable_append)

variable {u letter : UInt16}

/-- The units that have an escape of two units, each with its letter. -/
def escapes : List (UInt16 × UInt16) :=
  [(quoteMark, quoteMark), (backslash, backslash), (0x08, Text.unit 'b'), (0x09, Text.unit 't'),
    (0x0A, Text.unit 'n'), (0x0C, Text.unit 'f'), (0x0D, Text.unit 'r')]

theorem mem_escapes (h : escapeLetter? u = some letter) : (u, letter) ∈ escapes := by
  unfold escapeLetter? at h
  split at h
  · next hu =>
    cases h
    rcases Bool.or_eq_true_iff.1 hu with hu | hu <;> rw [of_decide_eq_true hu] <;> decide
  · repeat'
      split at h
      next hu =>
        cases h
        rw [hu]
        decide
    cases h

theorem space_le_escapeLetter? (h : escapeLetter? u = some letter) : 0x20 ≤ letter := by
  have hall : escapes.all (fun p => 0x20 ≤ p.2) = true := by decide
  exact of_decide_eq_true (List.all_eq_true.1 hall _ (mem_escapes h))

theorem printable_escapeHex (u : UInt16) : Printable (escapeHex u) := by
  have hu : u.toNat < 2 ^ 16 := u.toNat_lt
  have hdigits : 0x20 ≤ Text.hexDigit (u.toNat / 4096) ∧
      0x20 ≤ Text.hexDigit (u.toNat / 256 % 16) ∧ 0x20 ≤ Text.hexDigit (u.toNat / 16 % 16) ∧
      0x20 ≤ Text.hexDigit (u.toNat % 16) :=
    ⟨Text.space_le_hexDigit (by omega), Text.space_le_hexDigit (by omega),
      Text.space_le_hexDigit (by omega), Text.space_le_hexDigit (by omega)⟩
  have hmark : 0x20 ≤ backslash ∧ 0x20 ≤ Text.unit 'u' := by decide
  simpa [Printable, escapeHex, and_assoc] using And.intro hmark hdigits

theorem printable_writtenUnit (u : UInt16) : Printable (writtenUnit u) := by
  unfold writtenUnit
  split
  · next letter hletter =>
    have hback : 0x20 ≤ backslash := by decide
    simpa [Printable, hback] using space_le_escapeLetter? hletter
  · split
    · exact printable_escapeHex u
    · next hcontrol =>
      simp only [Bool.or_eq_true, decide_eq_true_eq, not_or] at hcontrol
      simpa [Printable] using UInt16.not_lt.1 hcontrol.1.1

theorem space_le_of_isHighSurrogate (h : Text.isHighSurrogate u = true) : 0x20 ≤ u := by
  simp only [Text.isHighSurrogate, Bool.and_eq_true, decide_eq_true_eq] at h
  exact UInt16.le_trans (by decide) h.1

theorem space_le_of_isLowSurrogate (h : Text.isLowSurrogate u = true) : 0x20 ≤ u := by
  simp only [Text.isLowSurrogate, Bool.and_eq_true, decide_eq_true_eq] at h
  exact UInt16.le_trans (by decide) h.1

theorem printable_writtenUnits : ∀ t : Text, Printable (writtenUnits t)
  | [] => nofun
  | [u] => printable_writtenUnit u
  | u :: v :: rest => by
    rw [writtenUnits]
    split
    · next hpair =>
      obtain ⟨hu, hv⟩ := Bool.and_eq_true_iff.1 hpair
      exact printable_cons.2 ⟨space_le_of_isHighSurrogate hu,
        printable_cons.2 ⟨space_le_of_isLowSurrogate hv, printable_writtenUnits rest⟩⟩
    · exact (printable_writtenUnit u).append (printable_writtenUnits (v :: rest))

/-- **A written string is printable**, whatever its units. -/
theorem printable_quoted (t : Text) : Printable (quoted t) := by
  have hquote : Printable [quoteMark] := by decide
  exact (hquote.append (printable_writtenUnits t)).append hquote

mutual

/-- **The text of a tree is printable**, whatever strings and keys it holds. -/
theorem printable_text : ∀ j : Json, Printable j.text
  | .null => by
    rw [text]
    decide
  | .bool b => by
    rw [text]
    cases b <;> decide
  | .number x => by
    rw [text]
    exact x.printable_text
  | .string t => by
    rw [text]
    exact printable_quoted t
  | .array items => by
    have hopen : Printable [Text.unit '['] := by decide
    have hitems : Printable (Text.join comma (itemTexts items)) :=
      Text.Printable.join (by decide) (printable_itemTexts items)
    rw [text]
    exact (hopen.append hitems).append (by decide)
  | .object fields => by
    have hopen : Printable [Text.unit '{'] := by decide
    have hfields : Printable (Text.join comma (fieldTexts fields)) :=
      Text.Printable.join (by decide) (printable_fieldTexts fields)
    rw [text]
    exact (hopen.append hfields).append (by decide)

theorem printable_itemTexts : ∀ items : List Json, ∀ t ∈ itemTexts items, Printable t
  | [] => by
    rw [itemTexts]
    exact nofun
  | item :: rest => by
    rw [itemTexts]
    exact List.forall_mem_cons.2 ⟨printable_text item, printable_itemTexts rest⟩

theorem printable_fieldTexts : ∀ fields : List (Text × Json), ∀ t ∈ fieldTexts fields, Printable t
  | [] => by
    rw [fieldTexts]
    exact nofun
  | (key, value) :: rest => by
    have hmember : Printable (quoted key ++ Text.unit ':' :: value.text) :=
      (printable_quoted key).append (printable_cons.2 ⟨by decide, printable_text value⟩)
    rw [fieldTexts]
    exact List.forall_mem_cons.2 ⟨hmember, printable_fieldTexts rest⟩

end

end Interchain.Json
