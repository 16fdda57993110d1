import Interchain.Fields

/-! # Arranged fields

Fields are arranged if their keys are distinct and none would go in front of an earlier one. Setting
a key keeps them so (`arranged_set`), and so all fields that were ever set one by one are arranged
(`arranged_ofPairs`). Setting arranged fields anew, in their own order, gives them back
(`ofPairs_of_arranged`): each key goes to the end.
-/

namespace Interchain.Fields

variable {α β : Type}

/-- One key may stand before another: they differ, and the later one does not go in front. -/
def Before (k k' : Text) : Prop := k ≠ k' ∧ precedes k' k = false

/-- The keys are distinct and in the order in which an object shows them. -/
def Arranged (fields : Fields α) : Prop := (fields.map Prod.fst).Pairwise Before

theorem arranged_of_keys_eq {fields : Fields α} {fields' : Fields β}
    (h : fields'.map Prod.fst = fields.map Prod.fst) (ha : Arranged fields) : Arranged fields' := by
  unfold Arranged
  rw [h]
  exact ha

/-! ### The order of keys -/

section Precedes

variable {i j k : Text}

theorem precedes_iff :
    precedes i j = true ↔ ∃ m, index? i = some m ∧ ∀ n, index? j = some n → m < n := by
  unfold precedes
  cases index? i <;> cases index? j <;> simp

theorem precedes_irrefl (k : Text) : precedes k k = false := by
  rw [Bool.eq_false_iff, ne_eq, precedes_iff]
  rintro ⟨m, hm, hlt⟩
  exact Nat.lt_irrefl m (hlt m hm)

theorem precedes_trans (hij : precedes i j = true) (hjk : precedes j k = true) :
    precedes i k = true := by
  obtain ⟨m, hm, hlt⟩ := precedes_iff.1 hij
  obtain ⟨n, hn, hlt'⟩ := precedes_iff.1 hjk
  exact precedes_iff.2 ⟨m, hm, fun l hl => Nat.lt_trans (hlt n hn) (hlt' l hl)⟩

theorem before_of_precedes (h : precedes i j = true) : Before i j := by
  refine ⟨?_, ?_⟩
  · rintro rfl
    rw [precedes_irrefl] at h
    cases h
  · rw [Bool.eq_false_iff]
    intro hji
    have hii := precedes_trans h hji
    rw [precedes_irrefl] at hii
    cases hii

/-- What goes in front of a key goes in front of all that may stand behind it. -/
theorem Before.of_precedes (h : precedes i j = true) (hb : Before j k) : Before i k := by
  obtain ⟨-, hkj⟩ := hb
  refine ⟨?_, ?_⟩
  · rintro rfl
    rw [h] at hkj
    cases hkj
  · rw [Bool.eq_false_iff]
    intro hki
    rw [precedes_trans hki h] at hkj
    cases hkj

end Precedes

/-! ### Setting keys -/

variable {key : Text} {value : α} {fields : Fields α}

theorem mem_keys_set {k : Text} (h : k ∈ (set key value fields).map Prod.fst) :
    k = key ∨ k ∈ fields.map Prod.fst := by
  induction fields with
  | nil => exact Or.inl (by simpa [set] using h)
  | cons p rest ih =>
    obtain ⟨k', v⟩ := p
    unfold set at h
    split at h
    · next hk =>
      subst hk
      exact Or.inr h
    · split at h
      · rcases List.mem_cons.1 h with h | h
        · exact Or.inl h
        · exact Or.inr h
      · rcases List.mem_cons.1 h with h | h
        · exact Or.inr (by simp [h])
        · exact (ih h).imp_right (List.mem_cons_of_mem _)

theorem arranged_set (h : Arranged fields) : Arranged (set key value fields) := by
  induction fields with
  | nil => simp [set, Arranged]
  | cons p rest ih =>
    obtain ⟨k, v⟩ := p
    obtain ⟨hk, hrest⟩ := List.pairwise_cons.1 h
    unfold set
    split
    · next heq =>
      subst heq
      exact h
    · next hne =>
      split
      · next hprec =>
        refine List.pairwise_cons.2 ⟨?_, h⟩
        intro k' hk'
        rcases List.mem_cons.1 hk' with rfl | hk'
        · exact before_of_precedes hprec
        · exact .of_precedes hprec (hk k' hk')
      · next hprec =>
        refine List.pairwise_cons.2 ⟨?_, ih hrest⟩
        intro k' hk'
        rcases mem_keys_set hk' with rfl | hk'
        · exact ⟨hne, by simpa using hprec⟩
        · exact hk k' hk'

/-- **Fields that were set one by one are arranged.** -/
theorem arranged_ofPairs (pairs : List (Text × α)) : Arranged (ofPairs pairs) := by
  have hfold : ∀ fields : Fields α, Arranged fields →
      Arranged (pairs.foldl (fun fields pair => set pair.1 pair.2 fields) fields) := by
    induction pairs with
    | nil => exact fun _ h => h
    | cons p rest ih => exact fun fields h => ih _ (arranged_set h)
  exact hfold [] List.Pairwise.nil

/-- A key that may stand behind all others goes to the end. -/
theorem set_of_before (h : ∀ k ∈ fields.map Prod.fst, Before k key) :
    set key value fields = fields ++ [(key, value)] := by
  induction fields with
  | nil => rfl
  | cons p rest ih =>
    obtain ⟨k, v⟩ := p
    obtain ⟨hne, hprec⟩ := h k (by simp)
    unfold set
    rw [if_neg hne, if_neg (by simp [hprec]), ih fun k' hk' => h k' (List.mem_cons_of_mem _ hk')]
    rfl

/-- **Arranged fields are what setting them in their own order gives.** -/
theorem ofPairs_of_arranged (h : Arranged fields) : ofPairs fields = fields := by
  -- What was set already stands in front of what is still to be set.
  have hfold : ∀ before : Fields α, Arranged (before ++ fields) →
      fields.foldl (fun fields pair => set pair.1 pair.2 fields) before = before ++ fields := by
    clear h
    induction fields with
    | nil => exact fun before _ => (List.append_nil before).symm
    | cons p rest ih =>
      intro before h
      have hp : ∀ k ∈ before.map Prod.fst, Before k p.1 := by
        intro k hk
        unfold Arranged at h
        rw [List.map_append] at h
        exact (List.pairwise_append.1 h).2.2 k hk p.1 (by simp)
      rw [List.foldl_cons, set_of_before hp, ih (before ++ [p]) (by simpa using h)]
      simp
  exact hfold [] h

end Interchain.Fields
