import Interchain.Registry
import Interchain.Proofs.Number.Whole
import Mathlib.Data.List.Nodup

/-! # How a registry grows

`Valid` is the invariant of a registry: its keys are the numbers of 16 bits without a sign, each
keeps the chain of its own number and kind, and no two chains have the same serial. The one thing
that ever happens to a registry is that the chain of a number of 16 bits is asked for
(`chainOf_cases`): either it is there and nothing changes, or it is new and goes to the end.
`Grows` says that this happened any number of times. Everything that holds of a registry at the
end of a run is derived from it: the invariant is kept (`Valid.grows`), entries only come on
(`Grows.prefix_entries`), and a number that has a chain keeps it (`Grows.chainOf_eq`).
-/

namespace Interchain

/-- The kind that belongs to a number. -/
def Chain.Kind.ofNumber (x : Number) : Chain.Kind :=
  if x = .ofNat 0 then .any else if x = .ofNat 1 then .solana else .unknown

namespace Registry

structure Valid (r : Registry) : Prop where
  number : ∀ k c, (k, c) ∈ r.entries → ∃ n : Nat, n ≤ Number.maxU16 ∧ k = .ofNat n
  value : ∀ k c, (k, c) ∈ r.entries → c.value = k
  kind : ∀ k c, (k, c) ∈ r.entries → c.kind = Chain.Kind.ofNumber k
  any : (.ofNat 0, Chain.any) ∈ r.entries
  solana : (.ofNat 1, Chain.solana) ∈ r.entries
  keys : (r.entries.map Prod.fst).Nodup
  serials : (r.entries.map fun entry => entry.2.serial).Nodup
  issued : ∀ k c, (k, c) ∈ r.entries → c.serial < r.issued

/-- The registry keeps this chain under its number. -/
def Issues (r : Registry) (c : Chain) : Prop := (c.value, c) ∈ r.entries

theorem entries_initial : initial.entries = [(.ofNat 0, Chain.any), (.ofNat 1, Chain.solana)] :=
  rfl

theorem valid_initial : Valid initial where
  number := by
    intro k c h
    rw [entries_initial, List.mem_pair] at h
    rcases h with h | h <;> cases h
    · exact ⟨0, by decide, rfl⟩
    · exact ⟨1, by decide, rfl⟩
  value := by
    intro k c h
    rw [entries_initial, List.mem_pair] at h
    rcases h with h | h <;> cases h <;> rfl
  kind := by
    intro k c h
    rw [entries_initial, List.mem_pair] at h
    rcases h with h | h <;> cases h <;> decide
  any := by decide
  solana := by decide
  keys := by decide
  serials := by decide
  issued := by
    intro k c h
    rw [entries_initial, List.mem_pair] at h
    rcases h with h | h <;> cases h <;> decide

/-! ### Finding and keeping -/

theorem lookup_eq_some_iff_mem {entries : List (Number × Chain)}
    (hk : (entries.map Prod.fst).Nodup) {k : Number} {c : Chain} :
    entries.lookup k = some c ↔ (k, c) ∈ entries := by
  induction entries with
  | nil => simp
  | cons entry rest ih =>
    obtain ⟨k', c'⟩ := entry
    simp only [List.map_cons, List.nodup_cons] at hk
    obtain ⟨hnot, hrest⟩ := hk
    by_cases h : k = k'
    · subst h
      have hn : (k, c) ∉ rest := fun hm => hnot (List.mem_map_of_mem (f := Prod.fst) hm)
      simp [hn, eq_comm]
    · rw [List.lookup_cons, beq_false_of_ne h, ih hrest]
      simp [h]

theorem put_of_not_mem {key : Number} {c : Chain} {entries : List (Number × Chain)}
    (h : key ∉ entries.map Prod.fst) : put key c entries = entries ++ [(key, c)] := by
  induction entries with
  | nil => rfl
  | cons entry rest ih =>
    obtain ⟨k, d⟩ := entry
    simp only [List.map_cons, List.mem_cons, not_or] at h
    rw [put, if_neg (Ne.symm h.1), ih h.2, List.cons_append]

namespace Valid

variable {r : Registry} {x : Number} {c d : Chain}

theorem find?_eq_some_iff (h : r.Valid) :
    r.find? x = some c ↔ (x.unsignZero, c) ∈ r.entries :=
  lookup_eq_some_iff_mem h.keys

theorem issues_of_mem (h : r.Valid) {k : Number} (hm : (k, c) ∈ r.entries) : r.Issues c := by
  rw [Issues, h.value k c hm]
  exact hm

theorem value_of_issues (h : r.Valid) (hc : r.Issues c) :
    ∃ n : Nat, n ≤ Number.maxU16 ∧ c.value = .ofNat n :=
  h.number _ _ hc

theorem unsignZero_of_issues (h : r.Valid) (hc : r.Issues c) : c.value.unsignZero = c.value := by
  obtain ⟨n, -, he⟩ := h.value_of_issues hc
  rw [he, Number.unsignZero_ofNat]

theorem kind_of_issues (h : r.Valid) (hc : r.Issues c) : c.kind = .ofNumber c.value :=
  h.kind _ _ hc

theorem eq_of_value_eq (h : r.Valid) (hc : r.Issues c) (hd : r.Issues d)
    (he : c.value = d.value) : c = d := by
  have hc' := (lookup_eq_some_iff_mem h.keys).2 hc
  have hd' := (lookup_eq_some_iff_mem h.keys).2 hd
  rw [he, hd'] at hc'
  exact (Option.some.inj hc').symm

/-- **Chains of one registry are the same object exactly if they have the same number.** -/
theorem same_iff (h : r.Valid) (hc : r.Issues c) (hd : r.Issues d) :
    c.same d = true ↔ c.value = d.value := by
  rw [Chain.same, beq_iff_eq]
  constructor
  · intro hs
    have he := List.inj_on_of_nodup_map h.serials hc hd hs
    exact congrArg Prod.fst he
  · intro he
    rw [h.eq_of_value_eq hc hd he]

theorem issues_any (h : r.Valid) : r.Issues Chain.any := h.any

theorem issues_solana (h : r.Valid) : r.Issues Chain.solana := h.solana

/-- A chain that the registry has is found again under its number. -/
theorem chainOf_value (h : r.Valid) (hc : r.Issues c) : r.chainOf c.value = (c, r) := by
  have hf : r.find? c.value = some c :=
    h.find?_eq_some_iff.2 (by rw [h.unsignZero_of_issues hc]; exact hc)
  rw [chainOf, hf]

end Valid

/-! ### Asking for a chain -/

/-- The next chain to be made. -/
def next (r : Registry) (x : Number) : Chain := ⟨.unknown, x, r.issued⟩

/-- **All that can happen to a registry.** The chain of a number is there, or it is made and goes to
the end; then the number is no zero of either sign, since zero has its chain from the start. -/
theorem chainOf_cases {r : Registry} (h : r.Valid) (x : Number) :
    (∃ c, (x.unsignZero, c) ∈ r.entries ∧ r.chainOf x = (c, r)) ∨
    (x.unsignZero = x ∧ x ∉ r.entries.map Prod.fst ∧
      r.chainOf x = (r.next x, ⟨r.entries ++ [(x, r.next x)], r.issued + 1⟩)) := by
  cases hf : r.find? x with
  | some c =>
    refine Or.inl ⟨c, h.find?_eq_some_iff.1 hf, ?_⟩
    rw [chainOf, hf]
  | none =>
    right
    have habs : x.unsignZero ∉ r.entries.map Prod.fst := by
      intro hm
      obtain ⟨⟨k, c⟩, hc, hk⟩ := List.mem_map.mp hm
      have hs : r.find? x = some c := h.find?_eq_some_iff.2 (by rw [← hk]; exact hc)
      rw [hf] at hs
      cases hs
    have hx : x.unsignZero = x := by
      by_cases hz : x.isZero = true
      · have h0 : x.unsignZero = .ofNat 0 := by rw [Number.unsignZero, if_pos hz]
        refine absurd ?_ habs
        rw [h0]
        exact List.mem_map_of_mem (f := Prod.fst) h.any
      · rw [Number.unsignZero, if_neg hz]
    rw [hx] at habs
    refine ⟨hx, habs, ?_⟩
    simp only [chainOf, hf, issue, hx, put_of_not_mem habs, next]

theorem Valid.chainOf {r : Registry} (h : r.Valid) {x : Number} (hx : x.isU16 = true) :
    (r.chainOf x).2.Valid := by
  rcases chainOf_cases h x with ⟨c, -, he⟩ | ⟨hu, habs, he⟩
  · rw [he]; exact h
  · rw [he]
    obtain ⟨n, hn, hxn⟩ := Number.isU16_iff.1 hx
    rw [hu] at hxn
    have hold : ∀ {k c}, (k, c) ∈ r.entries ++ [(x, r.next x)] →
        (k, c) ∈ r.entries ∨ (k = x ∧ c = r.next x) := by
      intro k c hm
      simpa using hm
    have hne : ∀ c, (x, c) ∉ r.entries := fun c hm =>
      habs (List.mem_map_of_mem (f := Prod.fst) hm)
    have h0 : x ≠ .ofNat 0 := fun h0 => hne _ (h0 ▸ h.any)
    have h1 : x ≠ .ofNat 1 := fun h1 => hne _ (h1 ▸ h.solana)
    refine ⟨?_, ?_, ?_, List.mem_append_left _ h.any, List.mem_append_left _ h.solana, ?_, ?_, ?_⟩
    · intro k c hm
      rcases hold hm with hm | ⟨rfl, -⟩
      · exact h.number k c hm
      · exact ⟨n, hn, hxn⟩
    · intro k c hm
      rcases hold hm with hm | ⟨rfl, rfl⟩
      · exact h.value k c hm
      · rfl
    · intro k c hm
      rcases hold hm with hm | ⟨rfl, rfl⟩
      · exact h.kind k c hm
      · rw [Chain.Kind.ofNumber, if_neg h0, if_neg h1]; rfl
    · rw [List.map_append, List.nodup_append]
      refine ⟨h.keys, by simp, ?_⟩
      intro a ha b hb
      rintro rfl
      have hax : a = x := by simpa using hb
      exact habs (hax ▸ ha)
    · rw [List.map_append, List.nodup_append]
      refine ⟨h.serials, by simp, ?_⟩
      intro a ha b hb
      obtain ⟨⟨k, c⟩, hm, rfl⟩ := List.mem_map.mp ha
      have hlt := h.issued k c hm
      have hb' : b = r.issued := by simpa [next] using hb
      rw [hb']
      exact Nat.ne_of_lt hlt
    · intro k c hm
      rcases hold hm with hm | ⟨rfl, rfl⟩
      · exact Nat.lt_succ_of_lt (h.issued k c hm)
      · exact Nat.lt_succ_self _

theorem prefix_chainOf_entries {r : Registry} (h : r.Valid) (x : Number) :
    r.entries <+: (r.chainOf x).2.entries := by
  rcases chainOf_cases h x with ⟨c, -, he⟩ | ⟨-, -, he⟩
  · simp only [he, List.prefix_refl]
  · simp only [he, List.prefix_append]

/-- The chain that is given out for a number is kept under it. -/
theorem mem_chainOf {r : Registry} (h : r.Valid) (x : Number) :
    (x.unsignZero, (r.chainOf x).1) ∈ (r.chainOf x).2.entries := by
  rcases chainOf_cases h x with ⟨c, hc, he⟩ | ⟨hu, -, he⟩
  · rw [he]; exact hc
  · rw [he, hu]; simp

/-! ### Growth -/

/-- The registry after the chains of these numbers were asked for in turn. -/
def issueAll (r : Registry) (xs : List Number) : Registry :=
  xs.foldl (fun r x => (r.chainOf x).2) r

@[simp] theorem issueAll_nil (r : Registry) : r.issueAll [] = r := rfl

@[simp] theorem issueAll_cons (r : Registry) (x : Number) (xs : List Number) :
    r.issueAll (x :: xs) = (r.chainOf x).2.issueAll xs := rfl

theorem issueAll_append (r : Registry) (xs ys : List Number) :
    r.issueAll (xs ++ ys) = (r.issueAll xs).issueAll ys := List.foldl_append

/-- A registry grows into another by asking for chains of numbers of 16 bits. -/
def Grows (r r' : Registry) : Prop :=
  ∃ xs : List Number, (∀ x ∈ xs, x.isU16 = true) ∧ r' = r.issueAll xs

namespace Grows

variable {r r' r'' : Registry}

theorem refl (r : Registry) : Grows r r := ⟨[], by simp, rfl⟩

theorem single (r : Registry) {x : Number} (hx : x.isU16 = true) : Grows r (r.chainOf x).2 :=
  ⟨[x], by simpa using hx, rfl⟩

theorem issueAll (r : Registry) {xs : List Number} (hx : ∀ x ∈ xs, x.isU16 = true) :
    Grows r (r.issueAll xs) := ⟨xs, hx, rfl⟩

theorem trans (h : Grows r r') (h' : Grows r' r'') : Grows r r'' := by
  obtain ⟨xs, hx, rfl⟩ := h
  obtain ⟨ys, hy, rfl⟩ := h'
  refine ⟨xs ++ ys, ?_, (issueAll_append r xs ys).symm⟩
  intro z hz
  rcases List.mem_append.mp hz with hz | hz
  · exact hx z hz
  · exact hy z hz

end Grows

/-- What one number keeps, any number of them keep. -/
theorem issueAll_induction {P : Registry → Prop} {xs : List Number} {r : Registry} (hr : P r)
    (hx : ∀ x ∈ xs, x.isU16 = true)
    (hstep : ∀ r x, P r → x.isU16 = true → P (r.chainOf x).2) : P (r.issueAll xs) := by
  induction xs generalizing r with
  | nil => exact hr
  | cons x xs ih =>
    rw [issueAll_cons]
    exact ih (hstep r x hr (hx x (by simp))) fun y hy => hx y (by simp [hy])

theorem Valid.grows {r r' : Registry} (h : r.Valid) (hg : Grows r r') : r'.Valid := by
  obtain ⟨xs, hx, rfl⟩ := hg
  exact issueAll_induction h hx fun r x hr hx => hr.chainOf hx

theorem Grows.prefix_entries {r r' : Registry} (h : r.Valid) (hg : Grows r r') :
    r.entries <+: r'.entries := by
  obtain ⟨xs, hx, rfl⟩ := hg
  refine (issueAll_induction (P := fun r' => r'.Valid ∧ r.entries <+: r'.entries)
    ⟨h, List.prefix_refl _⟩ hx ?_).2
  intro r' x ⟨hv, hp⟩ hx
  exact ⟨hv.chainOf hx, hp.trans (prefix_chainOf_entries hv x)⟩

theorem Grows.issues {r r' : Registry} (h : r.Valid) (hg : Grows r r') {c : Chain}
    (hc : r.Issues c) : r'.Issues c := (hg.prefix_entries h).subset hc

section ChainOf

variable {r r' : Registry} {x : Number}

theorem issues_chainOf (h : r.Valid) (hx : x.isU16 = true) :
    (r.chainOf x).2.Issues (r.chainOf x).1 :=
  (h.chainOf hx).issues_of_mem (mem_chainOf h x)

theorem value_chainOf (h : r.Valid) (hx : x.isU16 = true) :
    (r.chainOf x).1.value = x.unsignZero :=
  (h.chainOf hx).value _ _ (mem_chainOf h x)

/-- **A number keeps its chain.** Once it was asked for, nothing changes when it is asked for
again, however much the registry has grown since. -/
theorem Grows.chainOf_eq (h : r.Valid) (hx : x.isU16 = true) (hg : Grows (r.chainOf x).2 r') :
    r'.chainOf x = ((r.chainOf x).1, r') := by
  have hv := h.chainOf hx
  have hv' := hv.grows hg
  have hf : r'.find? x = some (r.chainOf x).1 :=
    hv'.find?_eq_some_iff.2 ((hg.prefix_entries hv).subset (mem_chainOf h x))
  rw [chainOf, hf]

end ChainOf

/-- **The keys after growth** are those from before and the numbers that were asked for. -/
theorem mem_keys_issueAll {r : Registry} (h : r.Valid) {xs : List Number}
    (hx : ∀ x ∈ xs, x.isU16 = true) {k : Number} :
    k ∈ (r.issueAll xs).entries.map Prod.fst ↔
      k ∈ r.entries.map Prod.fst ∨ ∃ x ∈ xs, k = x.unsignZero := by
  induction xs generalizing r with
  | nil => simp
  | cons x xs ih =>
    have hx0 := hx x (by simp)
    rw [issueAll_cons, ih (h.chainOf hx0) fun y hy => hx y (by simp [hy])]
    have hkeys : k ∈ (r.chainOf x).2.entries.map Prod.fst ↔
        k ∈ r.entries.map Prod.fst ∨ k = x.unsignZero := by
      rcases chainOf_cases h x with ⟨c, hc, he⟩ | ⟨hu, -, he⟩
      · rw [he]
        constructor
        · exact Or.inl
        · rintro (hk | rfl)
          · exact hk
          · exact List.mem_map_of_mem (f := Prod.fst) hc
      · rw [he, hu]
        simp
    rw [hkeys, or_assoc]
    simp

end Registry

end Interchain
