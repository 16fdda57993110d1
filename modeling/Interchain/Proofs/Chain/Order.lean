import Interchain.Proofs.Registry.Reachable
import Mathlib.Data.List.Sort

/-! # The order of chains

Chains are compared by subtracting their numbers. The numbers of a registry's chains have 16 bits,
so nothing is rounded, and the comparison is the difference of two whole numbers (`compare_eq`). It
is zero exactly where the two are the same object, since a registry keeps one chain under each
number. That makes the order of chains a total one, not just of their numbers, and an arrangement of
a list in it is unique: however a list of chains was shuffled before, and whatever sorts it, the
same objects end up in the same places (`sort_canonical`).
-/

namespace Interchain

/-! ### Differences of whole numbers -/

namespace Number

theorem toInt?_ofInt (d : Int) : (ofInt d).toInt? = some d := by
  change some (if decide (d < 0) = true then -(d.natAbs : Int) else d.natAbs) = some d
  congr
  by_cases hd : d < 0
  · rw [if_pos (decide_eq_true hd)]
    omega
  · rw [if_neg fun h => hd (of_decide_eq_true h)]
    omega

theorem isPositive_ofInt (d : Int) : (ofInt d).isPositive = true ↔ 0 < d := by
  simp only [ofInt, whole, isPositive, Bool.and_eq_true, Bool.not_eq_true', decide_eq_false_iff_not,
    bne_iff_ne]
  omega

theorem isZero_ofInt (d : Int) : (ofInt d).isZero = true ↔ d = 0 := by
  simp only [ofInt, whole, isZero, beq_iff_eq]
  omega

/-- **A difference of whole numbers needs no rounding** below `2 ^ 53`. -/
theorem sub_ofNat {m n : Nat} (hm : m < 2 ^ 53) (hn : n < 2 ^ 53) :
    (ofNat m).sub (ofNat n) = ofInt ((m : Int) - n) := by
  change (if (m : Int) - n = 0 then whole (false && !false) 0
    else ofRatio ((m : Int) - n < 0) ((m : Int) - n).natAbs 1) = _
  by_cases hzero : (m : Int) - n = 0
  · rw [if_pos hzero, hzero]
    rfl
  · have hbound : ((m : Int) - n).natAbs < 2 ^ 53 := by omega
    rw [if_neg hzero, ofRatio_one_of_lt _ hbound]
    rfl

end Number

namespace Chain

open Registry

variable {r : Registry} {a b c : Chain}

/-- The whole number that a chain has. -/
def rank (c : Chain) : Int := c.value.toInt?.getD 0

/-- The comparison of two chains is zero or negative. -/
def NoLater (a b : Chain) : Prop := ∃ d : Int, (compare a b).toInt? = some d ∧ d ≤ 0

/-! ### Comparing two chains -/

theorem rank_spec (h : r.Valid) (hc : r.Issues c) :
    ∃ n : Nat, n ≤ 65535 ∧ c.value = .ofNat n ∧ c.rank = n := by
  obtain ⟨n, hn, hvalue⟩ := h.value_of_issues hc
  refine ⟨n, hn, hvalue, ?_⟩
  rw [rank, hvalue]
  rfl

/-- **The comparison is the difference of the numbers.** -/
theorem compare_eq (h : r.Valid) (ha : r.Issues a) (hb : r.Issues b) :
    compare a b = .ofInt (a.rank - b.rank) := by
  obtain ⟨m, hm, hvalue, hrank⟩ := rank_spec h ha
  obtain ⟨n, hn, hvalue', hrank'⟩ := rank_spec h hb
  rw [compare, hvalue, hvalue', hrank, hrank']
  apply Number.sub_ofNat <;> omega

theorem noLater_iff (h : r.Valid) (ha : r.Issues a) (hb : r.Issues b) :
    NoLater a b ↔ a.rank ≤ b.rank := by
  unfold NoLater
  rw [compare_eq h ha hb, Number.toInt?_ofInt]
  constructor
  · rintro ⟨d, hd, hle⟩
    have hdiff : a.rank - b.rank = d := Option.some.inj hd
    omega
  · intro hle
    exact ⟨_, rfl, by omega⟩

/-- A registry keeps one chain under each number. -/
theorem rank_inj (h : r.Valid) (ha : r.Issues a) (hb : r.Issues b) : a.rank = b.rank ↔ a = b := by
  obtain ⟨m, -, hvalue, hrank⟩ := rank_spec h ha
  obtain ⟨n, -, hvalue', hrank'⟩ := rank_spec h hb
  constructor
  · intro he
    apply h.eq_of_value_eq ha hb
    rw [hvalue, hvalue']
    congr
    omega
  · rintro rfl
    rfl

theorem equals_iff (h : r.Valid) (ha : r.Issues a) (hb : r.Issues b) :
    a.equals b = true ↔ a.rank = b.rank := by
  obtain ⟨m, -, hvalue, hrank⟩ := rank_spec h ha
  obtain ⟨n, -, hvalue', hrank'⟩ := rank_spec h hb
  rw [equals, hvalue, hvalue', Number.equal_ofNat, hrank, hrank', Int.ofNat_inj]

theorem same_iff_eq (h : r.Valid) (ha : r.Issues a) (hb : r.Issues b) :
    a.same b = true ↔ a = b := by
  rw [h.same_iff ha hb]
  exact ⟨h.eq_of_value_eq ha hb, congrArg Chain.value⟩

/-! ### Sorting -/

section Sorting

variable {chains arranged : List Chain}

theorem perm_sort (chains : List Chain) : (sort chains).Perm chains := List.mergeSort_perm _ _

/-- The chains of one registry are sorted by their numbers, which are totally ordered. -/
theorem sort_eq (h : r.Valid) (hchains : ∀ c ∈ chains, r.Issues c) :
    sort chains = chains.mergeSort fun a b => decide (a.rank ≤ b.rank) := by
  have hagree : ∀ a ∈ chains, ∀ b ∈ chains,
      (!(compare a b).isPositive) = decide (a.rank ≤ b.rank) := by
    intro a ha b hb
    rw [compare_eq h (hchains a ha) (hchains b hb), Bool.eq_iff_iff, Bool.not_eq_true',
      Bool.eq_false_iff, ne_eq, Number.isPositive_ofInt, decide_eq_true_iff]
    omega
  have hsorted : (chains.mergeSort fun a b => !(compare a b).isPositive).map id =
      (chains.map id).mergeSort fun a b => decide (a.rank ≤ b.rank) := List.map_mergeSort hagree
  rwa [List.map_id, List.map_id] at hsorted

theorem pairwise_sort (h : r.Valid) (hchains : ∀ c ∈ chains, r.Issues c) :
    (sort chains).Pairwise fun a b => a.rank ≤ b.rank := by
  have htrans : ∀ a b c : Chain, decide (a.rank ≤ b.rank) = true →
      decide (b.rank ≤ c.rank) = true → decide (a.rank ≤ c.rank) = true := by
    intro a b c hab hbc
    rw [decide_eq_true_iff] at hab hbc ⊢
    exact Int.le_trans hab hbc
  have htotal : ∀ a b : Chain, (decide (a.rank ≤ b.rank) || decide (b.rank ≤ a.rank)) = true := by
    intro a b
    simpa using Int.le_total a.rank b.rank
  rw [sort_eq h hchains]
  refine (List.pairwise_mergeSort htrans htotal chains).imp ?_
  intro a b hab
  exact of_decide_eq_true hab

/-- **There is one arrangement.** Chains that come in both orders are the same object. -/
theorem eq_of_arranged (h : r.Valid) (hchains : ∀ c ∈ chains, r.Issues c)
    (hperm : arranged.Perm chains) (harranged : arranged.Pairwise fun a b => a.rank ≤ b.rank) :
    arranged = sort chains := by
  have hsame : arranged.Perm (sort chains) := hperm.trans (perm_sort chains).symm
  apply List.Perm.eq_of_pairwise _ harranged (pairwise_sort h hchains) hsame
  intro a b ha hb hab hba
  have hissues : r.Issues a := hchains a (hperm.subset ha)
  have hissues' : r.Issues b := hchains b ((perm_sort chains).subset hb)
  exact (rank_inj h hissues hissues').1 (Int.le_antisymm hab hba)

/-- **Sorting chains is canonical.** A sorted list of chains holds the objects of the list, and
their numbers do not descend. Whatever order the list was in before, the result is the same, object
for object; and it is the same whatever sorts the list, as long as no comparison of a chain with a
later one is positive. For the comparison is a total order of objects: it is zero exactly for equal
chains, which are those that are the same object, it changes its sign with the order of the two, and
comparisons add up along a row of chains. -/
theorem sort_canonical (h : r.Reachable) {chains : List Chain}
    (hchains : ∀ c ∈ chains, r.Issues c) :
    (sort chains).Perm chains ∧
    (sort chains).Pairwise
      (fun a b => ∃ m n : Nat, a.value = .ofNat m ∧ b.value = .ofNat n ∧ m ≤ n) ∧
    (∀ shuffled : List Chain, shuffled.Perm chains → sort shuffled = sort chains) ∧
    (∀ arranged : List Chain, arranged.Perm chains → arranged.Pairwise NoLater →
      arranged = sort chains) ∧
    (∀ a b, r.Issues a → r.Issues b →
      ((compare a b).isZero = true ↔ a.equals b = true) ∧
      (a.equals b = true ↔ a.same b = true) ∧ (a.same b = true ↔ a = b) ∧
      (NoLater a b ∨ NoLater b a) ∧
      ∃ d : Int, (compare a b).toInt? = some d ∧ (compare b a).toInt? = some (-d)) ∧
    ∀ a b c, r.Issues a → r.Issues b → r.Issues c →
      (NoLater a b → NoLater b c → NoLater a c) ∧
      ∃ d e : Int, (compare a b).toInt? = some d ∧ (compare b c).toInt? = some e ∧
        (compare a c).toInt? = some (d + e) := by
  have hv := h.valid
  have hissues : ∀ {arranged : List Chain}, arranged.Perm chains → ∀ c ∈ arranged, r.Issues c :=
    fun hperm c hc => hchains c (hperm.subset hc)
  refine ⟨perm_sort chains, ?_, ?_, ?_, ?_, ?_⟩
  · apply (pairwise_sort hv hchains).imp_of_mem
    intro a b ha hb hle
    obtain ⟨m, -, hvalue, hrank⟩ := rank_spec hv (hissues (perm_sort chains) a ha)
    obtain ⟨n, -, hvalue', hrank'⟩ := rank_spec hv (hissues (perm_sort chains) b hb)
    exact ⟨m, n, hvalue, hvalue', by omega⟩
  · intro shuffled hperm
    apply eq_of_arranged hv hchains ((perm_sort shuffled).trans hperm)
    exact pairwise_sort hv (hissues hperm)
  · intro arranged hperm harranged
    apply eq_of_arranged hv hchains hperm
    apply harranged.imp_of_mem
    intro a b ha hb hle
    exact (noLater_iff hv (hissues hperm a ha) (hissues hperm b hb)).1 hle
  · intro a b ha hb
    rw [equals_iff hv ha hb, same_iff_eq hv ha hb, rank_inj hv ha hb, noLater_iff hv ha hb,
      noLater_iff hv hb ha, compare_eq hv ha hb, compare_eq hv hb ha, Number.isZero_ofInt,
      Number.toInt?_ofInt, Number.toInt?_ofInt, ← rank_inj hv ha hb]
    refine ⟨by omega, Iff.rfl, Iff.rfl, by omega, _, rfl, ?_⟩
    congr
    omega
  · intro a b c ha hb hc
    rw [noLater_iff hv ha hb, noLater_iff hv hb hc, noLater_iff hv ha hc, compare_eq hv ha hb,
      compare_eq hv hb hc, compare_eq hv ha hc]
    simp only [Number.toInt?_ofInt]
    refine ⟨Int.le_trans, _, _, rfl, rfl, ?_⟩
    congr
    omega

/-- The chain that was asked for, and one of the two that were there before twice. -/
theorem sort_canonical_seven :
    Registry.withSeven.Reachable ∧
    (∀ c ∈ [⟨.unknown, .ofNat 7, 2⟩, solana, any, solana], Registry.withSeven.Issues c) ∧
    sort [solana, ⟨.unknown, .ofNat 7, 2⟩, solana, any] =
      [any, solana, solana, ⟨.unknown, .ofNat 7, 2⟩] := by
  have hreachable : Registry.withSeven.Reachable := Registry.Reachable.initial.call _ _
  have hissues :
      ∀ c ∈ [⟨.unknown, .ofNat 7, 2⟩, solana, any, solana], Registry.withSeven.Issues c := by
    unfold Registry.Issues
    decide
  have hperm : [any, solana, solana, ⟨.unknown, .ofNat 7, 2⟩].Perm
      [⟨.unknown, .ofNat 7, 2⟩, solana, any, solana] := by decide
  have hranks : [any, solana, solana, ⟨.unknown, .ofNat 7, 2⟩].Pairwise
      fun a b => a.rank ≤ b.rank := by decide
  have hnoLater : [any, solana, solana, ⟨.unknown, .ofNat 7, 2⟩].Pairwise NoLater := by
    apply hranks.imp_of_mem
    intro a b ha hb
    exact (noLater_iff hreachable.valid (hissues a (hperm.subset ha))
      (hissues b (hperm.subset hb))).2
  obtain ⟨-, -, hshuffled, harranged, -, -⟩ := sort_canonical hreachable hissues
  refine ⟨hreachable, hissues, ?_⟩
  rw [hshuffled _ (by decide), ← harranged _ hperm hnoLater]

end Sorting

end Chain

end Interchain
