import Interchain.Proofs.Document.Revive
import Interchain.Proofs.Failure.Forget

/-! # Reviving without objects

Which chains end up in a revived tree: those of the listed numbers (`chains_replaced`), and in what
is reported of a position that offends, those of the listed numbers inside it. The positions inside
another come before it, so all of these numbers were asked for by then (`chains_refusal`). When the
objects are forgotten, the same tree is left as if plain chains had been put in (`forget_replaced`).
-/

namespace Interchain.Document

open HasChains

variable {keys : List Text} {chain chain' : Number → Chain}

/-! ### What is inside comes first -/

/-- The positions strictly inside a tree. -/
def inner : Json → List (Text × Json)
  | .array items => itemPositions 0 items
  | .object fields => fieldPositions fields
  | _ => []

theorem positions_eq (key : Text) (t : Json) : positions key t = inner t ++ [(key, t)] := by
  cases t <;> rfl

/-- Whatever is inside a position comes before it. -/
def InnerFirst (ps : List (Text × Json)) : Prop :=
  ∀ before p rest, ps = before ++ p :: rest → inner p.2 ⊆ before

theorem innerFirst_nil : InnerFirst [] := by
  intro before p rest h
  simp at h

theorem InnerFirst.append {ps qs : List (Text × Json)} (hp : InnerFirst ps) (hq : InnerFirst qs) :
    InnerFirst (ps ++ qs) := by
  intro before p rest h
  rcases List.append_eq_append_iff.1 h with ⟨middle, hbefore, hqs⟩ | ⟨middle, hps, hrest⟩
  · rw [hbefore]
    exact List.subset_append_of_subset_right ps (hq middle p rest hqs)
  · cases middle with
    | nil =>
      rw [List.nil_append] at hrest
      exact List.Subset.trans (hq [] p rest hrest.symm) (List.nil_subset before)
    | cons p' middle =>
      obtain ⟨rfl, -⟩ := List.cons.inj hrest
      exact hp before p middle hps

theorem InnerFirst.concat {key : Text} {t : Json} (h : InnerFirst (inner t)) :
    InnerFirst (positions key t) := by
  rw [positions_eq]
  intro before p rest hsplit
  rcases List.append_eq_append_iff.1 hsplit with ⟨middle, hbefore, hlast⟩ | ⟨middle, hin, hrest⟩
  · have hp : p = (key, t) := by
      cases middle with
      | nil => exact (List.cons.inj hlast).1.symm
      | cons q middle => simp at hlast
    rw [hbefore, hp]
    exact List.subset_append_left (inner t) middle
  · cases middle with
    | nil =>
      have hp : p = (key, t) := (List.cons.inj hrest).1
      rw [List.append_nil] at hin
      rw [← hin, hp]
      exact List.Subset.refl _
    | cons q middle =>
      obtain ⟨rfl, -⟩ := List.cons.inj hrest
      exact h before p middle hin

mutual

theorem innerFirst_inner : ∀ t : Json, InnerFirst (inner t)
  | .array items => innerFirst_items 0 items
  | .object fields => innerFirst_fields fields
  | .null => innerFirst_nil
  | .bool _ => innerFirst_nil
  | .number _ => innerFirst_nil
  | .string _ => innerFirst_nil

theorem innerFirst_items : ∀ (index : Nat) (items : List Json),
    InnerFirst (itemPositions index items)
  | _, [] => innerFirst_nil
  | index, item :: rest => by
    rw [itemPositions]
    exact (innerFirst_inner item).concat.append (innerFirst_items (index + 1) rest)

theorem innerFirst_fields : ∀ fields : List (Text × Json), InnerFirst (fieldPositions fields)
  | [] => innerFirst_nil
  | (_, value) :: rest => by
    rw [fieldPositions]
    exact (innerFirst_inner value).concat.append (innerFirst_fields rest)

end

/-- The numbers listed inside the first position that offends were asked for before. -/
theorem listed_inner_subset_revived {key : Text} {t : Json} {p : Text × Json}
    (h : (positions key t).find? (offends keys) = some p) :
    (inner p.2).filterMap (listed? keys) ⊆ revived keys (positions key t) := by
  obtain ⟨hp, before, rest, hsplit, hbefore⟩ := List.find?_eq_some_iff_append.1 h
  have hinner : inner p.2 ⊆ before := (innerFirst_inner t).concat before p rest hsplit
  rw [hsplit, revived_of_offends hp hbefore]
  exact List.filterMap_subset _ hinner

/-! ### The chains of a revived tree -/

theorem chains_entry {key : Text} {t : Json} {v : Value} {ps : List (Text × Json)}
    (hv : v.chains ⊆ (ps.filterMap (listed? keys)).map chain) :
    (entry chain keys key t v).chains ⊆
      ((ps ++ [(key, t)]).filterMap (listed? keys)).map chain := by
  rw [entry, List.filterMap_append, List.map_append]
  cases hl : listed? keys (key, t) with
  | none => exact List.subset_append_of_subset_left _ hv
  | some x =>
    refine List.subset_append_of_subset_right _ ?_
    simp [Value.chains, hl]

mutual

theorem chains_inside : ∀ t : Json,
    (inside chain keys t).chains ⊆ ((inner t).filterMap (listed? keys)).map chain
  | .array items => chains_insideItems 0 items
  | .object fields => chains_insideFields fields
  | .null => List.nil_subset _
  | .bool _ => List.nil_subset _
  | .number _ => List.nil_subset _
  | .string _ => List.nil_subset _

theorem chains_insideItems : ∀ (index : Nat) (items : List Json),
    Value.itemChains (insideItems chain keys index items) ⊆
      ((itemPositions index items).filterMap (listed? keys)).map chain
  | _, [] => List.nil_subset _
  | index, item :: rest => by
    rw [insideItems, Value.itemChains, itemPositions, positions_eq, List.filterMap_append,
      List.map_append]
    exact List.append_subset.2
      ⟨List.subset_append_of_subset_left _ (chains_entry (chains_inside item)),
        List.subset_append_of_subset_right _ (chains_insideItems (index + 1) rest)⟩

theorem chains_insideFields : ∀ fields : List (Text × Json),
    Value.fieldChains (insideFields chain keys fields) ⊆
      ((fieldPositions fields).filterMap (listed? keys)).map chain
  | [] => List.nil_subset _
  | (key, value) :: rest => by
    rw [insideFields, Value.fieldChains, fieldPositions, positions_eq, List.filterMap_append,
      List.map_append]
    exact List.append_subset.2
      ⟨List.subset_append_of_subset_left _ (chains_entry (chains_inside value)),
        List.subset_append_of_subset_right _ (chains_insideFields rest)⟩

end

theorem chains_replaced (key : Text) (t : Json) :
    (replaced chain keys key t).chains ⊆
      ((positions key t).filterMap (listed? keys)).map chain := by
  rw [positions_eq]
  exact chains_entry (chains_inside t)

theorem chains_refusal (colour : Colour) (p : Text × Json) :
    chainsIn (refusal colour keys chain p) ⊆ ((inner p.2).filterMap (listed? keys)).map chain := by
  have hcontext : chainsIn ((Chain.reviveSite p.1).rejection (inside chain keys p.2)) =
      (inside chain keys p.2).chains := by
    simp [Site.rejection, chainsIn, Value.chains]
  refine List.Subset.trans (Failure.chains_reject colour _) ?_
  rw [hcontext]
  exact chains_inside p.2

/-! ### A revived tree with its chains forgotten -/

theorem forget_entry (key : Text) (t : Json) (v : Value) :
    (entry chain keys key t v).forget = entry (fun x => (chain x).forget) keys key t v.forget := by
  rw [entry, entry]
  cases listed? keys (key, t) <;> rfl

mutual

theorem forget_inside : ∀ t : Json,
    (inside chain keys t).forget = inside (fun x => (chain x).forget) keys t
  | .array items => by rw [inside, inside, Value.forget, forget_insideItems 0 items]
  | .object fields => by rw [inside, inside, Value.forget, forget_insideFields fields]
  | .null => rfl
  | .bool _ => rfl
  | .number _ => rfl
  | .string _ => rfl

theorem forget_insideItems : ∀ (index : Nat) (items : List Json),
    Value.forgetItems (insideItems chain keys index items) =
      insideItems (fun x => (chain x).forget) keys index items
  | _, [] => rfl
  | index, item :: rest => by
    rw [insideItems, insideItems, Value.forgetItems, forget_entry, forget_inside item,
      forget_insideItems (index + 1) rest]

theorem forget_insideFields : ∀ fields : List (Text × Json),
    Value.forgetFields (insideFields chain keys fields) =
      insideFields (fun x => (chain x).forget) keys fields
  | [] => rfl
  | (key, value) :: rest => by
    rw [insideFields, insideFields, Value.forgetFields, forget_entry, forget_inside value,
      forget_insideFields rest]

end

theorem forget_replaced (key : Text) (t : Json) :
    (replaced chain keys key t).forget = replaced (fun x => (chain x).forget) keys key t := by
  rw [replaced, replaced, forget_entry, forget_inside]

theorem forgotten_refusal (colour : Colour) (p : Text × Json) :
    forgotten (refusal colour keys chain p) =
      refusal colour keys (fun x => (chain x).forget) p := by
  rw [refusal, refusal, ← forget_inside, ← Failure.reject_forget]
  rfl

end Interchain.Document
