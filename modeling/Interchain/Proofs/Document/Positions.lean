import Interchain.Proofs.Failure.Shown
import Mathlib.Data.List.TakeWhile

/-! # Positions in a document

A position is a subtree with the key it stands under. `positions` lists those of a tree in the order
of depth first: what is inside a container comes before the container, elements go by index and
members in their order, and the tree itself is last. The keys of a reviver list some of the
positions, and `replaced` is the tree with the listed numbers turned into chains: `inside` is that
tree with the last position, the whole, left as it is.

Both depend on the chains of the listed numbers alone (`replaced_congr`). What a tree becomes inside
is a number of 16 bits only if the tree was one already (`u16?_inside`), and it can always be
written (`written_inside`).
-/

namespace Interchain

/-- The chain number that a tree is. -/
def Json.u16? : Json → Option Number
  | .number x => if x.isU16 then some x else none
  | _ => none

namespace Document

mutual

/-- The positions of the tree under a key. -/
def positions (key : Text) : Json → List (Text × Json)
  | .array items => itemPositions 0 items ++ [(key, .array items)]
  | .object fields => fieldPositions fields ++ [(key, .object fields)]
  | .null => [(key, .null)]
  | .bool b => [(key, .bool b)]
  | .number x => [(key, .number x)]
  | .string t => [(key, .string t)]

def itemPositions (index : Nat) : List Json → List (Text × Json)
  | [] => []
  | item :: rest => positions (Text.ofNat index) item ++ itemPositions (index + 1) rest

def fieldPositions : List (Text × Json) → List (Text × Json)
  | [] => []
  | (key, value) :: rest => positions key value ++ fieldPositions rest

end

/-- A listed position that holds no chain number. -/
def offends (keys : List Text) (p : Text × Json) : Bool :=
  keys.contains p.1 && p.2.u16?.isNone

/-- The chain number of a position, if the position is listed. -/
def listed? (keys : List Text) (p : Text × Json) : Option Number :=
  if keys.contains p.1 then p.2.u16? else none

/-- The numbers of the listed positions up to the first that offends. -/
def revived (keys : List Text) (ps : List (Text × Json)) : List Number :=
  (ps.takeWhile fun p => !offends keys p).filterMap (listed? keys)

/-- What a tree becomes under a key, given what it becomes inside. -/
def entry (chain : Number → Chain) (keys : List Text) (key : Text) (t : Json) (v : Value) :
    Value :=
  match listed? keys (key, t) with
  | some x => .chain (chain x)
  | none => v

mutual

/-- A tree with the listed numbers strictly inside it turned into chains. -/
def inside (chain : Number → Chain) (keys : List Text) : Json → Value
  | .array items => .array (insideItems chain keys 0 items)
  | .object fields => .object (insideFields chain keys fields)
  | .null => .null
  | .bool b => .bool b
  | .number x => .number x
  | .string t => .string t

def insideItems (chain : Number → Chain) (keys : List Text) (index : Nat) : List Json → List Value
  | [] => []
  | item :: rest =>
    entry chain keys (Text.ofNat index) item (inside chain keys item)
      :: insideItems chain keys (index + 1) rest

def insideFields (chain : Number → Chain) (keys : List Text) :
    List (Text × Json) → List (Text × Value)
  | [] => []
  | (key, value) :: rest =>
    (key, entry chain keys key value (inside chain keys value)) :: insideFields chain keys rest

end

/-- The tree under a key with all listed numbers turned into chains. -/
def replaced (chain : Number → Chain) (keys : List Text) (key : Text) (t : Json) : Value :=
  entry chain keys key t (inside chain keys t)

variable {keys : List Text} {chain chain' : Number → Chain}

theorem offends_iff {p : Text × Json} :
    offends keys p = true ↔ p.1 ∈ keys ∧ p.2.u16? = none := by
  simp [offends]

theorem listed?_eq_some {p : Text × Json} {x : Number} :
    listed? keys p = some x ↔ p.1 ∈ keys ∧ p.2.u16? = some x := by
  by_cases h : p.1 ∈ keys <;> simp [listed?, h]

/-! ### Positions one after the other -/

theorem revived_append_of_ok {ps qs : List (Text × Json)}
    (h : ps.find? (offends keys) = none) :
    revived keys (ps ++ qs) = revived keys ps ++ revived keys qs := by
  have hps : ∀ p ∈ ps, (!offends keys p) = true := by
    intro p hp
    simpa using List.find?_eq_none.1 h p hp
  rw [revived, revived, revived, List.takeWhile_append_of_pos hps, List.filterMap_append,
    List.takeWhile_eq_self_iff.2 hps]

/-- Nothing after the first position that offends is revived. -/
theorem revived_of_offends {before rest : List (Text × Json)} {p : Text × Json}
    (hp : offends keys p = true) (hbefore : ∀ q ∈ before, (!offends keys q) = true) :
    revived keys (before ++ p :: rest) = before.filterMap (listed? keys) := by
  rw [revived, List.takeWhile_append_of_pos hbefore, List.takeWhile_cons_of_neg (by simp [hp]),
    List.append_nil]

theorem revived_append_of_offends {ps qs : List (Text × Json)} {p : Text × Json}
    (h : ps.find? (offends keys) = some p) : revived keys (ps ++ qs) = revived keys ps := by
  obtain ⟨hp, before, after, rfl, hbefore⟩ := List.find?_eq_some_iff_append.1 h
  rw [List.append_assoc, List.cons_append, revived_of_offends hp hbefore,
    revived_of_offends hp hbefore]

theorem isU16_of_u16? {t : Json} {x : Number} (h : t.u16? = some x) :
    t = .number x ∧ x.isU16 = true := by
  cases t with
  | number y =>
    rw [Json.u16?] at h
    split at h
    · next hy => cases h; exact ⟨rfl, hy⟩
    · cases h
  | _ => cases h

theorem isU16_of_mem_revived {ps : List (Text × Json)} :
    ∀ x ∈ revived keys ps, x.isU16 = true := by
  intro x hx
  obtain ⟨p, -, hp⟩ := List.mem_filterMap.1 hx
  exact (isU16_of_u16? (listed?_eq_some.1 hp).2).2

theorem revived_eq_filterMap {ps : List (Text × Json)} (h : ps.find? (offends keys) = none) :
    revived keys ps = ps.filterMap (listed? keys) := by
  have hps : ∀ p ∈ ps, (!offends keys p) = true := by
    intro p hp
    simpa using List.find?_eq_none.1 h p hp
  rw [revived, List.takeWhile_eq_self_iff.2 hps]

/-! ### What a tree becomes -/

theorem entry_congr {key : Text} {t : Json} {v v' : Value}
    (h : ∀ x, listed? keys (key, t) = some x → chain x = chain' x)
    (hv : v = v') : entry chain keys key t v = entry chain' keys key t v' := by
  rw [entry, entry]
  cases hl : listed? keys (key, t) with
  | none => exact hv
  | some x => simp only [h x hl]

theorem self_mem_positions (key : Text) (t : Json) : (key, t) ∈ positions key t := by
  cases t <;> simp [positions]

mutual

theorem inside_congr : ∀ (key : Text) (t : Json),
    (∀ x ∈ (positions key t).filterMap (listed? keys), chain x = chain' x) →
      inside chain keys t = inside chain' keys t
  | key, .array items, h => by
    rw [inside, inside, insideItems_congr 0 items]
    intro x hx
    exact h x (by rw [positions, List.filterMap_append]; exact List.mem_append_left _ hx)
  | key, .object fields, h => by
    rw [inside, inside, insideFields_congr fields]
    intro x hx
    exact h x (by rw [positions, List.filterMap_append]; exact List.mem_append_left _ hx)
  | _, .null, _ => rfl
  | _, .bool _, _ => rfl
  | _, .number _, _ => rfl
  | _, .string _, _ => rfl

theorem insideItems_congr : ∀ (index : Nat) (items : List Json),
    (∀ x ∈ (itemPositions index items).filterMap (listed? keys), chain x = chain' x) →
      insideItems chain keys index items = insideItems chain' keys index items
  | _, [], _ => rfl
  | index, item :: rest, h => by
    rw [itemPositions, List.filterMap_append] at h
    rw [insideItems, insideItems,
      insideItems_congr (index + 1) rest fun x hx => h x (List.mem_append_right _ hx)]
    have hitem := fun x hx => h x (List.mem_append_left _ hx)
    rw [entry_congr (fun x hx => hitem x ?_) (inside_congr _ item hitem)]
    exact List.mem_filterMap.2 ⟨_, self_mem_positions _ item, hx⟩

theorem insideFields_congr : ∀ fields : List (Text × Json),
    (∀ x ∈ (fieldPositions fields).filterMap (listed? keys), chain x = chain' x) →
      insideFields chain keys fields = insideFields chain' keys fields
  | [], _ => rfl
  | (key, value) :: rest, h => by
    rw [fieldPositions, List.filterMap_append] at h
    rw [insideFields, insideFields,
      insideFields_congr rest fun x hx => h x (List.mem_append_right _ hx)]
    have hvalue := fun x hx => h x (List.mem_append_left _ hx)
    rw [entry_congr (fun x hx => hvalue x ?_) (inside_congr _ value hvalue)]
    exact List.mem_filterMap.2 ⟨_, self_mem_positions _ value, hx⟩

end

theorem replaced_congr (key : Text) (t : Json)
    (h : ∀ x ∈ (positions key t).filterMap (listed? keys), chain x = chain' x) :
    replaced chain keys key t = replaced chain' keys key t :=
  entry_congr (fun x hx => h x (List.mem_filterMap.2 ⟨_, self_mem_positions key t, hx⟩))
    (inside_congr key t h)

theorem u16?_inside (t : Json) : (inside chain keys t).u16? = t.u16? := by cases t <;> rfl

/-! ### A tree with chains can be written -/

theorem written_entry {rule : BigInts} (chain : Number → Chain) (keys : List Text) (key : Text)
    (t : Json) {v : Value} (hv : ∃ j, v.toJson? rule = .ok (some j)) :
    ∃ j, (entry chain keys key t v).toJson? rule = .ok (some j) := by
  rw [entry]
  cases listed? keys (key, t) with
  | none => exact hv
  | some x => exact ⟨_, rfl⟩

mutual

theorem written_inside (rule : BigInts) :
    ∀ t : Json, ∃ j, (inside chain keys t).toJson? rule = .ok (some j)
  | .array items => by
    obtain ⟨js, hjs⟩ := writable_insideItems rule 0 items
    exact ⟨.array js, by rw [inside, Value.toJson?, hjs]; rfl⟩
  | .object fields => by
    obtain ⟨js, hjs⟩ := writable_insideFields rule fields
    exact ⟨.object js, by rw [inside, Value.toJson?, hjs]; rfl⟩
  | .null => ⟨_, rfl⟩
  | .bool _ => ⟨_, rfl⟩
  | .number _ => ⟨_, rfl⟩
  | .string _ => ⟨_, rfl⟩

theorem writable_insideItems (rule : BigInts) : ∀ (index : Nat) (items : List Json),
    ∃ js, Value.jsonItems rule (insideItems chain keys index items) = .ok js
  | _, [] => ⟨[], rfl⟩
  | index, item :: rest => by
    obtain ⟨j, hj⟩ := written_entry chain keys (Text.ofNat index) item
      (written_inside rule item)
    obtain ⟨js, hjs⟩ := writable_insideItems rule (index + 1) rest
    exact ⟨j :: js, by rw [insideItems, Value.jsonItems, hj, hjs]; rfl⟩

theorem writable_insideFields (rule : BigInts) : ∀ fields : List (Text × Json),
    ∃ js, Value.jsonFields rule (insideFields chain keys fields) = .ok js
  | [] => ⟨[], rfl⟩
  | (key, value) :: rest => by
    obtain ⟨j, hj⟩ := written_entry chain keys key value
      (written_inside rule value)
    obtain ⟨js, hjs⟩ := writable_insideFields rule rest
    exact ⟨(key, j) :: js, by rw [insideFields, Value.jsonFields, hj, hjs]; rfl⟩

end

end Document

end Interchain
