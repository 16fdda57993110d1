import Interchain.Proofs.Document.Positions
import Interchain.Proofs.Registry.Issue

/-! # Reviving position by position

Reviving a tree goes through its positions in order (`reviveTree_apply`): for each listed number it
asks for the chain, and it stops at the first listed position that holds no chain number. `outcome`
says what has become of the answer and of the registry by then. The one step of the proof is
`bind_outcome`: going through two stretches one after the other is going through both. What the
first stretch built is not touched by the second, because a number keeps its chain.
-/

namespace Interchain

/-- The chain that the registry gives for a number. -/
def Registry.chain (r : Registry) (x : Number) : Chain := (r.chainOf x).1

namespace Document

/-- What is raised at a position that offends. -/
def refusal (colour : Colour) (keys : List Text) (chain : Number → Chain) (p : Text × Json) :
    Raised :=
  Failure.reject colour ((Chain.reviveSite p.1).rejection (inside chain keys p.2))

/-- What going through positions comes to, if it builds something from the chains when no position
offends. -/
def outcome {α : Type} (colour : Colour) (keys : List Text) (r : Registry)
    (ps : List (Text × Json)) (build : (Number → Chain) → α) : Except Raised α × Registry :=
  let after := r.issueAll (revived keys ps)
  match ps.find? (offends keys) with
  | none => (.ok (build after.chain), after)
  | some p => (.error (refusal colour keys after.chain p), after)

section

variable {α β : Type} {colour : Colour} {keys : List Text} {r : Registry}

theorem refusal_congr {chain chain' : Number → Chain} (colour : Colour) (p : Text × Json)
    (h : ∀ x ∈ (positions p.1 p.2).filterMap (listed? keys), chain x = chain' x) :
    refusal colour keys chain p = refusal colour keys chain' p := by
  rw [refusal, refusal, inside_congr p.1 p.2 h]

theorem outcome_of_ok {ps : List (Text × Json)} (build : (Number → Chain) → α)
    (h : ps.find? (offends keys) = none) :
    outcome colour keys r ps build =
      (.ok (build (r.issueAll (revived keys ps)).chain), r.issueAll (revived keys ps)) := by
  rw [outcome, h]

theorem outcome_of_offends {ps : List (Text × Json)} {p : Text × Json}
    (build : (Number → Chain) → α) (h : ps.find? (offends keys) = some p) :
    outcome colour keys r ps build =
      (.error (refusal colour keys (r.issueAll (revived keys ps)).chain p),
        r.issueAll (revived keys ps)) := by
  rw [outcome, h]

theorem outcome_snd (ps : List (Text × Json)) (build : (Number → Chain) → α) :
    (outcome colour keys r ps build).2 = r.issueAll (revived keys ps) := by
  rw [outcome]
  cases ps.find? (offends keys) <;> rfl

theorem outcome_eq_ok {ps : List (Text × Json)} {build : (Number → Chain) → α} {x : α} :
    (outcome colour keys r ps build).1 = .ok x ↔
      (∀ p ∈ ps, offends keys p = false) ∧ build (r.issueAll (revived keys ps)).chain = x := by
  cases hp : ps.find? (offends keys) with
  | none =>
    have hall : ∀ p ∈ ps, offends keys p = false := by simpa using hp
    rw [outcome_of_ok build hp, Except.ok.injEq]
    exact ⟨fun h => ⟨hall, h⟩, fun h => h.2⟩
  | some p =>
    rw [outcome_of_offends build hp]
    constructor
    · intro h
      cases h
    · rintro ⟨hall, -⟩
      have hoff := List.find?_some hp
      rw [hall p (List.mem_of_find?_eq_some hp)] at hoff
      cases hoff

/-- What is raised is raised at the first position that offends, and by then the numbers listed
before it were asked for. -/
theorem outcome_eq_error {ps : List (Text × Json)} {build : (Number → Chain) → α} {e : Raised}
    (h : (outcome colour keys r ps build).1 = .error e) :
    ∃ before p rest, ps = before ++ p :: rest ∧ offends keys p = true ∧
      (∀ q ∈ before, offends keys q = false) ∧ revived keys ps = before.filterMap (listed? keys) ∧
      e = refusal colour keys (r.issueAll (revived keys ps)).chain p := by
  cases hp : ps.find? (offends keys) with
  | none =>
    rw [outcome_of_ok build hp] at h
    cases h
  | some p =>
    rw [outcome_of_offends build hp] at h
    obtain ⟨hoff, before, rest, hsplit, hbefore⟩ := List.find?_eq_some_iff_append.1 hp
    refine ⟨before, p, rest, hsplit, hoff, by simpa using hbefore, ?_, (Except.error.inj h).symm⟩
    rw [hsplit, revived_of_offends hoff hbefore]

theorem grows_revived (r : Registry) (ps : List (Text × Json)) :
    Registry.Grows r (r.issueAll (revived keys ps)) :=
  .issueAll r isU16_of_mem_revived

/-- A number that was asked for keeps its chain in every later registry. -/
theorem chainOf_issueAll {xs : List Number} {r' : Registry} (hr : r.Valid)
    (hxs : ∀ x ∈ xs, x.isU16 = true) (hg : Registry.Grows (r.issueAll xs) r') :
    ∀ x ∈ xs, r'.chainOf x = ((r.issueAll xs).chain x, r') := by
  induction xs generalizing r with
  | nil => simp
  | cons y ys ih =>
    have hy := hxs y (by simp)
    have hys : ∀ x ∈ ys, x.isU16 = true := fun x hx => hxs x (by simp [hx])
    intro x hx
    rcases List.mem_cons.1 hx with rfl | hx
    · have hlater : Registry.Grows (r.chainOf x).2 ((r.chainOf x).2.issueAll ys) :=
        .issueAll _ hys
      rw [Registry.issueAll_cons] at hg ⊢
      rw [Registry.chain, hlater.chainOf_eq hr hy, (hlater.trans hg).chainOf_eq hr hy]
    · exact ih (hr.chainOf hy) hys hg x hx

theorem chain_issueAll {xs : List Number} {r' : Registry} (hr : r.Valid)
    (hxs : ∀ x ∈ xs, x.isU16 = true) (hg : Registry.Grows (r.issueAll xs) r') :
    ∀ x ∈ xs, (r.issueAll xs).chain x = r'.chain x := by
  intro x hx
  rw [Registry.chain.eq_def r', chainOf_issueAll hr hxs hg x hx]

/-- **One stretch after another.** If going through `ps` builds something that depends only on the
chains it asked for, and what follows goes through `qs`, then the whole goes through both. -/
theorem bind_outcome {a : Action α} {f : α → Action β} {ps qs : List (Text × Json)}
    {build : (Number → Chain) → α} (build' : α → (Number → Chain) → β) (hr : r.Valid)
    (hbuild : ∀ chain chain' : Number → Chain,
      (∀ x ∈ ps.filterMap (listed? keys), chain x = chain' x) → build chain = build chain')
    (ha : a r = outcome colour keys r ps build)
    (hf : ∀ r' : Registry, r'.Valid →
      f (build r'.chain) r' = outcome colour keys r' qs (build' (build r'.chain))) :
    (a >>= f) r = outcome colour keys r (ps ++ qs) fun chain => build' (build chain) chain := by
  have hafter : (r.issueAll (revived keys ps)).Valid := hr.grows (grows_revived r ps)
  rw [Action.bind_apply, ha]
  cases hps : ps.find? (offends keys) with
  | some p =>
    have hall : (ps ++ qs).find? (offends keys) = some p := by simp [hps]
    rw [outcome_of_offends build hps, outcome_of_offends _ hall, revived_append_of_offends hps]
  | none =>
    have hall : (ps ++ qs).find? (offends keys) = qs.find? (offends keys) := by simp [hps]
    have hboth : r.issueAll (revived keys (ps ++ qs)) =
        (r.issueAll (revived keys ps)).issueAll (revived keys qs) := by
      rw [revived_append_of_ok hps, Registry.issueAll_append]
    rw [outcome_of_ok build hps]
    simp only
    rw [hf _ hafter, outcome, outcome, hall, hboth]
    cases hqs : qs.find? (offends keys) with
    | some q => rfl
    | none =>
      have hstable : build (r.issueAll (revived keys ps)).chain =
          build ((r.issueAll (revived keys ps)).issueAll (revived keys qs)).chain := by
        refine hbuild _ _ ?_
        rw [← revived_eq_filterMap hps]
        exact chain_issueAll hr isU16_of_mem_revived (grows_revived _ qs)
      simp only [hstable]

theorem map_outcome {a : Action α} {g : α → β} {ps : List (Text × Json)}
    {build : (Number → Chain) → α} (ha : a r = outcome colour keys r ps build) :
    (do let x ← a; pure (g x)) r = outcome colour keys r ps fun chain => g (build chain) := by
  rw [Action.bind_apply, ha]
  cases hps : ps.find? (offends keys) with
  | some p => rw [outcome_of_offends _ hps, outcome_of_offends _ hps]
  | none => rw [outcome_of_ok _ hps, outcome_of_ok _ hps]; rfl

/-- The last step at a position, once what is inside it has been revived. -/
theorem reviveEntry_apply (hr : r.Valid) (key : Text) (t : Json) :
    Chain.reviveEntry colour keys key (inside r.chain keys t) r =
      outcome colour keys r [(key, t)] fun chain =>
        entry chain keys key t (inside r.chain keys t) := by
  by_cases hkey : key ∈ keys
  · rw [Chain.reviveEntry_eq hkey, Action.map_apply]
    cases hx : t.u16? with
    | some x =>
      obtain ⟨rfl, hu⟩ := isU16_of_u16? hx
      have hreq : (inside r.chain keys (.number x)).requireU16 colour (Chain.reviveSite key) =
          .ok x := Value.requireU16_eq_ok.2 ⟨rfl, hu⟩
      have hl : listed? keys (key, .number x) = some x := listed?_eq_some.2 ⟨hkey, hx⟩
      have ho : offends keys (key, .number x) = false := by simp [offends, hx]
      have hrev : revived keys [(key, .number x)] = [x] := by simp [revived, ho, hl]
      have hlast : (r.chainOf x).2.chainOf x = ((r.chainOf x).1, (r.chainOf x).2) :=
        Registry.Grows.chainOf_eq hr hu (.refl _)
      rw [hreq, outcome_of_ok _ (by simp [ho]), hrev]
      simp [Action.issue, entry, hl, Registry.chain, hlast, Except.map]
    | none =>
      have ho : offends keys (key, t) = true := offends_iff.2 ⟨hkey, hx⟩
      have hreq : (inside r.chain keys t).requireU16 colour (Chain.reviveSite key) =
          .error (refusal colour keys r.chain (key, t)) := by
        rw [Value.requireU16, u16?_inside, hx]
        rfl
      have hrev : revived keys [(key, t)] = [] := by simp [revived, ho]
      rw [hreq, outcome_of_offends _ (p := (key, t)) (by simp [ho]), hrev]
      rfl
  · have hl : listed? keys (key, t) = none := by simp [listed?, hkey]
    have ho : offends keys (key, t) = false := by simp [offends, hkey]
    have hrev : revived keys [(key, t)] = [] := by simp [revived, ho, hl]
    rw [Chain.reviveEntry_of_not_mem hkey, outcome_of_ok _ (by simp [ho]), hrev]
    simp [entry, hl]

mutual

/-- **Reviving a tree goes through its positions.** -/
theorem reviveTree_apply : ∀ (t : Json) (key : Text) (r : Registry), r.Valid →
    Chain.reviveTree colour keys key t r =
      outcome colour keys r (positions key t) fun chain => replaced chain keys key t
  | .array items, key, r, hr => by
    rw [Chain.reviveTree, positions]
    refine bind_outcome (fun items' chain =>
      entry chain keys key (.array items) (.array items')) hr ?_ (reviveItems_apply items 0 r hr) ?_
    · exact fun chain chain' h => insideItems_congr 0 items h
    · intro r' hr'
      exact reviveEntry_apply hr' key (.array items)
  | .object fields, key, r, hr => by
    rw [Chain.reviveTree, positions]
    refine bind_outcome (fun fields' chain =>
      entry chain keys key (.object fields) (.object fields')) hr ?_
      (reviveFields_apply fields r hr) ?_
    · exact fun chain chain' h => insideFields_congr fields h
    · intro r' hr'
      exact reviveEntry_apply hr' key (.object fields)
  | .null, key, r, hr => reviveEntry_apply hr key .null
  | .bool b, key, r, hr => reviveEntry_apply hr key (.bool b)
  | .number x, key, r, hr => reviveEntry_apply hr key (.number x)
  | .string t, key, r, hr => reviveEntry_apply hr key (.string t)

theorem reviveItems_apply : ∀ (items : List Json) (index : Nat) (r : Registry), r.Valid →
    Chain.reviveItems colour keys index items r =
      outcome colour keys r (itemPositions index items) fun chain =>
        insideItems chain keys index items
  | [], _, r, _ => rfl
  | item :: rest, index, r, hr => by
    rw [Chain.reviveItems, itemPositions]
    refine bind_outcome (fun item' chain =>
      item' :: insideItems chain keys (index + 1) rest) hr ?_
      (reviveTree_apply item (Text.ofNat index) r hr) ?_
    · exact fun chain chain' h => replaced_congr _ item h
    · intro r' hr'
      exact map_outcome (reviveItems_apply rest (index + 1) r' hr')

theorem reviveFields_apply : ∀ (fields : List (Text × Json)) (r : Registry), r.Valid →
    Chain.reviveFields colour keys fields r =
      outcome colour keys r (fieldPositions fields) fun chain => insideFields chain keys fields
  | [], r, _ => rfl
  | (key, value) :: rest, r, hr => by
    rw [Chain.reviveFields, fieldPositions]
    refine bind_outcome (fun value' chain =>
      (key, value') :: insideFields chain keys rest) hr ?_ (reviveTree_apply value key r hr) ?_
    · exact fun chain chain' h => replaced_congr _ value h
    · intro r' hr'
      exact map_outcome (reviveFields_apply rest r' hr')

end

end

end Document

end Interchain
