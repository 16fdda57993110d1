import Interchain.Proofs.Value.JsonText
import Interchain.Proofs.Value.Unshowable

/-! # The tree of a value

`HasTree v j` says which JSON tree stands for a value. Nothing at all and a symbol have no tree:
they are null among the elements of an array and missing among the members of an object. A chain has
the tree of its number; of an error only the code is seen, and of a failure its name and the members
of its envelope. A big integer and a circular value have no tree, nor has anything that holds one.
Where big integers are refused, these are the trees that are written (`toJson?_eq_some_iff`), so a
value has one tree at most. The values whose writing fails are `Treeless` (`treeless_iff`).
-/

namespace Interchain.Value

/-- What is left out of JSON. -/
inductive Omitted : Value → Prop
  | undefined : Omitted .undefined
  | symbol (description : Text) : Omitted (.symbol description)

mutual

/-- The JSON tree that stands for a value. -/
inductive HasTree : Value → Json → Prop
  | null : HasTree .null .null
  | bool (b : Bool) : HasTree (.bool b) (.bool b)
  | number {x : Number} : x.isFinite = true → HasTree (.number x) (.number x)
  | infinite {x : Number} : x.isFinite = false → HasTree (.number x) .null
  | string (t : Text) : HasTree (.string t) (.string t)
  | chain {c : Chain} {tree : Json} : HasTree (.number c.value) tree → HasTree (.chain c) tree
  | array {items : List Value} {trees : List Json} :
      HaveTrees items trees → HasTree (.array items) (.array trees)
  | object {fields : List (Text × Value)} {members : List (Text × Json)} :
      HaveMembers fields members → HasTree (.object fields) (.object members)
  | error {name code : Value} {message : Text} {members : List (Text × Json)} :
      HaveMembers [(Text.ofString "code", code)] members →
        HasTree (.error name message code) (.object members)
  | failure {kind : FailureKind} {message : Text} {envelope : List (Text × Value)}
      {members : List (Text × Json)} :
      HaveMembers ((Text.ofString "name", .string kind.name) :: envelope) members →
        HasTree (.failure kind message envelope) (.object members)

/-- The trees of elements in their order. -/
inductive HaveTrees : List Value → List Json → Prop
  | nil : HaveTrees [] []
  | omitted {v : Value} {rest : List Value} {trees : List Json} :
      Omitted v → HaveTrees rest trees → HaveTrees (v :: rest) (.null :: trees)
  | item {v : Value} {tree : Json} {rest : List Value} {trees : List Json} :
      HasTree v tree → HaveTrees rest trees → HaveTrees (v :: rest) (tree :: trees)

/-- The trees of members under their keys and in their order. -/
inductive HaveMembers : List (Text × Value) → List (Text × Json) → Prop
  | nil : HaveMembers [] []
  | omitted {key : Text} {v : Value} {rest : List (Text × Value)} {members : List (Text × Json)} :
      Omitted v → HaveMembers rest members → HaveMembers ((key, v) :: rest) members
  | member {key : Text} {v : Value} {tree : Json} {rest : List (Text × Value)}
      {members : List (Text × Json)} :
      HasTree v tree → HaveMembers rest members →
        HaveMembers ((key, v) :: rest) ((key, tree) :: members)

end

/-! ### What is written has the tree -/

theorem omitted_of_written {v : Value} (h : v.toJson? .refused = .ok none) : Omitted v := by
  obtain rfl | ⟨description, rfl⟩ := omitted_of_toJson?_eq_none h
  · exact .undefined
  · exact .symbol description

theorem written_of_omitted {v : Value} (h : Omitted v) : v.toJson? .refused = .ok none := by
  cases h <;> rfl

theorem hasTree_number (x : Number) : HasTree (.number x) (jsonNumber x) := by
  unfold jsonNumber
  split
  · next hfinite => exact .number hfinite
  · next hinfinite => exact .infinite (Bool.eq_false_iff.2 hinfinite)

mutual

/-- What is written for a value is its tree. -/
theorem hasTree_of_written : ∀ (v : Value) (tree : Json),
    v.toJson? .refused = .ok (some tree) → HasTree v tree
  | .undefined, _, h => by cases h
  | .null, _, h => by
    cases h
    exact .null
  | .bool b, _, h => by
    cases h
    exact .bool b
  | .number x, _, h => by
    cases h
    exact hasTree_number x
  | .bigint _, _, h => by cases h
  | .string t, _, h => by
    cases h
    exact .string t
  | .symbol _, _, h => by cases h
  | .array items, _, h => by
    obtain ⟨trees, hitems, htree⟩ := exists_of_map_eq_ok h
    cases htree
    exact .array (haveTrees_of_written items trees hitems)
  | .object fields, _, h => by
    obtain ⟨members, hfields, htree⟩ := exists_of_map_eq_ok h
    cases htree
    exact .object (haveMembers_of_written fields members hfields)
  | .chain c, _, h => by
    cases h
    exact .chain (hasTree_number c.value)
  | .error _ _ code, _, h => by
    obtain ⟨written, hcode, htree⟩ := exists_of_map_eq_ok h
    cases written with
    | none =>
      cases htree
      exact .error (.omitted (omitted_of_written hcode) .nil)
    | some j =>
      cases htree
      exact .error (.member (hasTree_of_written code j hcode) .nil)
  | .failure _ _ envelope, _, h => by
    obtain ⟨members, henvelope, htree⟩ := exists_of_map_eq_ok h
    cases htree
    exact .failure (.member (.string _) (haveMembers_of_written envelope members henvelope))
  | .circular _, _, h => by cases h

theorem haveTrees_of_written : ∀ (items : List Value) (trees : List Json),
    jsonItems .refused items = .ok trees → HaveTrees items trees
  | [], _, h => by
    cases h
    exact .nil
  | item :: rest, _, h => by
    rw [jsonItems] at h
    cases hitem : item.toJson? .refused with
    | error e =>
      rw [hitem] at h
      cases h
    | ok written =>
      cases hrest : jsonItems .refused rest with
      | error e =>
        rw [hitem, hrest] at h
        cases h
      | ok trees =>
        rw [hitem, hrest] at h
        have htrees := haveTrees_of_written rest trees hrest
        cases written with
        | none =>
          cases h
          exact .omitted (omitted_of_written hitem) htrees
        | some tree =>
          cases h
          exact .item (hasTree_of_written item tree hitem) htrees

theorem haveMembers_of_written : ∀ (fields : List (Text × Value)) (members : List (Text × Json)),
    jsonFields .refused fields = .ok members → HaveMembers fields members
  | [], _, h => by
    cases h
    exact .nil
  | (_, value) :: rest, _, h => by
    rw [jsonFields] at h
    cases hvalue : value.toJson? .refused with
    | error e =>
      rw [hvalue] at h
      cases h
    | ok written =>
      cases hrest : jsonFields .refused rest with
      | error e =>
        rw [hvalue, hrest] at h
        cases h
      | ok members =>
        rw [hvalue, hrest] at h
        have hmembers := haveMembers_of_written rest members hrest
        cases written with
        | none =>
          cases h
          exact .omitted (omitted_of_written hvalue) hmembers
        | some tree =>
          cases h
          exact .member (hasTree_of_written value tree hvalue) hmembers

end

/-! ### The tree is written -/

mutual

/-- The tree of a value is what is written for it. -/
theorem written_of_hasTree : ∀ {v : Value} {tree : Json},
    HasTree v tree → v.toJson? .refused = .ok (some tree)
  | _, _, .null => rfl
  | _, _, .bool _ => rfl
  | _, _, .number hfinite => by rw [toJson?, jsonNumber, if_pos hfinite]
  | _, _, .infinite hinfinite => by rw [toJson?, jsonNumber, if_neg (Bool.eq_false_iff.1 hinfinite)]
  | _, _, .string _ => rfl
  | _, _, .chain hnumber => by
    have hwritten := written_of_hasTree hnumber
    exact hwritten
  | _, _, .array hitems => by
    rw [toJson?, written_of_haveTrees hitems]
    rfl
  | _, _, .object hfields => by
    rw [toJson?, written_of_haveMembers hfields]
    rfl
  | _, _, .error hcode => by
    rw [toJson?_error, toJson?, written_of_haveMembers hcode]
    rfl
  | _, _, .failure henvelope => by
    rw [toJson?_failure, toJson?, written_of_haveMembers henvelope]
    rfl

theorem written_of_haveTrees : ∀ {items : List Value} {trees : List Json},
    HaveTrees items trees → jsonItems .refused items = .ok trees
  | _, _, .nil => rfl
  | _, _, .omitted hv hrest => by
    rw [jsonItems, written_of_omitted hv, written_of_haveTrees hrest]
    rfl
  | _, _, .item hv hrest => by
    rw [jsonItems, written_of_hasTree hv, written_of_haveTrees hrest]
    rfl

theorem written_of_haveMembers : ∀ {fields : List (Text × Value)} {members : List (Text × Json)},
    HaveMembers fields members → jsonFields .refused fields = .ok members
  | _, _, .nil => rfl
  | _, _, .omitted hv hrest => by
    rw [jsonFields, written_of_omitted hv, written_of_haveMembers hrest]
    rfl
  | _, _, .member hv hrest => by
    rw [jsonFields, written_of_hasTree hv, written_of_haveMembers hrest]
    rfl

end

/-- **The trees that are written** where big integers are refused. -/
theorem toJson?_eq_some_iff {v : Value} {tree : Json} :
    v.toJson? .refused = .ok (some tree) ↔ HasTree v tree :=
  ⟨hasTree_of_written v tree, written_of_hasTree⟩

theorem HasTree.unique {v : Value} {tree other : Json} (h : v.HasTree tree)
    (hother : v.HasTree other) : other = tree := by
  have hwritten := written_of_hasTree h
  rw [written_of_hasTree hother] at hwritten
  exact Option.some.inj (Except.ok.inj hwritten)

theorem hasTree_failure_iff {kind : FailureKind} {message : Text}
    {envelope : List (Text × Value)} {tree : Json} :
    (failure kind message envelope).HasTree tree ↔
      (object ((Text.ofString "name", .string kind.name) :: envelope)).HasTree tree := by
  rw [← toJson?_eq_some_iff, ← toJson?_eq_some_iff, toJson?_failure]

/-! ### Where there is no tree -/

/-- A big integer or a circular value is come across when the value is written. -/
def Treeless (v : Value) : Prop :=
  (∃ n, v.Meets (.bigint n)) ∨ ∃ shape, v.Meets (.circular shape)

theorem stops_refused_iff {w : Value} :
    w.Stops .refused ↔ (∃ n, w = .bigint n) ∨ ∃ shape, w = .circular shape := by
  cases w <;> simp [Stops]

/-- **Writing fails exactly on the treeless values** where big integers are refused. -/
theorem treeless_iff {v : Value} : v.Treeless ↔ ∃ e, v.toJson? .refused = .error e := by
  rw [toJson?_eq_error_iff]
  constructor
  · rintro (⟨n, hmeets⟩ | ⟨shape, hmeets⟩)
    · exact ⟨_, hmeets, stops_refused_iff.2 (Or.inl ⟨n, rfl⟩)⟩
    · exact ⟨_, hmeets, stops_refused_iff.2 (Or.inr ⟨shape, rfl⟩)⟩
  · rintro ⟨w, hmeets, hw⟩
    rcases stops_refused_iff.1 hw with ⟨n, rfl⟩ | ⟨shape, rfl⟩
    · exact Or.inl ⟨n, hmeets⟩
    · exact Or.inr ⟨shape, hmeets⟩

theorem treeless_object_iff {fields : List (Text × Value)} :
    (object fields).Treeless ↔ ∃ p ∈ fields, p.2.Treeless := by
  simp only [treeless_iff]
  rw [toJson?, map_eq_error_iff, jsonFields_eq_error_iff]

theorem treeless_failure_iff {kind : FailureKind} {message : Text}
    {envelope : List (Text × Value)} :
    (failure kind message envelope).Treeless ↔ ∃ p ∈ envelope, p.2.Treeless := by
  simp only [treeless_iff]
  rw [toJson?, map_eq_error_iff, jsonFields_eq_error_iff]

/-- Every other value has a tree, unless it is left out of JSON. -/
theorem exists_tree {v : Value} (h : ¬v.Treeless) (homitted : ¬v.Omitted) :
    ∃ tree, v.HasTree tree := by
  cases hv : v.toJson? .refused with
  | error e => exact absurd (treeless_iff.2 ⟨e, hv⟩) h
  | ok written =>
    cases written with
    | none => exact absurd (omitted_of_written hv) homitted
    | some tree => exact ⟨tree, hasTree_of_written v tree hv⟩

end Interchain.Value
