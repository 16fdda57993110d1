import Interchain.Failure.Basic

/-! # Values that cannot be shown

A value of a context is shown as JSON, and as plain text where it has no JSON. Writing it as JSON
fails on what it comes across on its way through the value (`Meets`): a container that holds itself,
and a big integer where these are refused (`toJson?_eq_error_iff`). Converting it to text fails on a
symbol inside it and on an object that has a `toString` of its own (`convert?_eq_none_iff`). A value
that fails in both ways cannot be shown at all (`contextText?_eq_none_iff`).
-/

namespace Interchain.Value

/-- What writing a value as JSON comes across: the value itself, and whatever its elements, its
members, the code of an error or the envelope of a failure come across. -/
inductive Meets : Value → Value → Prop
  | self (v : Value) : Meets v v
  | item {items : List Value} {item w : Value} :
      item ∈ items → Meets item w → Meets (.array items) w
  | member {fields : List (Text × Value)} {p : Text × Value} {w : Value} :
      p ∈ fields → Meets p.2 w → Meets (.object fields) w
  | code {name code w : Value} {message : Text} : Meets code w → Meets (.error name message code) w
  | envelope {kind : FailureKind} {message : Text} {fields : List (Text × Value)}
      {p : Text × Value} {w : Value} :
      p ∈ fields → Meets p.2 w → Meets (.failure kind message fields) w

/-- What has no JSON and stops the writing. -/
def Stops (rule : BigInts) : Value → Prop
  | .circular _ => True
  | .bigint _ => rule = .refused
  | _ => False

/-- A value that cannot become text as part of another value. -/
inductive Textless : Value → Prop
  | symbol (description : Text) : Textless (.symbol description)
  | item {items : List Value} {item : Value} :
      item ∈ items → Textless item → Textless (.array items)
  | object {fields : List (Text × Value)} :
      Fields.has (Text.ofString "toString") fields = true → Textless (.object fields)
  | name {name code : Value} {message : Text} : Textless name → Textless (.error name message code)

/-- A value with a circular part, which has no JSON, and with no plain text either. -/
def Unshowable (v : Value) : Prop := (∃ shape, v.Meets (.circular shape)) ∧ v.Textless

/-- What holds of a value as soon as it holds of its parts holds of every value. -/
@[elab_as_elim]
theorem parts_induction {P : Value → Prop} (undefined : P .undefined) (null : P .null)
    (bool : ∀ b, P (.bool b)) (number : ∀ x, P (.number x)) (bigint : ∀ n, P (.bigint n))
    (string : ∀ t, P (.string t)) (symbol : ∀ description, P (.symbol description))
    (array : ∀ items, (∀ item ∈ items, P item) → P (.array items))
    (object : ∀ fields : List (Text × Value), (∀ p ∈ fields, P p.2) → P (.object fields))
    (chain : ∀ c, P (.chain c))
    (error : ∀ name message code, P name → P code → P (.error name message code))
    (failure : ∀ kind message, ∀ fields : List (Text × Value), (∀ p ∈ fields, P p.2) →
      P (.failure kind message fields))
    (circular : ∀ shape, P (.circular shape)) : ∀ v, P v := by
  refine Value.rec (motive_2 := fun items => ∀ item ∈ items, P item)
    (motive_3 := fun fields => ∀ p ∈ fields, P p.2) (motive_4 := fun p => P p.2) undefined null bool
    number bigint string symbol array object chain error failure circular ?_ ?_ ?_ ?_ ?_
  · exact nofun
  · exact fun item rest hitem hrest => List.forall_mem_cons.2 ⟨hitem, hrest⟩
  · exact nofun
  · exact fun p rest hp hrest => List.forall_mem_cons.2 ⟨hp, hrest⟩
  · exact fun _ _ h => h

/-! ### Where writing fails -/

section Json

variable {rule : BigInts}

theorem jsonItems_eq_error_iff {items : List Value} :
    (∃ e, jsonItems rule items = .error e) ↔
      ∃ item ∈ items, ∃ e, item.toJson? rule = .error e := by
  induction items with
  | nil => simp [jsonItems]
  | cons item rest ih =>
    rw [jsonItems]
    cases hitem : item.toJson? rule with
    | error e =>
      constructor
      · exact fun _ => ⟨item, List.mem_cons_self, e, hitem⟩
      · exact fun _ => ⟨e, rfl⟩
    | ok j =>
      have hcons : (∃ x ∈ item :: rest, ∃ e, x.toJson? rule = .error e) ↔
          ∃ x ∈ rest, ∃ e, x.toJson? rule = .error e := by simp [hitem]
      rw [hcons, ← ih]
      cases jsonItems rule rest with
      | error e => exact ⟨fun _ => ⟨e, rfl⟩, fun _ => ⟨e, rfl⟩⟩
      | ok js => constructor <;> rintro ⟨e, he⟩ <;> cases he

theorem jsonFields_eq_error_iff {fields : List (Text × Value)} :
    (∃ e, jsonFields rule fields = .error e) ↔
      ∃ p ∈ fields, ∃ e, p.2.toJson? rule = .error e := by
  induction fields with
  | nil => simp [jsonFields]
  | cons p rest ih =>
    obtain ⟨key, value⟩ := p
    rw [jsonFields]
    cases hvalue : value.toJson? rule with
    | error e =>
      constructor
      · exact fun _ => ⟨(key, value), List.mem_cons_self, e, hvalue⟩
      · exact fun _ => ⟨e, rfl⟩
    | ok j =>
      have hcons : (∃ p ∈ (key, value) :: rest, ∃ e, p.2.toJson? rule = .error e) ↔
          ∃ p ∈ rest, ∃ e, p.2.toJson? rule = .error e := by simp [hvalue]
      rw [hcons, ← ih]
      cases jsonFields rule rest with
      | error e => exact ⟨fun _ => ⟨e, rfl⟩, fun _ => ⟨e, rfl⟩⟩
      | ok js => cases j <;> constructor <;> rintro ⟨e, he⟩ <;> cases he

theorem map_eq_error_iff {ε α β : Type} {x : Except ε α} {f : α → β} :
    (∃ e, x.map f = .error e) ↔ ∃ e, x = .error e := by
  cases x <;> simp [Except.map]

theorem exists_of_map_eq_ok {ε α β : Type} {x : Except ε α} {f : α → β} {y : β}
    (h : x.map f = .ok y) : ∃ z, x = .ok z ∧ f z = y := by
  cases x with
  | ok z => exact ⟨z, rfl, Except.ok.inj h⟩
  | error e => cases h

/-- What stops the writing of a part stops the writing of the whole. -/
theorem toJson?_eq_error_of_meets {v w : Value} (h : v.Meets w) (hw : w.Stops rule) :
    ∃ e, v.toJson? rule = .error e := by
  induction h with
  | self v =>
    cases v with
    | circular shape => exact ⟨.circular, rfl⟩
    | bigint n =>
      have hrule : rule = .refused := hw
      exact ⟨.bigInt, by rw [hrule]; rfl⟩
    | _ => exact hw.elim
  | item hmem _ ih =>
    rw [toJson?, map_eq_error_iff]
    exact jsonItems_eq_error_iff.2 ⟨_, hmem, ih hw⟩
  | member hmem _ ih =>
    rw [toJson?, map_eq_error_iff]
    exact jsonFields_eq_error_iff.2 ⟨_, hmem, ih hw⟩
  | code _ ih =>
    rw [toJson?, map_eq_error_iff]
    exact ih hw
  | envelope hmem _ ih =>
    rw [toJson?, map_eq_error_iff]
    exact jsonFields_eq_error_iff.2 ⟨_, hmem, ih hw⟩

/-- A value that has no JSON comes across something that has none. -/
theorem meets_of_toJson?_eq_error (v : Value) (h : ∃ e, v.toJson? rule = .error e) :
    ∃ w, v.Meets w ∧ w.Stops rule := by
  induction v using parts_induction with
  | array items ih =>
    rw [toJson?, map_eq_error_iff, jsonItems_eq_error_iff] at h
    obtain ⟨item, hmem, hitem⟩ := h
    obtain ⟨w, hmeets, hw⟩ := ih item hmem hitem
    exact ⟨w, .item hmem hmeets, hw⟩
  | object fields ih =>
    rw [toJson?, map_eq_error_iff, jsonFields_eq_error_iff] at h
    obtain ⟨p, hmem, hp⟩ := h
    obtain ⟨w, hmeets, hw⟩ := ih p hmem hp
    exact ⟨w, .member hmem hmeets, hw⟩
  | error name message code _ ih =>
    rw [toJson?, map_eq_error_iff] at h
    obtain ⟨w, hmeets, hw⟩ := ih h
    exact ⟨w, .code hmeets, hw⟩
  | failure kind message fields ih =>
    rw [toJson?, map_eq_error_iff, jsonFields_eq_error_iff] at h
    obtain ⟨p, hmem, hp⟩ := h
    obtain ⟨w, hmeets, hw⟩ := ih p hmem hp
    exact ⟨w, .envelope hmem hmeets, hw⟩
  | bigint n =>
    obtain ⟨e, he⟩ := h
    cases rule with
    | refused => exact ⟨_, .self _, rfl⟩
    | spelt => cases he
  | circular shape => exact ⟨_, .self _, trivial⟩
  | _ =>
    obtain ⟨e, he⟩ := h
    cases he

/-- **Writing fails exactly on what it comes across.** -/
theorem toJson?_eq_error_iff {v : Value} :
    (∃ e, v.toJson? rule = .error e) ↔ ∃ w, v.Meets w ∧ w.Stops rule :=
  ⟨meets_of_toJson?_eq_error v, fun ⟨_, h, hw⟩ => toJson?_eq_error_of_meets h hw⟩

end Json

/-! ### Where conversion fails -/

theorem convertItems?_eq_none_iff {items : List Value} :
    convertItems? items = none ↔ ∃ item ∈ items, item.convert? = none := by
  induction items with
  | nil => simp [convertItems?]
  | cons item rest ih =>
    have hcons : (∃ x ∈ item :: rest, x.convert? = none) ↔
        item.convert? = none ∨ ∃ x ∈ rest, x.convert? = none := by simp
    rw [hcons, ← ih]
    cases item with
    | undefined => simp [convertItems?, convert?]
    | null => simp [convertItems?, convert?]
    | _ =>
      rw [convertItems?]
      · cases convert? _ <;> cases convertItems? rest <;> simp
      all_goals exact nofun

theorem convert?_eq_none_of_textless {v : Value} (h : v.Textless) : v.convert? = none := by
  induction h with
  | symbol _ => rfl
  | item hmem _ ih =>
    rw [convert?, convertItems?_eq_none_iff.2 ⟨_, hmem, ih⟩]
    rfl
  | object h => rw [convert?, if_pos h]
  | @name name code message hname ih =>
    cases name with
    | undefined => cases hname
    | _ => rw [convert?, ih] <;> first | rfl | exact nofun

theorem textless_of_convert?_eq_none (v : Value) (h : v.convert? = none) : v.Textless := by
  induction v using parts_induction with
  | symbol description => exact .symbol description
  | array items ih =>
    rw [convert?, Option.map_eq_none_iff, convertItems?_eq_none_iff] at h
    obtain ⟨item, hmem, hitem⟩ := h
    exact .item hmem (ih item hmem hitem)
  | object fields _ =>
    rw [convert?] at h
    split at h
    · next hown => exact .object hown
    · cases h
  | error name message code ih _ =>
    cases name with
    | undefined => cases h
    | _ =>
      rw [convert?, Option.map_eq_none_iff] at h
      · exact .name (ih h)
      · exact nofun
  | circular shape => cases shape <;> cases h
  | _ => cases h

/-- **Conversion to text fails exactly on what is textless.** -/
theorem convert?_eq_none_iff {v : Value} : v.convert? = none ↔ v.Textless :=
  ⟨textless_of_convert?_eq_none v, convert?_eq_none_of_textless⟩

/-! ### Where both fail -/

theorem stops_spelt_iff {w : Value} : w.Stops .spelt ↔ ∃ shape, w = .circular shape := by
  cases w <;> simp [Stops]

/-- A symbol by itself has a text, and it comes across nothing that is circular. -/
theorem describe?_eq_convert? {v : Value} {shape : Container} (h : v.Meets (.circular shape)) :
    v.describe? = v.convert? := by
  cases h <;> rfl

/-- Only nothing at all and a symbol are left out of JSON. -/
theorem omitted_of_toJson?_eq_none {rule : BigInts} {v : Value} (h : v.toJson? rule = .ok none) :
    v = .undefined ∨ ∃ description, v = .symbol description := by
  cases v with
  | undefined => exact Or.inl rfl
  | symbol description => exact Or.inr ⟨description, rfl⟩
  | array items =>
    obtain ⟨y, -, hy⟩ := exists_of_map_eq_ok h
    cases hy
  | object fields =>
    obtain ⟨y, -, hy⟩ := exists_of_map_eq_ok h
    cases hy
  | error name message code =>
    obtain ⟨y, -, hy⟩ := exists_of_map_eq_ok h
    cases y <;> cases hy
  | failure kind message fields =>
    obtain ⟨y, -, hy⟩ := exists_of_map_eq_ok h
    cases hy
  | bigint n => cases rule <;> cases h
  | _ => cases h

theorem describe?_of_toJson?_eq_none {rule : BigInts} {v : Value}
    (h : v.toJson? rule = .ok none) : ∃ t, v.describe? = some t := by
  obtain rfl | ⟨description, rfl⟩ := omitted_of_toJson?_eq_none h <;> exact ⟨_, rfl⟩

/-- Where big integers are spelt out, only what is circular stops the writing. -/
theorem toJson?_spelt_eq_error_iff {v : Value} :
    (∃ e, v.toJson? .spelt = .error e) ↔ ∃ shape, v.Meets (.circular shape) := by
  rw [toJson?_eq_error_iff]
  constructor
  · rintro ⟨w, hmeets, hw⟩
    obtain ⟨shape, rfl⟩ := stops_spelt_iff.1 hw
    exact ⟨shape, hmeets⟩
  · rintro ⟨shape, hmeets⟩
    exact ⟨_, hmeets, trivial⟩

/-- **A value of a context is shown unless it has a circular part and no plain text.** -/
theorem contextText?_eq_none_iff {v : Value} :
    Envelope.contextText? v = none ↔ v.Unshowable := by
  rw [Unshowable, ← toJson?_spelt_eq_error_iff, ← convert?_eq_none_iff]
  cases hv : v.toJson? .spelt with
  | error e =>
    obtain ⟨shape, hmeets⟩ := toJson?_spelt_eq_error_iff.1 ⟨e, hv⟩
    have hcontext : Envelope.contextText? v = v.describe? := by
      simp only [Envelope.contextText?, jsonText?, hv, Except.map]
    rw [hcontext, describe?_eq_convert? hmeets]
    simp
  | ok j =>
    have hshown : Envelope.contextText? v ≠ none := by
      cases j with
      | some json => simp [Envelope.contextText?, jsonText?, hv, Except.map]
      | none =>
        obtain ⟨t, ht⟩ := describe?_of_toJson?_eq_none hv
        simp [Envelope.contextText?, jsonText?, hv, Except.map, ht]
    simp [hshown]

end Interchain.Value
