import Interchain.Proofs.Registry.Growth

/-! # Forgetting which object a chain is

A plain chain is nothing but its number: its kind and its serial are read off it. To forget the
objects in some data is to give each chain in it the serial of its number. `HasChains` says which
chains there are in the data and what is left when they are forgotten. Nothing that shows a value to
a reader depends on more than what is left: not its JSON (`toJson?_forget`), not its text
(`convert?_forget`), not its members (`member_forget`).
-/

namespace Interchain

/-- Data that may hold chains. -/
class HasChains (α : Type) where
  chainsIn : α → List Chain
  forgotten : α → α

open HasChains

namespace Chain

def serialOf (x : Number) : Nat := (x.toInt?.getD 0).toNat

/-- The chain that is nothing but its number. -/
def plain (x : Number) : Chain := ⟨.ofNumber x, x, serialOf x⟩

def forget (c : Chain) : Chain := { c with serial := serialOf c.value }

end Chain

namespace Registry

/-- All chains in some data are of this registry. -/
def Knows {α : Type} [HasChains α] (r : Registry) (x : α) : Prop := ∀ c ∈ chainsIn x, r.Issues c

variable {r : Registry} {c d : Chain}

theorem Grows.knows {α : Type} [HasChains α] {x : α} {r' : Registry} (h : r.Valid)
    (hg : Grows r r') (hx : r.Knows x) : r'.Knows x := fun c hc => hg.issues h (hx c hc)

/-- What was built before stays known when more is built. -/
theorem Grows.knows_append {α β : Type} [HasChains α] [HasChains β] {x : α} {y : β}
    {r' : Registry} (h : r.Valid) (hg : Grows r r') (hx : r.Knows x) (hy : r'.Knows y) :
    ∀ c ∈ chainsIn x ++ chainsIn y, r'.Issues c := by
  intro c hc
  rcases List.mem_append.1 hc with hc | hc
  · exact hg.issues h (hx c hc)
  · exact hy c hc

theorem Valid.forget_of_issues (h : r.Valid) (hc : r.Issues c) : c.forget = .plain c.value := by
  rw [Chain.forget, Chain.plain, h.kind_of_issues hc]

theorem Valid.serialOf_inj (h : r.Valid) (hc : r.Issues c) (hd : r.Issues d) :
    Chain.serialOf c.value = Chain.serialOf d.value ↔ c.value = d.value := by
  obtain ⟨m, -, hm⟩ := h.value_of_issues hc
  obtain ⟨n, -, hn⟩ := h.value_of_issues hd
  rw [hm, hn, Number.ofNat_inj]
  simp [Chain.serialOf]

/-- Plain chains are the same exactly if the chains they stand for are. -/
theorem Valid.same_forget (h : r.Valid) (hc : r.Issues c) (hd : r.Issues d) :
    c.forget.same d.forget = c.same d := by
  rw [Bool.eq_iff_iff, h.same_iff hc hd, ← h.serialOf_inj hc hd]
  exact beq_iff_eq

end Registry

namespace Value

mutual

/-- A value with its chains forgotten. -/
def forget : Value → Value
  | .array items => .array (forgetItems items)
  | .object fields => .object (forgetFields fields)
  | .chain c => .chain c.forget
  | .error name message code => .error (forget name) message (forget code)
  | .failure kind message envelope => .failure kind message (forgetFields envelope)
  | v => v

def forgetItems : List Value → List Value
  | [] => []
  | item :: rest => forget item :: forgetItems rest

def forgetFields : List (Text × Value) → List (Text × Value)
  | [] => []
  | (key, value) :: rest => (key, forget value) :: forgetFields rest

end

end Value

/-! ### Data with chains -/

instance : HasChains Chain := ⟨fun c => [c], Chain.forget⟩

instance : HasChains Value := ⟨Value.chains, Value.forget⟩

instance : HasChains Number := ⟨fun _ => [], id⟩

instance : HasChains Unit := ⟨fun _ => [], id⟩

section

variable {α ε : Type} [HasChains α] [HasChains ε]

instance : HasChains (Option α) := ⟨fun x => (x.map chainsIn).getD [], Option.map forgotten⟩

instance : HasChains (List α) := ⟨List.flatMap chainsIn, List.map forgotten⟩

/-- A member under its key. -/
instance : HasChains (Text × α) := ⟨fun p => chainsIn p.2, fun p => (p.1, forgotten p.2)⟩

instance : HasChains (Except ε α) where
  chainsIn
    | .ok x => chainsIn x
    | .error e => chainsIn e
  forgotten
    | .ok x => .ok (forgotten x)
    | .error e => .error (forgotten e)

end

instance : HasChains (Envelope Value) where
  chainsIn e := chainsIn e.context ++ chainsIn e.cause
  forgotten e := { e with context := forgotten e.context, cause := forgotten e.cause }

instance : HasChains Failure where
  chainsIn f := chainsIn f.envelope
  forgotten f := { f with envelope := forgotten f.envelope }

instance : HasChains Raised where
  chainsIn
    | .failure f => chainsIn f
    | _ => []
  forgotten
    | .failure f => .failure (forgotten f)
    | e => e

namespace Value

/-! ### What is left of a value -/

theorem itemChains_eq (items : List Value) : itemChains items = HasChains.chainsIn items := by
  induction items with
  | nil => rfl
  | cons item rest ih => rw [itemChains, ih]; rfl

theorem fieldChains_eq (fields : List (Text × Value)) :
    fieldChains fields = HasChains.chainsIn fields := by
  induction fields with
  | nil => rfl
  | cons p rest ih => rw [fieldChains, ih]; rfl

theorem forgetItems_eq (items : List Value) : forgetItems items = HasChains.forgotten items := by
  induction items with
  | nil => rfl
  | cons item rest ih => rw [forgetItems, ih]; rfl

theorem forgetFields_eq (fields : List (Text × Value)) :
    forgetFields fields = HasChains.forgotten fields := by
  induction fields with
  | nil => rfl
  | cons p rest ih => rw [forgetFields, ih]; rfl

mutual

theorem chains_forget : ∀ v : Value, v.forget.chains = v.chains.map Chain.forget
  | .array items => by rw [forget, chains, chains, itemChains_forget items]
  | .object fields => by rw [forget, chains, chains, fieldChains_forget fields]
  | .error name _ code => by
    rw [forget, chains, chains, chains_forget name, chains_forget code, List.map_append]
  | .failure _ _ envelope => by rw [forget, chains, chains, fieldChains_forget envelope]
  | .chain _ => rfl
  | .undefined => rfl
  | .null => rfl
  | .bool _ => rfl
  | .number _ => rfl
  | .bigint _ => rfl
  | .string _ => rfl
  | .symbol _ => rfl
  | .circular _ => rfl

theorem itemChains_forget :
    ∀ items : List Value, itemChains (forgetItems items) = (itemChains items).map Chain.forget
  | [] => rfl
  | item :: rest => by
    rw [forgetItems, itemChains, itemChains, chains_forget item, itemChains_forget rest,
      List.map_append]

theorem fieldChains_forget :
    ∀ fields : List (Text × Value),
      fieldChains (forgetFields fields) = (fieldChains fields).map Chain.forget
  | [] => rfl
  | (_, value) :: rest => by
    rw [forgetFields, fieldChains, fieldChains, chains_forget value, fieldChains_forget rest,
      List.map_append]

end

theorem isObject_forget (v : Value) : v.forget.isObject = v.isObject := by cases v <;> rfl

theorem isTruthy_forget (v : Value) : v.forget.isTruthy = v.isTruthy := by cases v <;> rfl

theorem isChain_forget (v : Value) : v.forget.isChain = v.isChain := by cases v <;> rfl

theorem text?_forget (v : Value) : v.forget.text? = v.text? := by cases v <;> rfl

theorem u16?_forget (v : Value) : v.forget.u16? = v.u16? := by cases v <;> rfl

mutual

theorem toJson?_forget (rule : BigInts) : ∀ v : Value, v.forget.toJson? rule = v.toJson? rule
  | .array items => by rw [forget, toJson?, toJson?, jsonItems_forget rule items]
  | .object fields => by rw [forget, toJson?, toJson?, jsonFields_forget rule fields]
  | .error _ _ code => by rw [forget, toJson?, toJson?, toJson?_forget rule code]
  | .failure _ _ envelope => by rw [forget, toJson?, toJson?, jsonFields_forget rule envelope]
  | .undefined => rfl
  | .null => rfl
  | .bool _ => rfl
  | .number _ => rfl
  | .bigint _ => rfl
  | .string _ => rfl
  | .symbol _ => rfl
  | .chain _ => rfl
  | .circular _ => rfl

theorem jsonItems_forget (rule : BigInts) :
    ∀ items : List Value, jsonItems rule (forgetItems items) = jsonItems rule items
  | [] => rfl
  | item :: rest => by
    rw [forgetItems, jsonItems, jsonItems, toJson?_forget rule item, jsonItems_forget rule rest]

theorem jsonFields_forget (rule : BigInts) :
    ∀ fields : List (Text × Value), jsonFields rule (forgetFields fields) = jsonFields rule fields
  | [] => rfl
  | (_, value) :: rest => by
    rw [forgetFields, jsonFields, jsonFields, toJson?_forget rule value,
      jsonFields_forget rule rest]

end

theorem jsonText?_forget (rule : BigInts) (v : Value) :
    v.forget.jsonText? rule = v.jsonText? rule := by
  rw [jsonText?, jsonText?, toJson?_forget]

theorem get?_forgetFields (key : Text) (fields : List (Text × Value)) :
    Fields.get? key (forgetFields fields) = (Fields.get? key fields).map forget := by
  induction fields with
  | nil => rfl
  | cons p rest ih =>
    obtain ⟨k, v⟩ := p
    rw [Fields.get?, Fields.get?] at ih
    rw [forgetFields, Fields.get?, Fields.get?, List.lookup_cons, List.lookup_cons, ih]
    cases key == k <;> rfl

mutual

theorem convert?_forget : ∀ v : Value, v.forget.convert? = v.convert?
  | .array items => by rw [forget, convert?, convert?, convertItems?_forget items]
  | .object fields => by
    rw [forget, convert?, convert?, Fields.has, Fields.has, get?_forgetFields, Option.isSome_map]
  | .error name message code => by
    have hname := convert?_forget name
    rw [forget]
    cases name <;>
      first | rfl | exact congrArg (Option.map fun name => errorText name message) hname
  | .failure _ _ _ => rfl
  | .undefined => rfl
  | .null => rfl
  | .bool _ => rfl
  | .number _ => rfl
  | .bigint _ => rfl
  | .string _ => rfl
  | .symbol _ => rfl
  | .chain _ => rfl
  | .circular _ => rfl

theorem convertItems?_forget :
    ∀ items : List Value, convertItems? (forgetItems items) = convertItems? items
  | [] => rfl
  | item :: rest => by
    have hitem := convert?_forget item
    have hrest := convertItems?_forget rest
    cases item <;> simp_all [forgetItems, forget, convertItems?]

end

theorem describe?_forget (v : Value) : v.forget.describe? = v.describe? := by
  have hv := convert?_forget v
  cases v <;> first | rfl | exact hv

theorem member_forget (name : String) (v : Value) :
    v.forget.member name = (v.member name).forget := by
  cases v with
  | object fields =>
    rw [forget, member, member, get?_forgetFields]
    cases Fields.get? (Text.ofString name) fields <;> rfl
  | error own message code =>
    simp only [forget, member]
    split_ifs <;> rfl
  | failure kind message envelope =>
    simp only [forget, member]
    split_ifs <;> rfl
  | _ => rfl

end Value

end Interchain
