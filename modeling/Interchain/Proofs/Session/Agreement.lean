import Interchain.Proofs.Document.Forget
import Interchain.Proofs.Registry.Reachable
import Interchain.Proofs.Session.Stateless

/-! # Agreement with the library without objects

A run against a registry agrees with a stateless outcome if the registry only grows, what comes out
is that outcome once its objects are forgotten, and the registry knows all chains that come out.
Agreement goes through `pure`, `map` and `bind`, and asking for the chain of a number agrees with
taking the plain one (`Agrees.issue`). From these every operation agrees with its stateless
counterpart (`perform_agrees`).
-/

namespace Interchain

open HasChains Document

structure Agrees {α : Type} [HasChains α] (r : Registry) (a : Action α) (b : Except Raised α) :
    Prop where
  grows : Registry.Grows r (a r).2
  forgets : b = forgotten (a r).1
  knows : (a r).2.Knows (a r).1

namespace Agrees

variable {α β : Type} [HasChains α] [HasChains β] {r : Registry} {a : Action α}
  {b : Except Raised α}

theorem of_apply {x : Except Raised α} {r' : Registry} (ha : a r = (x, r'))
    (hg : Registry.Grows r r') (hb : b = forgotten x) (hx : r'.Knows x) : Agrees r a b := by
  refine ⟨?_, ?_, ?_⟩ <;> rw [ha]
  · exact hg
  · exact hb
  · exact hx

theorem ofExcept {x y : Except Raised α} (hy : y = forgotten x) (hx : r.Knows x) :
    Agrees r (Action.ofExcept x) y :=
  ⟨.refl r, hy, hx⟩

theorem pure {x y : α} (hy : y = forgotten x) (hx : r.Knows x) :
    Agrees r (Pure.pure x) (Pure.pure y) :=
  ⟨.refl r, congrArg Except.ok hy, hx⟩

theorem congr {a' : Action α} (h : Agrees r a b) (ha : a' r = a r) : Agrees r a' b :=
  .of_apply ha h.grows h.forgets h.knows

theorem map {f g : α → β} (hfg : ∀ x, g (forgotten x) = forgotten (f x))
    (hf : ∀ x, chainsIn (f x) ⊆ chainsIn x) (h : Agrees r a b) : Agrees r (f <$> a) (g <$> b) := by
  obtain ⟨hg, rfl, hk⟩ := h
  refine .of_apply (Action.map_apply f a r) hg ?_ ?_
  · cases (a r).1 with
    | ok x => exact congrArg Except.ok (hfg x)
    | error e => rfl
  · intro c hc
    cases hx : (a r).1 with
    | ok x =>
      rw [hx] at hk hc
      exact hk c (hf x hc)
    | error e =>
      rw [hx] at hk hc
      exact hk c hc

/-- **One step after another.** The second may count on whatever the first one gave it. -/
theorem bind {f : α → Action β} {g : α → Except Raised β} (hr : r.Valid) (h : Agrees r a b)
    (hf : ∀ r' x, r'.Valid → Registry.Grows r r' → r'.Knows x →
      Agrees r' (f x) (g (forgotten x))) :
    Agrees r (a >>= f) (b >>= g) := by
  obtain ⟨hg, rfl, hk⟩ := h
  rcases hrun : a r with ⟨e | x, r'⟩ <;> rw [hrun] at hg hk
  · have hbind : (a >>= f) r = (.error e, r') := by rw [Action.bind_apply, hrun]
    exact .of_apply hbind hg rfl hk
  · have hbind : (a >>= f) r = f x r' := by rw [Action.bind_apply, hrun]
    obtain ⟨hg', hf', hk'⟩ := hf r' x (hr.grows hg) hg hk
    exact .of_apply hbind (hg.trans hg') hf' hk'

/-- **A chain of the registry is plain once it is forgotten.** -/
theorem forget_chainOf (hr : r.Valid) {x : Number} (hx : x.isU16 = true) :
    (r.chainOf x).1.forget = Stateless.chainOf x := by
  rw [(hr.chainOf hx).forget_of_issues (Registry.issues_chainOf hr hx),
    Registry.value_chainOf hr hx, Stateless.chainOf]

theorem issue {x y : Except Raised Number} (hr : r.Valid)
    (hx : ∀ n, x = .ok n → n.isU16 = true) (hy : y = forgotten x) (hk : r.Knows x) :
    Agrees r (Action.issue x) (Stateless.give y) := by
  rw [hy]
  cases x with
  | error e => exact ⟨.refl r, rfl, hk⟩
  | ok n =>
    have hn := hx n rfl
    refine ⟨.single r hn, congrArg Except.ok (forget_chainOf hr hn).symm, ?_⟩
    intro c hc
    rw [List.mem_singleton.1 hc]
    exact Registry.issues_chainOf hr hn

end Agrees

/-! ### Operations -/

section

variable (colour : Colour) {r : Registry}

/-- A chain is asked for only after a number of 16 bits was required. -/
theorem requireU16_agrees (hr : r.Valid) (site : Site) {v : Value} (hv : r.Knows v) :
    Agrees r (Action.issue (v.requireU16 colour site))
      (Stateless.give (v.forget.requireU16 colour site)) :=
  .issue hr (fun _ h => (Value.requireU16_eq_ok.1 h).2) (v.requireU16_forget site)
    fun c hc => hv c (v.chains_requireU16 site hc)

theorem ofValue_agrees (hr : r.Valid) {v : Value} (hv : r.Knows v) :
    Agrees r (Chain.ofValue colour v) (Stateless.ofValue colour v.forget) := by
  rw [Chain.ofValue_eq]
  exact requireU16_agrees colour hr _ hv

theorem knows_number (x : Number) : r.Knows (Value.number x) := by
  intro c hc
  cases hc

theorem knows_undefined : r.Knows Value.undefined := by
  intro c hc
  cases hc

theorem ofName_agrees (hr : r.Valid) (s : Text) :
    Agrees r (Chain.ofName colour s) (Stateless.ofValue colour (Chain.numberOfName s)) := by
  rw [Chain.ofName]
  cases hs : Fields.get? s Chain.names with
  | some x =>
    have hn : Chain.numberOfName s = .number x := by rw [Chain.numberOfName, hs]
    rw [hn]
    exact ofValue_agrees colour hr (knows_number x)
  | none =>
    have hn : Chain.numberOfName s = .undefined := by rw [Chain.numberOfName, hs]
    rw [hn]
    exact ofValue_agrees colour hr knows_undefined

theorem ofKey_agrees (hr : r.Valid) (key : Option Text) :
    Agrees r (Chain.ofKey colour key) (Stateless.ofKey colour key) := by
  cases key with
  | some s => exact ofName_agrees colour hr s
  | none => exact .ofExcept rfl fun c hc => nomatch hc

/-- A chain that is handed in comes back as it is. -/
theorem coalesce_agrees (hr : r.Valid) {v : Value} (hv : r.Knows v) :
    Agrees r (Chain.coalesce colour v) (Stateless.coalesce colour v.forget) := by
  have hkey : Agrees r (Chain.ofKey colour v.convert?)
      (Stateless.ofKey colour v.forget.convert?) := by
    rw [Value.convert?_forget]
    exact ofKey_agrees colour hr v.convert?
  cases v with
  | chain c => exact .pure rfl hv
  | number x => exact ofValue_agrees colour hr (knows_number x)
  | string s => exact ofName_agrees colour hr s
  | symbol description => exact ofValue_agrees colour hr knows_undefined
  | _ => exact hkey

theorem parse_agrees (hr : r.Valid) (v : Value) :
    Agrees r (Chain.parseValue colour v) (Stateless.parse colour v.forget) := by
  cases v with
  | string s =>
    refine Agrees.congr ?_ (Chain.parse_apply hr s)
    refine .issue hr (fun _ => Chain.isU16_of_parsed) (Chain.parsed_forget s) ?_
    intro c hc
    rw [Chain.chains_parsed] at hc
    cases hc
  | _ => exact .ofExcept rfl fun c hc => nomatch hc

/-- A failure to read is an answer here, and every other fault is raised again. -/
theorem tryParse_agrees (hr : r.Valid) (v : Value) :
    Agrees r (Chain.tryParse colour v) (Stateless.tryParse colour v.forget) := by
  obtain ⟨hg, hf, hk⟩ := parse_agrees colour hr v
  refine .of_apply (Chain.tryParse_apply colour v r) hg ?_ ?_
  · rw [Stateless.tryParse, hf]
    rcases (Chain.parseValue colour v r).1 with e | c
    · cases e <;> rfl
    · rfl
  · intro c hc
    refine hk c ?_
    revert hc
    rcases (Chain.parseValue colour v r).1 with e | d
    · cases e <;> exact id
    · exact id

theorem reviveEntry_agrees (hr : r.Valid) (keys : List Text) (key : Text) {v : Value}
    (hv : r.Knows v) :
    Agrees r (Chain.reviveEntry colour keys key v)
      (Stateless.reviveEntry colour keys key v.forget) := by
  by_cases h : key ∈ keys
  · rw [Chain.reviveEntry_eq h, Stateless.reviveEntry, if_pos h]
    exact (requireU16_agrees colour hr _ hv).map (fun _ => rfl) fun _ => List.Subset.refl _
  · rw [Chain.reviveEntry_of_not_mem h, Stateless.reviveEntry, if_neg h]
    exact .pure rfl hv

/-- The chains of the numbers that were revived are known. -/
theorem issues_revived (hr : r.Valid) {keys : List Text} {ps : List (Text × Json)} {x : Number}
    (hx : x ∈ revived keys ps) :
    (r.issueAll (revived keys ps)).Issues ((r.issueAll (revived keys ps)).chain x) := by
  have hafter : (r.issueAll (revived keys ps)).Valid := hr.grows (grows_revived r ps)
  have hissues := Registry.issues_chainOf hafter (isU16_of_mem_revived x hx)
  rwa [chainOf_issueAll hr isU16_of_mem_revived (.refl _) x hx] at hissues

theorem revive_agrees (hr : r.Valid) (keys : List Text) (document : Text) :
    Agrees r (Chain.revive colour keys document) (Stateless.revive colour keys document) := by
  rw [Stateless.revive]
  cases ht : Json.parse? document with
  | none =>
    refine Agrees.of_apply (Call.revive_malformed keys ht) (.refl r) rfl ?_
    exact fun c hc => nomatch hc
  | some t =>
    have hrun : Chain.revive colour keys document r = _ := Call.revive_apply hr keys ht
    have hg : Registry.Grows r (r.issueAll (revived keys (positions [] t))) := grows_revived r _
    have hplain : ∀ ps : List (Text × Json), ∀ x ∈ ps.filterMap (listed? keys),
        Stateless.chainOf x = ((r.issueAll (revived keys (positions [] t))).chain x).forget := by
      intro ps x hx
      obtain ⟨p, -, hp⟩ := List.mem_filterMap.1 hx
      exact (Agrees.forget_chainOf (hr.grows hg) (isU16_of_u16? (listed?_eq_some.1 hp).2).2).symm
    cases hp : (positions [] t).find? (offends keys) with
    | none =>
      rw [outcome_of_ok _ hp] at hrun
      refine .of_apply hrun hg ?_ ?_
      · have hv := replaced_congr [] t (hplain (positions [] t))
        rw [← forget_replaced] at hv
        simp only [hp, hv]
        rfl
      · intro c hc
        obtain ⟨x, hx, rfl⟩ := List.mem_map.1 (chains_replaced [] t hc)
        rw [← revived_eq_filterMap hp] at hx
        exact issues_revived hr hx
    | some p =>
      rw [outcome_of_offends _ hp] at hrun
      refine .of_apply hrun hg ?_ ?_
      · have he := refusal_congr colour p (hplain (positions p.1 p.2))
        rw [← forgotten_refusal] at he
        simp only [hp, he]
        rfl
      · intro c hc
        obtain ⟨x, hx, rfl⟩ := List.mem_map.1 (chains_refusal colour p hc)
        exact issues_revived hr (listed_inner_subset_revived hp hx)

/-! ### Calls -/

theorem Agrees.chain {a : Action Chain} {b : Except Raised Chain} (h : Agrees r a b) :
    Agrees r (Answer.chain <$> a) (Answer.chain <$> b) :=
  h.map (fun _ => rfl) fun _ => List.Subset.refl _

theorem Agrees.value {a : Action Value} {b : Except Raised Value} (h : Agrees r a b) :
    Agrees r (Answer.value <$> a) (Answer.value <$> b) :=
  h.map (fun _ => rfl) fun _ => List.Subset.refl _

/-- **Every call agrees with its stateless counterpart.** -/
theorem perform_agrees (hr : r.Valid) {call : Call} (hcall : r.Knows call) :
    Agrees r (call.perform colour) (Stateless.perform colour (forgotten call)) := by
  cases call with
  | ofValue v => exact (ofValue_agrees colour hr hcall).chain
  | ofName name => exact (ofName_agrees colour hr name).chain
  | coalesce v => exact (coalesce_agrees colour hr hcall).chain
  | parse v => exact (parse_agrees colour hr v).chain
  | tryParse v => exact (tryParse_agrees colour hr v).map (fun _ => rfl) fun _ => List.Subset.refl _
  | deserialize v =>
    rw [Call.perform, Chain.deserialize_eq]
    exact (requireU16_agrees colour hr _ hcall).chain
  | revive keys document => exact (revive_agrees colour hr keys document).value
  | reviveEntry keys key v => exact (reviveEntry_agrees colour hr keys key hcall).value
  | decode bytes offset endian =>
    rw [Call.perform, Wire.decode_eq]
    refine Agrees.chain (.issue hr (fun _ => Wire.isU16_of_decoded) ?_ ?_)
    · exact Wire.decoded_forget bytes offset endian
    · exact fun c hc => hcall c (Wire.chains_decoded bytes offset endian hc)
  | decodeHex hex endian =>
    rw [Call.perform, Wire.decodeHex_eq]
    refine Agrees.chain (.issue hr (fun _ => Wire.isU16_of_decodedHex) ?_ ?_)
    · exact Wire.decodedHex_forget hex endian
    · intro c hc
      rw [Wire.chains_decodedHex] at hc
      cases hc
  | query q =>
    refine .ofExcept (Query.answer_forget hr q hcall) ?_
    intro c hc
    rcases List.mem_cons.1 (Query.chains_answer q hc) with rfl | hc
    · exact hr.issues_any
    · exact hcall c hc

end

end Interchain
