import Interchain.Proofs.Session.Agreement

/-! # Arguments without objects

Building an argument against a registry agrees with building it from plain chains (`build_agrees`).
The induction is on the expression, and the registry grows on the way from one part to the next: the
parts that were built before stay known to it. A whole request is the building of its arguments and
then the call (`perform_request_agrees`).
-/

namespace Interchain

open HasChains

/-! ### Fields -/

namespace Fields

theorem forgotten_set (key : Text) (v : Value) (fields : Fields Value) :
    set key v.forget (forgotten fields) = forgotten (set key v fields) := by
  induction fields with
  | nil => rfl
  | cons p rest ih =>
    obtain ⟨k, w⟩ := p
    show set key v.forget ((k, w.forget) :: forgotten rest) = _
    rw [set, set, ih]
    split_ifs <;> rfl

theorem chains_set (key : Text) (v : Value) (fields : Fields Value) :
    chainsIn (set key v fields) ⊆ v.chains ++ chainsIn fields := by
  induction fields with
  | nil => exact List.Subset.refl _
  | cons p rest ih =>
    obtain ⟨k, w⟩ := p
    have hcons : ∀ (k : Text) (w : Value) (rest : Fields Value),
        chainsIn ((k, w) :: rest) = w.chains ++ chainsIn rest := fun _ _ _ => rfl
    intro c hc
    rw [set] at hc
    split_ifs at hc <;> simp only [hcons, List.mem_append] at hc ⊢
    · exact hc.imp_right Or.inr
    · exact hc
    · rcases hc with hc | hc
      · exact Or.inr (Or.inl hc)
      · exact (List.mem_append.1 (ih hc)).imp_right Or.inr

theorem forgotten_ofPairs (pairs : List (Text × Value)) :
    ofPairs (forgotten pairs) = forgotten (ofPairs pairs) := by
  have hall : ∀ fields : Fields Value,
      (forgotten pairs).foldl (fun fields pair => set pair.1 pair.2 fields) (forgotten fields) =
        forgotten (pairs.foldl (fun fields pair => set pair.1 pair.2 fields) fields) := by
    induction pairs with
    | nil => exact fun _ => rfl
    | cons p rest ih =>
      intro fields
      rw [List.foldl_cons, ← ih, ← forgotten_set]
      rfl
  exact hall []

theorem chains_ofPairs (pairs : List (Text × Value)) :
    chainsIn (ofPairs pairs) ⊆ chainsIn pairs := by
  have hall : ∀ fields : Fields Value,
      chainsIn (pairs.foldl (fun fields pair => set pair.1 pair.2 fields) fields) ⊆
        chainsIn pairs ++ chainsIn fields := by
    induction pairs with
    | nil => exact fun _ => List.Subset.refl _
    | cons p rest ih =>
      intro fields c hc
      have hcons : chainsIn (p :: rest) = p.2.chains ++ chainsIn rest := rfl
      rw [List.foldl_cons] at hc
      rw [hcons]
      simp only [List.mem_append]
      rcases List.mem_append.1 (ih _ hc) with hc | hc
      · exact Or.inl (Or.inr hc)
      · exact (List.mem_append.1 (chains_set p.1 p.2 fields hc)).imp_left Or.inl
  intro c hc
  rcases List.mem_append.1 (hall [] hc) with hc | hc
  · exact hc
  · cases hc

end Fields

/-! ### Expressions -/

section

variable (colour : Colour) {results : Results}

theorem get?_forgotten (results : Results) (step : Nat) :
    Results.get? (forgotten results) step = (results.get? step).map Chain.forget := by
  show (results.map (Given.map Chain.forget))[step]?.bind Given.chain? = _
  rw [List.getElem?_map, Results.get?]
  cases results[step]? <;> rfl

theorem inside?_forgotten (results : Results) (step place : Nat) :
    Results.inside? (forgotten results) step place =
      (results.inside? step place).map Chain.forget := by
  show ((results.map (Given.map Chain.forget))[step]?.bind fun given => given.inside[place]?) = _
  rw [List.getElem?_map, Results.inside?]
  cases results[step]? with
  | none => rfl
  | some given => exact List.getElem?_map

theorem issues_of_mem_all {r : Registry} (hres : r.Knows results) {given : Given Chain}
    (hgiven : given ∈ results) {c : Chain} (hc : c ∈ given.all) : r.Issues c :=
  hres c (List.mem_flatMap.2 ⟨given, hgiven, given.chainsIn_eq.symm ▸ hc⟩)

theorem knows_get? {r : Registry} (hres : r.Knows results) (step : Nat) :
    r.Knows (results.get? step) := by
  intro d hd
  cases hc : results.get? step with
  | none => rw [hc] at hd; cases hd
  | some c =>
    rw [hc] at hd
    rw [List.mem_singleton.1 hd]
    obtain ⟨given, hgiven, hchain⟩ := Option.bind_eq_some_iff.1 hc
    exact issues_of_mem_all hres (List.mem_of_getElem? hgiven) (Given.mem_all_of_chain? hchain)

theorem knows_inside? {r : Registry} (hres : r.Knows results) (step place : Nat) :
    r.Knows (results.inside? step place) := by
  intro d hd
  cases hc : results.inside? step place with
  | none => rw [hc] at hd; cases hd
  | some c =>
    rw [hc] at hd
    rw [List.mem_singleton.1 hd]
    obtain ⟨given, hgiven, hplace⟩ := Option.bind_eq_some_iff.1 hc
    refine issues_of_mem_all hres (List.mem_of_getElem? hgiven) ?_
    exact List.mem_append_right _ (List.mem_of_getElem? hplace)

/-- An argument without chains. -/
theorem leaf_agrees {r : Registry} {v : Value} (hf : v = v.forget) (hv : v.chains = []) :
    Agrees r (pure v) (pure v) := by
  refine .pure hf ?_
  intro c hc
  rw [show chainsIn v = [] from hv] at hc
  cases hc

theorem earlier_agrees {r : Registry} {c : Option Chain} (hc : r.Knows c) :
    Agrees r (pure (Expr.earlier c)) (pure (Expr.earlier (c.map Chain.forget))) := by
  cases c with
  | none => exact leaf_agrees rfl rfl
  | some c => exact .pure rfl hc

theorem failure_agrees {r : Registry} {kind : FailureKind} {e : Envelope Value}
    (he : r.Knows e) :
    Agrees r (Action.ofExcept (Failure.build colour kind e))
      (Failure.build colour kind (forgotten e)) := by
  refine .ofExcept (Failure.build_forget colour kind e) ?_
  exact fun c hc => he c (Failure.chains_build colour kind e hc)

theorem unreadable_agrees {r : Registry} (input : Text) :
    Agrees r (Action.ofExcept (Chain.unreadable colour input))
      (Chain.unreadable colour input) := by
  refine .ofExcept (Chain.unreadable_forget input) ?_
  intro c hc
  rw [Chain.chains_unreadable] at hc
  cases hc

theorem toValue_agrees {r : Registry} {f : Failure} (hf : r.Knows f) :
    Agrees r (pure f.toValue) (pure (forgotten f).toValue) :=
  .pure f.toValue_forget fun c hc => hf c (f.chains_toValue hc)

mutual

theorem build_agrees : ∀ (e : Expr) {r : Registry}, r.Valid → r.Knows results →
    Agrees r (e.build colour results) (e.build colour (forgotten results))
  | .undefined, _, _, _ => by rw [Expr.build, Expr.build]; exact leaf_agrees rfl rfl
  | .null, _, _, _ => by rw [Expr.build, Expr.build]; exact leaf_agrees rfl rfl
  | .bool _, _, _, _ => by rw [Expr.build, Expr.build]; exact leaf_agrees rfl rfl
  | .number _, _, _, _ => by rw [Expr.build, Expr.build]; exact leaf_agrees rfl rfl
  | .bigint _, _, _, _ => by rw [Expr.build, Expr.build]; exact leaf_agrees rfl rfl
  | .string _, _, _, _ => by rw [Expr.build, Expr.build]; exact leaf_agrees rfl rfl
  | .symbol _, _, _, _ => by rw [Expr.build, Expr.build]; exact leaf_agrees rfl rfl
  | .circular _, _, _, _ => by rw [Expr.build, Expr.build]; exact leaf_agrees rfl rfl
  | .list items, r, hr, hres => by
    rw [Expr.build, Expr.build]
    refine (buildItems_agrees items hr hres).bind hr ?_
    intro r' items _ _ hitems
    refine .pure (congrArg Value.array (Value.forgetItems_eq items).symm) ?_
    intro c hc
    exact hitems c (by rwa [← Value.itemChains_eq])
  | .object pairs, r, hr, hres => by
    rw [Expr.build, Expr.build]
    refine (buildPairs_agrees pairs hr hres).bind hr ?_
    intro r' pairs _ _ hpairs
    refine .pure ?_ ?_
    · rw [Fields.forgotten_ofPairs, ← Value.forgetFields_eq]
      rfl
    · intro c hc
      refine hpairs c (Fields.chains_ofPairs pairs ?_)
      rwa [← Value.fieldChains_eq]
  | .chain x, r, hr, hres => by
    rw [Expr.build, Expr.build]
    refine (ofValue_agrees colour hr (knows_number x)).bind hr ?_
    exact fun r' c _ _ hc => .pure rfl hc
  | .result step, r, hr, hres => by
    rw [Expr.build, Expr.build, get?_forgotten]
    exact earlier_agrees (knows_get? hres step)
  | .inside step place, r, hr, hres => by
    rw [Expr.build, Expr.build, inside?_forgotten]
    exact earlier_agrees (knows_inside? hres step place)
  | .error name message code, r, hr, hres => by
    rw [Expr.build, Expr.build]
    refine (build_agrees name hr hres).bind hr ?_
    intro r' name hr' hg hname
    refine (build_agrees code hr' (hg.knows hr hres)).bind hr' ?_
    intro r'' code _ hg' hcode
    exact .pure rfl (hg'.knows_append hr' hname hcode)
  | .failure envelope, r, hr, hres => by
    rw [Expr.build, Expr.build]
    refine (buildEnvelope_agrees envelope hr hres).bind hr ?_
    intro r' e hr' _ he
    refine (failure_agrees colour he).bind hr' ?_
    exact fun _ _ _ _ hf => toValue_agrees hf
  | .invalidText input, r, hr, hres => by
    rw [Expr.build, Expr.build]
    refine (unreadable_agrees colour input).bind hr ?_
    exact fun _ _ _ _ hf => toValue_agrees hf

theorem buildItems_agrees : ∀ (items : List Expr) {r : Registry}, r.Valid → r.Knows results →
    Agrees r (Expr.buildItems colour results items)
      (Expr.buildItems colour (forgotten results) items)
  | [], r, hr, hres => by
    rw [Expr.buildItems, Expr.buildItems]
    exact .pure rfl fun c hc => nomatch hc
  | item :: rest, r, hr, hres => by
    rw [Expr.buildItems, Expr.buildItems]
    refine (build_agrees item hr hres).bind hr ?_
    intro r' item hr' hg hitem
    refine (buildItems_agrees rest hr' (hg.knows hr hres)).bind hr' ?_
    intro r'' rest _ hg' hrest
    exact .pure rfl (hg'.knows_append hr' hitem hrest)

theorem buildPairs_agrees : ∀ (pairs : List (Text × Expr)) {r : Registry}, r.Valid →
    r.Knows results →
    Agrees r (Expr.buildPairs colour results pairs)
      (Expr.buildPairs colour (forgotten results) pairs)
  | [], r, hr, hres => by
    rw [Expr.buildPairs, Expr.buildPairs]
    exact .pure rfl fun c hc => nomatch hc
  | (key, value) :: rest, r, hr, hres => by
    rw [Expr.buildPairs, Expr.buildPairs]
    refine (build_agrees value hr hres).bind hr ?_
    intro r' value hr' hg hvalue
    refine (buildPairs_agrees rest hr' (hg.knows hr hres)).bind hr' ?_
    intro r'' rest _ hg' hrest
    exact .pure rfl (hg'.knows_append hr' hvalue hrest)

theorem buildContext_agrees : ∀ (context : Option (List (Text × Expr))) {r : Registry}, r.Valid →
    r.Knows results →
    Agrees r (Expr.buildContext colour results context)
      (Expr.buildContext colour (forgotten results) context)
  | none, r, hr, hres => by
    rw [Expr.buildContext, Expr.buildContext]
    exact .pure rfl fun c hc => nomatch hc
  | some pairs, r, hr, hres => by
    rw [Expr.buildContext, Expr.buildContext]
    refine (buildPairs_agrees pairs hr hres).bind hr ?_
    intro r' pairs _ _ hpairs
    refine .pure (congrArg some (Fields.forgotten_ofPairs pairs)) ?_
    exact fun c hc => hpairs c (Fields.chains_ofPairs pairs hc)

theorem buildEnvelope_agrees : ∀ (e : Envelope Expr) {r : Registry}, r.Valid →
    r.Knows results →
    Agrees r (Expr.buildEnvelope colour results e)
      (Expr.buildEnvelope colour (forgotten results) e)
  | ⟨resource, operation, type, message, context, cause⟩, r, hr, hres => by
    rw [Expr.buildEnvelope, Expr.buildEnvelope]
    refine (buildContext_agrees context hr hres).bind hr ?_
    intro r' context hr' hg hcontext
    refine (build_agrees cause hr' (hg.knows hr hres)).bind hr' ?_
    intro r'' cause _ hg' hcause
    exact .pure rfl (hg'.knows_append hr' hcontext hcause)

end

theorem buildFailure_agrees (e : Expr) {r : Registry} (hr : r.Valid) (hres : r.Knows results) :
    Agrees r (e.buildFailure colour results) (e.buildFailure colour (forgotten results)) := by
  cases e with
  | failure envelope =>
    refine (buildEnvelope_agrees colour envelope hr hres).bind hr ?_
    exact fun r' e hr' _ he => failure_agrees colour he
  | invalidText input => exact unreadable_agrees colour input
  | _ => exact .ofExcept rfl fun c hc => nomatch hc

/-! ### Requests -/

theorem operand_agrees {r : Registry} {c : Option Chain} (hc : r.Knows c) :
    Agrees r (Operand.earlier c) (Operand.earlier (c.map Chain.forget)) := by
  cases c with
  | none => exact .ofExcept rfl fun c hc => nomatch hc
  | some c => exact .pure rfl hc

theorem resolve_agrees (c : Operand) {r : Registry} (hr : r.Valid) (hres : r.Knows results) :
    Agrees r (c.resolve colour results) (c.resolve colour (forgotten results)) := by
  cases c with
  | number x => exact ofValue_agrees colour hr (knows_number x)
  | result step =>
    rw [Operand.resolve, Operand.resolve, get?_forgotten]
    exact operand_agrees (knows_get? hres step)
  | inside step place =>
    rw [Operand.resolve, Operand.resolve, inside?_forgotten]
    exact operand_agrees (knows_inside? hres step place)

theorem resolveAll_agrees (cs : List Operand) {r : Registry} (hr : r.Valid)
    (hres : r.Knows results) :
    Agrees r (Operand.resolveAll colour results cs)
      (Operand.resolveAll colour (forgotten results) cs) := by
  induction cs generalizing r with
  | nil => exact .pure rfl fun c hc => nomatch hc
  | cons c rest ih =>
    rw [Operand.resolveAll, Operand.resolveAll]
    refine (resolve_agrees colour c hr hres).bind hr ?_
    intro r' c hr' hg hc
    refine (ih hr' (hg.knows hr hres)).bind hr' ?_
    intro r'' rest _ hg' hrest
    exact .pure rfl (hg'.knows_append hr' hc hrest)

/-- **Building the arguments of a request agrees with building them from plain chains.** -/
theorem call_agrees (request : Request) {r : Registry} (hr : r.Valid) (hres : r.Knows results) :
    Agrees r (request.call colour results) (request.call colour (forgotten results)) := by
  have hvalue := fun e => build_agrees colour e hr hres
  have hchain := fun c => resolve_agrees colour c hr hres
  cases request with
  | ofValue v => exact (hvalue v).map (fun _ => rfl) fun _ => List.Subset.refl _
  | isChain v => exact (hvalue v).map (fun _ => rfl) fun _ => List.Subset.refl _
  | coalesce v => exact (hvalue v).map (fun _ => rfl) fun _ => List.Subset.refl _
  | parse v => exact (hvalue v).map (fun _ => rfl) fun _ => List.Subset.refl _
  | tryParse v => exact (hvalue v).map (fun _ => rfl) fun _ => List.Subset.refl _
  | deserialize v => exact (hvalue v).map (fun _ => rfl) fun _ => List.Subset.refl _
  | reviveEntry keys key v => exact (hvalue v).map (fun _ => rfl) fun _ => List.Subset.refl _
  | stringify v => exact (hvalue v).map (fun _ => rfl) fun _ => List.Subset.refl _
  | isU16 v => exact (hvalue v).map (fun _ => rfl) fun _ => List.Subset.refl _
  | requireU16 site v => exact (hvalue v).map (fun _ => rfl) fun _ => List.Subset.refl _
  | isFailure v => exact (hvalue v).map (fun _ => rfl) fun _ => List.Subset.refl _
  | isInvalidText v => exact (hvalue v).map (fun _ => rfl) fun _ => List.Subset.refl _
  | shapeCause v => exact (hvalue v).map (fun _ => rfl) fun _ => List.Subset.refl _
  | describe c => exact (hchain c).map (fun _ => rfl) fun _ => List.Subset.refl _
  | nameOf c => exact (hchain c).map (fun _ => rfl) fun _ => List.Subset.refl _
  | format c => exact (hchain c).map (fun _ => rfl) fun _ => List.Subset.refl _
  | serialize c => exact (hchain c).map (fun _ => rfl) fun _ => List.Subset.refl _
  | encode c endian => exact (hchain c).map (fun _ => rfl) fun _ => List.Subset.refl _
  | encodeHex c endian => exact (hchain c).map (fun _ => rfl) fun _ => List.Subset.refl _
  | decode source offset endian =>
    exact (hvalue offset).map (fun _ => rfl) fun _ => List.Subset.refl _
  | compare a b =>
    refine (hchain a).bind hr ?_
    intro r' a hr' hg ha
    refine (resolve_agrees colour b hr' (hg.knows hr hres)).bind hr' ?_
    intro r'' b _ hg' hb
    exact .pure rfl (hg'.knows_append hr' ha hb)
  | sort cs =>
    refine (resolveAll_agrees colour cs hr hres).map (fun _ => rfl) ?_
    intro cs c hc
    exact List.mem_flatMap.2 ⟨c, hc, List.mem_singleton_self c⟩
  | layOut e =>
    exact (buildEnvelope_agrees colour e hr hres).map (fun _ => rfl) fun _ => List.Subset.refl _
  | failureForms v =>
    exact (buildFailure_agrees colour v hr hres).map (fun _ => rfl) fun _ => List.Subset.refl _
  | _ => exact .pure rfl fun c hc => nomatch hc

/-- The outcome of a request against a registry agrees with the stateless one after the same numbers
were given out. -/
theorem perform_request_agrees (request : Request) {r : Registry} (hr : r.Valid)
    (hres : r.Knows results) :
    Agrees r (request.perform colour results)
      (Stateless.answer colour (results.map (Given.map Chain.value)) request) := by
  have hplain : forgotten results =
      (results.map (Given.map Chain.value)).map (Given.map Chain.plain) := by
    rw [List.map_map]
    refine List.map_congr_left fun given hgiven => ?_
    rw [Function.comp_apply, Given.map_map]
    exact Given.map_congr fun c hc => hr.forget_of_issues (issues_of_mem_all hres hgiven hc)
  rw [Stateless.answer, ← hplain]
  refine (call_agrees colour request hr hres).bind hr ?_
  exact fun r' call hr' _ hcall => perform_agrees colour hr' hcall

end

end Interchain
