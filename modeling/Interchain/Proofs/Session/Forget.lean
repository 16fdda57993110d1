import Interchain.Proofs.Chain.Forget
import Interchain.Session.Run

/-! # Sessions without their objects

Answers, queries, calls and replies with their chains forgotten. A query shows only numbers: asked
about forgotten chains it gives the forgotten answer (`Query.answer_forget`). Two of the queries do
look at objects, the description of a chain and the comparison of two, and for them the chains must
be those of one registry.
-/

namespace Interchain

open HasChains

instance : HasChains Description where
  chainsIn d := [d.chain]
  forgotten d := { d with chain := d.chain.forget }

instance : HasChains FailureForms where
  chainsIn f := chainsIn f.failure ++ chainsIn f.ownCause
  forgotten f := { f with failure := forgotten f.failure, ownCause := forgotten f.ownCause }

instance : HasChains Answer where
  chainsIn
    | .chain c => [c]
    | .described description => chainsIn description
    | .attempt result => chainsIn result
    | .value v => v.chains
    | .forms forms => chainsIn forms
    | _ => []
  forgotten
    | .chain c => .chain c.forget
    | .described description => .described (forgotten description)
    | .attempt result => .attempt (forgotten result)
    | .value v => .value v.forget
    | .forms forms => .forms (forgotten forms)
    | answer => answer

instance : HasChains Query where
  chainsIn
    | .describe c | .nameOf c | .format c | .serialize c | .encode c _ | .encodeHex c _ => [c]
    | .compare a b => [a, b]
    | .sort cs => cs
    | .isChain v | .stringify v | .isU16 v | .requireU16 _ v => v.chains
    | .isFailure v | .isInvalidText v | .shapeCause v => v.chains
    | .layOut envelope => chainsIn envelope
    | .failureForms f => chainsIn f
    | _ => []
  forgotten
    | .describe c => .describe c.forget
    | .compare a b => .compare a.forget b.forget
    | .sort cs => .sort (forgotten cs)
    | .isChain v => .isChain v.forget
    | .nameOf c => .nameOf c.forget
    | .format c => .format c.forget
    | .serialize c => .serialize c.forget
    | .stringify v => .stringify v.forget
    | .encode c endian => .encode c.forget endian
    | .encodeHex c endian => .encodeHex c.forget endian
    | .isU16 v => .isU16 v.forget
    | .requireU16 site v => .requireU16 site v.forget
    | .layOut envelope => .layOut (forgotten envelope)
    | .failureForms f => .failureForms (forgotten f)
    | .isFailure v => .isFailure v.forget
    | .isInvalidText v => .isInvalidText v.forget
    | .shapeCause v => .shapeCause v.forget
    | q => q

instance : HasChains Call where
  chainsIn
    | .ofValue v | .coalesce v | .parse v | .tryParse v | .deserialize v => v.chains
    | .reviveEntry _ _ v | .decode _ v _ => v.chains
    | .query q => chainsIn q
    | _ => []
  forgotten
    | .ofValue v => .ofValue v.forget
    | .coalesce v => .coalesce v.forget
    | .parse v => .parse v.forget
    | .tryParse v => .tryParse v.forget
    | .deserialize v => .deserialize v.forget
    | .reviveEntry keys key v => .reviveEntry keys key v.forget
    | .decode bytes offset endian => .decode bytes offset.forget endian
    | .query q => .query (forgotten q)
    | call => call

instance {α : Type} [HasChains α] : HasChains (Given α) where
  chainsIn given := chainsIn given.all
  forgotten := Given.map forgotten

instance : HasChains Reply where
  chainsIn reply := chainsIn reply.outcome
  forgotten reply := { reply with outcome := forgotten reply.outcome }

/-! ### What is given out -/

namespace Given

variable {α β γ : Type} {given : Given α}

theorem mem_all_of_chain? {x : α} (h : given.chain? = some x) : x ∈ given.all := by
  rw [all, h]
  exact List.mem_cons_self

theorem all_map (f : α → β) (given : Given α) : (given.map f).all = given.all.map f := by
  obtain ⟨chain?, inside⟩ := given
  cases chain? <;> rfl

theorem map_map (f : α → β) (g : β → γ) (given : Given α) :
    (given.map f).map g = given.map (g ∘ f) := by
  rw [map, map, map, Option.map_map, List.map_map]

theorem map_congr {f g : α → β} (h : ∀ x ∈ given.all, f x = g x) : given.map f = given.map g := by
  obtain ⟨chain?, inside⟩ := given
  have hinside : inside.map f = inside.map g :=
    List.map_congr_left fun x hx => h x (List.mem_append_right _ hx)
  cases chain? with
  | none => exact congrArg (Given.mk none) hinside
  | some x => exact congrArg₂ (Given.mk ∘ some) (h x List.mem_cons_self) hinside

theorem map_id (given : Given α) : given.map id = given := by
  rw [map, Option.map_id_fun, List.map_id]
  rfl

theorem chainsIn_eq (given : Given Chain) : chainsIn given = given.all :=
  List.flatMap_singleton' given.all

end Given

/-! ### Answers made of what went well -/

section

variable {α β : Type} [HasChains α] [HasChains β] {x y : Except Raised α} {f : α → β}

theorem forgotten_map (hf : ∀ a, f (forgotten a) = forgotten (f a)) (hx : y = forgotten x) :
    y.map f = forgotten (x.map f) := by
  rw [hx]
  cases x with
  | ok a => exact congrArg Except.ok (hf a)
  | error e => rfl

theorem chainsIn_map (hf : ∀ a, chainsIn (f a) ⊆ chainsIn a) :
    chainsIn (x.map f) ⊆ chainsIn x := by
  cases x with
  | ok a => exact hf a
  | error e => exact List.Subset.refl _

end

/-! ### Queries -/

section

variable {r : Registry} {colour : Colour}

/-- A description tells whether a chain is the default one by looking at the object. -/
theorem Chain.description_forget (hr : r.Valid) {c : Chain} (hc : r.Issues c) :
    c.forget.description = forgotten c.description := by
  have hdefault : c.forget.same default = c.same default := hr.same_forget hc hr.issues_any
  simp only [Chain.description, hdefault]
  rfl

theorem Chain.sort_forget (cs : List Chain) :
    (Chain.sort (forgotten cs)).map Chain.value = (Chain.sort cs).map Chain.value := by
  have hmap : (Chain.sort cs).map Chain.forget = Chain.sort (cs.map Chain.forget) :=
    List.map_mergeSort fun a _ b _ => rfl
  have hsort : Chain.sort (forgotten cs) = (Chain.sort cs).map Chain.forget := hmap.symm
  rw [hsort, List.map_map]
  rfl

theorem Failure.forms_forget (f : Failure) :
    (forgotten f).forms colour = forgotten (f.forms colour) := by
  have hinspect : (forgotten f).inspect? colour = f.inspect? colour :=
    congrArg (Option.map fun t => f.kind.name ++ Text.ofString ": " ++ t)
      (Envelope.text?_forget colour f.envelope)
  have hjson : (forgotten f).jsonText? = f.jsonText? := by
    rw [jsonText?, jsonText?, toValue_forget, Value.jsonText?_forget]
  have hcause : (forgotten f).ownCause? = forgotten f.ownCause? := by
    have htruthy : (forgotten f).envelope.cause.isTruthy = f.envelope.cause.isTruthy :=
      Value.isTruthy_forget f.envelope.cause
    rw [ownCause?, ownCause?, htruthy]
    split_ifs <;> rfl
  rw [forms, forms, hinspect, hjson, hcause, toValue_forget, Value.isFailure_forget,
    Value.isInvalidText_forget]
  cases f.inspect? colour <;> rfl

theorem Failure.chains_forms (f : Failure) : chainsIn (f.forms colour) ⊆ chainsIn f := by
  rw [forms]
  cases f.inspect? colour with
  | none => exact List.nil_subset _
  | some t =>
    have hcause : chainsIn f.ownCause? ⊆ chainsIn f := by
      rw [ownCause?]
      split_ifs
      · exact List.subset_append_right _ _
      · exact List.nil_subset _
    exact List.append_subset.2 ⟨List.Subset.refl _, hcause⟩

/-- **Queries see numbers.** -/
theorem Query.answer_forget (hr : r.Valid) (q : Query) (hq : r.Knows q) :
    (forgotten q).answer colour = forgotten (q.answer colour) := by
  cases q with
  | describe c =>
    have hc : r.Issues c := hq c (List.mem_singleton_self c)
    simp only [forgotten, answer, Chain.description_forget hr hc]
  | compare a b =>
    have ha : r.Issues a := hq a (List.mem_cons_self ..)
    have hb : r.Issues b := hq b (List.mem_cons_of_mem _ (List.mem_singleton_self b))
    show Except.ok (Answer.compared ⟨_, _, a.forget.same b.forget⟩) = _
    rw [hr.same_forget ha hb]
    rfl
  | sort cs =>
    show Except.ok (Answer.numbers ((Chain.sort (forgotten cs)).map Chain.value)) = _
    rw [Chain.sort_forget]
    rfl
  | isChain v => simp only [forgotten, answer, Value.isChain_forget]
  | requireName name => exact forgotten_map (fun _ => rfl) (Chain.requireName_forget name)
  | stringify v =>
    show stringified v.forget = forgotten (stringified v)
    rw [stringified, stringified, Value.jsonText?_forget]
    cases v.jsonText? .refused with
    | ok t => cases t <;> rfl
    | error e => rfl
  | isU16 v => simp only [forgotten, answer, Value.isU16, Value.u16?_forget]
  | requireU16 site v => exact forgotten_map (fun _ => rfl) (v.requireU16_forget site)
  | layOut envelope =>
    show laidOut colour (forgotten envelope) = forgotten (laidOut colour envelope)
    rw [laidOut, laidOut, Envelope.text?_forget]
    cases envelope.text? colour <;> rfl
  | failureForms f => exact forgotten_map (fun _ => rfl) f.forms_forget
  | isFailure v => simp only [forgotten, answer, Value.isFailure_forget]
  | isInvalidText v => simp only [forgotten, answer, Value.isInvalidText_forget]
  | shapeCause v =>
    simp only [forgotten, answer, Value.shapeCause_forget, Value.forget_shapeCause]
  | bytesOfHex hex =>
    show readHex hex = forgotten (readHex hex)
    rw [readHex]
    cases Wire.bytesOfHex hex <;> rfl
  | nameOf c =>
    show Except.ok (Answer.ofOption c.name?) = forgotten (Except.ok (Answer.ofOption c.name?))
    cases c.name? <;> rfl
  | _ => rfl

/-- A query answers with no chains but those it was asked about and the default one. -/
theorem Query.chains_answer (q : Query) :
    chainsIn (q.answer colour) ⊆ Chain.any :: chainsIn q := by
  cases q with
  | default => exact List.Subset.refl _
  | describe c => exact List.subset_cons_self _ _
  | requireName name =>
    refine List.Subset.trans (chainsIn_map fun _ => List.nil_subset _) ?_
    rw [Chain.chains_requireName]
    exact List.nil_subset _
  | stringify v =>
    show chainsIn (stringified v) ⊆ _
    rw [stringified]
    cases v.jsonText? .refused with
    | ok t => cases t <;> exact List.nil_subset _
    | error e => exact List.nil_subset _
  | requireU16 site v =>
    refine List.Subset.trans (chainsIn_map fun _ => List.nil_subset _) ?_
    exact List.subset_cons_of_subset _ (v.chains_requireU16 site)
  | layOut envelope =>
    show chainsIn (laidOut colour envelope) ⊆ _
    rw [laidOut]
    cases envelope.text? colour <;> exact List.nil_subset _
  | failureForms f =>
    refine List.Subset.trans (chainsIn_map fun _ => List.Subset.refl _) ?_
    exact List.subset_cons_of_subset _ f.chains_forms
  | shapeCause v =>
    show v.shapeCause.chains ⊆ _
    rw [Value.chains_shapeCause]
    exact List.nil_subset _
  | bytesOfHex hex =>
    show chainsIn (readHex hex) ⊆ _
    rw [readHex]
    cases Wire.bytesOfHex hex <;> exact List.nil_subset _
  | nameOf c =>
    show chainsIn (Answer.ofOption c.name?) ⊆ _
    cases c.name? <;> exact List.nil_subset _
  | _ => exact List.nil_subset _

end

end Interchain
