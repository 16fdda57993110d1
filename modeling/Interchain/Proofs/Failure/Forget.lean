import Interchain.Proofs.Value.Forget

/-! # Failures without their objects

The text of an envelope is the same whichever objects the chains in it are (`text?_forget`). So a
failure can be built from forgotten chains as well (`build_forget`), and whatever it shows of itself
stays as it was. A failure holds no chain that its envelope did not hold.
-/

namespace Interchain

open HasChains

/-! ### Envelopes -/

namespace Envelope

theorem contextText?_forget (v : Value) : contextText? v.forget = contextText? v := by
  rw [contextText?, contextText?, Value.jsonText?_forget, Value.describe?_forget]

theorem entryTexts_forget (entries : Fields Value) :
    (forgotten entries).mapM entryText? = entries.mapM entryText? := by
  induction entries with
  | nil => rfl
  | cons p rest ih =>
    have hp : entryText? (forgotten p) = entryText? p :=
      congrArg (Option.map fun t => p.1 ++ Text.unit '=' :: t) (contextText?_forget p.2)
    have hcons : forgotten (p :: rest) = forgotten p :: forgotten rest := rfl
    rw [hcons, List.mapM_cons, List.mapM_cons, hp, ih]

theorem contextLines?_forget (colour : Colour) (context : Option (Fields Value)) :
    contextLines? colour (forgotten context) = contextLines? colour context := by
  cases context with
  | none => rfl
  | some entries =>
    cases entries with
    | nil => rfl
    | cons p rest =>
      have h := entryTexts_forget (p :: rest)
      exact congrArg (Option.map fun parts =>
        [labelled colour "Context" (Text.join contextSeparator parts)]) h

theorem causePart?_forget (cause : Value) (name : String) :
    causePart? cause.forget name = causePart? cause name := by
  simp only [causePart?, Value.member_forget, Value.isTruthy_forget, Value.describe?_forget]

theorem causeMessageLines?_forget (cause : Value) :
    causeMessageLines? cause.forget = causeMessageLines? cause := by
  simp only [causeMessageLines?, Value.member_forget, Value.isTruthy_forget,
    Value.describe?_forget]

theorem causeLines?_forget (colour : Colour) (cause : Value) :
    causeLines? colour cause.forget = causeLines? colour cause := by
  simp only [causeLines?, causePart?_forget, causeMessageLines?_forget, Value.isObject_forget,
    Value.isTruthy_forget, Value.describe?_forget]

/-- **The text of an envelope shows numbers and no objects.** -/
theorem text?_forget (colour : Colour) (e : Envelope Value) :
    (forgotten e).text? colour = e.text? colour := by
  have hcontext : contextLines? colour (forgotten e).context = contextLines? colour e.context :=
    contextLines?_forget colour e.context
  have hcause : causeLines? colour (forgotten e).cause = causeLines? colour e.cause :=
    causeLines?_forget colour e.cause
  rw [text?, text?, hcontext, hcause]
  rfl

end Envelope

/-! ### Failures -/

namespace Failure

variable (colour : Colour)

theorem build_forget (kind : FailureKind) (e : Envelope Value) :
    build colour kind (forgotten e) = forgotten (build colour kind e) := by
  rw [build, build, Envelope.text?_forget]
  cases e.text? colour <;> rfl

theorem chains_build (kind : FailureKind) (e : Envelope Value) :
    chainsIn (build colour kind e) ⊆ chainsIn e := by
  rw [build]
  cases e.text? colour with
  | none => exact List.nil_subset _
  | some t => exact List.Subset.refl _

theorem raise_forget (x : Except Raised Failure) : raise (forgotten x) = forgotten (raise x) := by
  cases x <;> rfl

theorem chains_raise (x : Except Raised Failure) : chainsIn (raise x) = chainsIn x := by
  cases x <;> rfl

theorem reject_forget (e : Envelope Value) :
    reject colour (forgotten e) = forgotten (reject colour e) := by
  rw [reject, reject, build_forget, raise_forget]

theorem chains_reject (e : Envelope Value) : chainsIn (reject colour e) ⊆ chainsIn e := by
  rw [reject, chains_raise]
  exact chains_build colour .general e

theorem fields_forget (f : Failure) : (forgotten f).fields = Value.forgetFields f.fields := by
  rw [Value.forgetFields_eq]
  obtain ⟨kind, ⟨resource, operation, type, message, context, cause⟩, text⟩ := f
  cases kind <;> cases context <;> simp [fields, forgotten, Value.forget, Value.forgetFields_eq]

theorem toValue_forget (f : Failure) : (forgotten f).toValue = f.toValue.forget := by
  rw [toValue, toValue, Value.forget, fields_forget]
  rfl

theorem chains_toValue (f : Failure) : f.toValue.chains ⊆ chainsIn f := by
  rw [toValue, Value.chains]
  obtain ⟨kind, ⟨resource, operation, type, message, context, cause⟩, text⟩ := f
  intro c hc
  cases kind with
  | general =>
    cases context <;>
      simpa [fields, chainsIn, Value.chains, Value.fieldChains, Value.fieldChains_eq] using hc
  | invalidText input =>
    -- The failure of an unreadable text leaves its cause out.
    cases context with
    | none => simp [fields, Value.chains, Value.fieldChains] at hc
    | some entries =>
      refine List.mem_append_left (chainsIn cause) ?_
      simpa [fields, chainsIn, Value.chains, Value.fieldChains, Value.fieldChains_eq] using hc

end Failure

/-! ### What values say of failures -/

namespace Value

theorem isFailure_forget (v : Value) : v.forget.isFailure = v.isFailure := by
  cases v with
  | object fields =>
    have h := member_forget "envelope" (.object fields)
    rw [forget] at h ⊢
    simp only [isFailure, h, isObject_forget, member_forget, text?_forget]
  | error name message code =>
    have h := member_forget "envelope" (.error name message code)
    rw [forget] at h ⊢
    simp only [isFailure, h, isObject_forget, member_forget, text?_forget]
  | _ => rfl

theorem isInvalidText_forget (v : Value) : v.forget.isInvalidText = v.isInvalidText := by
  cases v with
  | failure kind message envelope => cases kind <;> rfl
  | _ => rfl

theorem textMember_forget (name : String) (v : Value) :
    v.forget.textMember name = v.textMember name := by
  rw [textMember, textMember, member_forget, text?_forget]

theorem shapeCause_forget (v : Value) : v.forget.shapeCause = v.shapeCause := by
  simp only [shapeCause, isObject_forget, textMember_forget, describe?_forget]

theorem chains_ofOption (t : Option Text) : (ofOption t).chains = [] := by cases t <;> rfl

theorem forget_ofOption (t : Option Text) : (ofOption t).forget = ofOption t := by cases t <;> rfl

/-- The part of a value that is safe to attach holds no chain. -/
theorem chains_shapeCause (v : Value) : v.shapeCause.chains = [] := by
  rw [shapeCause]
  split_ifs <;> simp [chains, fieldChains, textMember, chains_ofOption]

theorem forget_shapeCause (v : Value) : v.shapeCause.forget = v.shapeCause := by
  rw [shapeCause]
  split_ifs <;> simp [forget, forgetFields, textMember, forget_ofOption]

end Value

end Interchain
