import Interchain.Proofs.Chain.Parse
import Interchain.Proofs.Document.Reviver
import Interchain.Proofs.Wire.Frame

/-! # Which operation a failure names

An operation that gives a chain checks what it is given and then asks for the chain of a number,
which is checked once more. The inner check never fails: whatever an operation raises is a failure
of its own, with its own name and with what it was given in the context
(`raised_by_own_operation`). An offset that was let through leaves two bytes to read
(`Wire.read?_isSome`), and a text of digits is never handed on before it was found to be two bytes.

Where any value may be given there is one more way out, since a value that cannot be shown keeps its
failure from being made.
-/

namespace Interchain

/-- A failure of this sort that names a resource and an operation, and has this context. -/
def Raised.Names (e : Raised) (kind : FailureKind) (resource operation : String)
    (context : Fields Value) : Prop :=
  ∃ f, e = .failure f ∧ f.kind = kind ∧ f.envelope.resource = Text.ofString resource ∧
    f.envelope.operation = Text.ofString operation ∧ f.envelope.context = some context

namespace Failure

variable {colour : Colour} {kind : FailureKind} {resource operation : String}
  {context : Fields Value}

theorem RaisedAs.names {e : Raised} {envelope : Envelope Value}
    (h : RaisedAs colour kind envelope e)
    (hresource : envelope.resource = Text.ofString resource)
    (hoperation : envelope.operation = Text.ofString operation)
    (hcontext : envelope.context = some context) : e.Names kind resource operation context := by
  obtain ⟨message, -, rfl⟩ := h
  exact ⟨_, rfl, rfl, hresource, hoperation, hcontext⟩

/-- Where an envelope has no text, the fault in showing it is all that can be raised. -/
theorem raise_build (envelope : Envelope Value) :
    raise (build colour kind envelope) = .unprintable ∨
      RaisedAs colour kind envelope (raise (build colour kind envelope)) := by
  cases ht : envelope.text? colour with
  | none =>
    refine Or.inl ?_
    rw [build, ht]
    rfl
  | some t => exact Or.inr (raisedAs_of_text? ht)

end Failure

section

variable {colour : Colour} {r : Registry} {e : Raised}

theorem eq_error_of_issue {x : Except Raised Number} (h : (Action.issue x r).1 = .error e) :
    x = .error e := by
  cases x with
  | ok n => cases h
  | error e' => exact congrArg Except.error (Except.error.inj h)

theorem eq_error_of_map {α β : Type} {f : α → β} {a : Action α} (h : ((f <$> a) r).1 = .error e) :
    (a r).1 = .error e := by
  rw [Action.map_apply] at h
  cases ha : (a r).1 with
  | ok x =>
    rw [ha] at h
    cases h
  | error e' =>
    rw [ha] at h
    exact congrArg Except.error (Except.error.inj h)

theorem written_string (t : Text) : (Value.string t).Written := ⟨_, rfl⟩

theorem written_number (x : Number) : (Value.number x).Written := ⟨_, rfl⟩

/-! ### Values -/

theorem requireU16_raises {site : Site} {v : Value}
    (h : v.requireU16 colour site = .error e) :
    e = .unprintable ∨ Failure.RaisedAs colour .general (site.rejection v) e := by
  unfold Value.requireU16 at h
  split at h
  · cases h
  · cases h
    exact Failure.raise_build (site.rejection v)

theorem deserialize_raises {v : Value} (h : (Chain.deserialize colour v r).1 = .error e) :
    e = .unprintable ∨
      e.Names .general "chain" "chain.deserialize" [(Text.ofString "value", v)] := by
  have hname : Chain.operation "deserialize" = Text.ofString "chain.deserialize" := by decide
  rw [Chain.deserialize_eq] at h
  refine (requireU16_raises (eq_error_of_issue h)).imp_right fun hraised => ?_
  exact hraised.names rfl hname rfl

theorem reviveEntry_raises {keys : List Text} {key : Text} {v : Value}
    (h : (Chain.reviveEntry colour keys key v r).1 = .error e) :
    e = .unprintable ∨ e.Names .general "chain" "chain.revive" [(Text.ofString "value", v)] := by
  by_cases hkey : key ∈ keys
  · rw [Chain.reviveEntry_eq hkey] at h
    refine (requireU16_raises (eq_error_of_issue (eq_error_of_map h))).imp_right fun hraised => ?_
    exact hraised.names rfl Document.operation_revive rfl
  · rw [Chain.reviveEntry_of_not_mem hkey] at h
    cases h

/-- A tree can always be shown, also with chains in it. -/
theorem revive_raises (hr : r.Valid) {keys : List Text} {document : Text}
    (h : (Chain.revive colour keys document r).1 = .error e) :
    (Json.parse? document = none ∧ e = .malformed) ∨
      ∃ v, e.Names .general "chain" "chain.revive" [(Text.ofString "value", v)] := by
  cases ht : Json.parse? document with
  | none =>
    rw [Call.revive_malformed keys ht] at h
    exact Or.inl ⟨rfl, (Except.error.inj h).symm⟩
  | some t =>
    rw [Call.revive_apply hr keys ht] at h
    obtain ⟨before, p, rest, -, -, -, -, rfl⟩ := Document.outcome_eq_error h
    refine Or.inr ⟨_, (Document.raisedAs_refusal _ p).names rfl Document.operation_revive rfl⟩

/-! ### Texts -/

theorem parse_raises (hr : r.Valid) {s : Text} (h : (Chain.parse colour s r).1 = .error e) :
    e.Names (.invalidText s) "chain" "chain.parse" [(Text.ofString "input", .string s)] := by
  have hname : Chain.operation "parse" = Text.ofString "chain.parse" := by decide
  rw [Chain.parse_apply hr] at h
  have hparsed := eq_error_of_issue h
  unfold Chain.parsed at hparsed
  split at hparsed
  · cases hparsed
  · cases hparsed
    exact (Chain.raisedAs_unreadable colour s).names rfl hname rfl

theorem requireName_raises {s : Text} (h : Chain.requireName colour s = .error e) :
    e.Names .general "chain" "chain.name" [(Text.ofString "name", .string s)] := by
  have hname : Chain.operation "name" = Text.ofString "chain.name" := by decide
  have hraised : Failure.RaisedAs colour .general (Chain.nameRejection s)
      (Failure.reject colour (Chain.nameRejection s)) := by
    refine Failure.raisedAs_of_written rfl ⟨[], rfl⟩ ?_
    intro p hp
    rw [List.mem_singleton.1 hp]
    exact written_string s
  unfold Chain.requireName at h
  split at h
  · cases h
  · cases h
    exact hraised.names rfl hname rfl

/-! ### Bytes -/

theorem raisedAs_tooShort (colour : Colour) (x : Number) (length : Nat) :
    Failure.RaisedAs colour .general (Wire.tooShort (.number x) length)
      (Failure.reject colour (Wire.tooShort (.number x) length)) := by
  refine Failure.raisedAs_of_written rfl ⟨[], rfl⟩ ?_
  intro p hp
  rcases List.mem_pair.1 hp with rfl | rfl <;> exact written_number _

theorem decoded_raises {bytes : List UInt8} {v : Value} {endian : Wire.Endian} {x : Number}
    (hv : Wire.startAt v = .number x) (h : Wire.decoded colour bytes v endian = .error e) :
    e.Names .general "wire" "wire.decodeChain" [(Text.ofString "offset", .number x),
      (Text.ofString "length", .number (.ofInt bytes.length))] := by
  unfold Wire.decoded at h
  rw [hv] at h
  split at h
  · cases h
    exact (raisedAs_tooShort colour x bytes.length).names rfl rfl rfl
  · next o ho =>
    obtain ⟨n, hn⟩ := Wire.read?_isSome (Wire.le_length_of_offset? ho) endian
    rw [hn] at h
    cases h

theorem decode_raises {bytes : List UInt8} {v : Value} {endian : Wire.Endian} {x : Number}
    (hv : Wire.startAt v = .number x) (h : (Wire.decode colour bytes v endian r).1 = .error e) :
    e.Names .general "wire" "wire.decodeChain" [(Text.ofString "offset", .number x),
      (Text.ofString "length", .number (.ofInt bytes.length))] := by
  rw [Wire.decode_eq] at h
  exact decoded_raises hv (eq_error_of_issue h)

theorem raisedAs_malformedHex (colour : Colour) (hex : Text) (fault : HexFault) :
    Failure.RaisedAs colour .general (Wire.malformedHex hex fault)
      (Failure.reject colour (Wire.malformedHex hex fault)) := by
  refine Failure.raisedAs_of_written rfl ?_ ?_
  · exact Envelope.causeLines?_shapeCause colour fault.toValue
  · intro p hp
    rw [List.mem_singleton.1 hp]
    exact written_string hex

theorem raisedAs_wrongWidth (colour : Colour) (hex : Text) (length : Nat) :
    Failure.RaisedAs colour .general (Wire.wrongWidth hex length)
      (Failure.reject colour (Wire.wrongWidth hex length)) := by
  refine Failure.raisedAs_of_written rfl ⟨[], rfl⟩ ?_
  intro p hp
  rcases List.mem_pair.1 hp with rfl | rfl
  · exact written_string hex
  · exact written_number _

/-- Two bytes are decoded from their start, and there nothing can fail. -/
theorem decodeHex_raises {hex : Text} {endian : Wire.Endian}
    (h : (Wire.decodeHex colour hex endian r).1 = .error e) :
    ∃ rest, e.Names .general "wire" "wire.decodeChainHex"
      ((Text.ofString "hex", .string hex) :: rest) := by
  rw [Wire.decodeHex_eq] at h
  have hdecoded := eq_error_of_issue h
  unfold Wire.decodedHex at hdecoded
  split at hdecoded
  · next fault _ =>
    cases hdecoded
    exact ⟨[], (raisedAs_malformedHex colour hex fault).names rfl rfl rfl⟩
  · next bytes _ =>
    split at hdecoded
    · next hlength =>
      have hoffset : Wire.offset? bytes.length (Wire.startAt .undefined) = some 0 := by
        rw [hlength]
        decide
      obtain ⟨n, hn⟩ := Wire.read?_isSome (Wire.le_length_of_offset? hoffset) endian
      unfold Wire.decoded at hdecoded
      simp only [hoffset, hn] at hdecoded
      cases hdecoded
    · cases hdecoded
      exact ⟨_, (raisedAs_wrongWidth colour hex bytes.length).names rfl rfl rfl⟩

/-! ### All operations -/

/-- **Whatever an operation raises is a failure of its own.** It names that operation and carries
what the operation was given. Only a value that cannot be shown keeps its failure from being made,
and only a document that is no JSON is turned down as such. The names are all different, and none is
that of the operation that asks for a chain by its number. -/
theorem raised_by_own_operation (h : r.Reachable) (colour : Colour) :
    (∀ v e, (Chain.deserialize colour v r).1 = .error e →
      e = .unprintable ∨
        e.Names .general "chain" "chain.deserialize" [(Text.ofString "value", v)]) ∧
    (∀ keys key v e, (Chain.reviveEntry colour keys key v r).1 = .error e →
      e = .unprintable ∨ e.Names .general "chain" "chain.revive" [(Text.ofString "value", v)]) ∧
    (∀ keys document e, (Chain.revive colour keys document r).1 = .error e →
      (Json.parse? document = none ∧ e = .malformed) ∨
        ∃ v, e.Names .general "chain" "chain.revive" [(Text.ofString "value", v)]) ∧
    (∀ s e, (Chain.parse colour s r).1 = .error e →
      e.Names (.invalidText s) "chain" "chain.parse" [(Text.ofString "input", .string s)]) ∧
    (∀ s e, Chain.requireName colour s = .error e →
      e.Names .general "chain" "chain.name" [(Text.ofString "name", .string s)]) ∧
    (∀ bytes x endian e, (Wire.decode colour bytes (.number x) endian r).1 = .error e →
      e.Names .general "wire" "wire.decodeChain" [(Text.ofString "offset", .number x),
        (Text.ofString "length", .number (.ofInt bytes.length))]) ∧
    (∀ hex endian e, (Wire.decodeHex colour hex endian r).1 = .error e →
      ∃ rest, e.Names .general "wire" "wire.decodeChainHex"
        ((Text.ofString "hex", .string hex) :: rest)) ∧
    (["chain.fromU16", "chain.deserialize", "chain.revive", "chain.parse", "chain.name",
      "wire.decodeChain", "wire.decodeChainHex"].map Text.ofString).Nodup ∧
    Chain.numberSite.operation = Text.ofString "chain.fromU16" := by
  refine ⟨?_, ?_, ?_, ?_, ?_, ?_, ?_, by decide, by decide⟩
  · exact fun v e he => deserialize_raises he
  · exact fun keys key v e he => reviveEntry_raises he
  · exact fun keys document e he => revive_raises h.valid he
  · exact fun s e he => parse_raises h.valid he
  · exact fun s e he => requireName_raises he
  · exact fun bytes x endian e he => decode_raises rfl he
  · exact fun hex endian e he => decodeHex_raises he

/-- A text of one byte is turned down for its width before the byte is decoded. -/
theorem raised_by_own_operation_hex :
    Registry.initial.Reachable ∧
    ∃ e rest,
      (Wire.decodeHex .plain (Text.ofString "0x2a") .big .initial).1 = .error e ∧
      e.Names .general "wire" "wire.decodeChainHex"
        ((Text.ofString "hex", .string (Text.ofString "0x2a")) :: rest) := by
  have hraised : (Wire.decodeHex .plain (Text.ofString "0x2a") .big .initial).1 =
      .error (Failure.reject .plain (Wire.wrongWidth (Text.ofString "0x2a") 1)) := rfl
  obtain ⟨-, -, -, -, -, -, hhex, -⟩ := raised_by_own_operation .initial .plain
  obtain ⟨rest, hnames⟩ := hhex _ _ _ hraised
  exact ⟨.initial, _, rest, hraised, hnames⟩

end

end Interchain
