import Interchain.Proofs.Chain.Rejection
import Interchain.Proofs.Chain.Spelling
import Interchain.Proofs.Failure.Attribution

/-! # Names of chains

A name can be asked for in several ways: whether it is one, what its number is, which chain it
stands for, and what name a chain has. Each way looks elsewhere: into the table of names, into the
table the other way round, or at the kind of a chain; and a name is also a chain text, which is read
without a look at either table. `Named` says which texts name which chains. The table of names holds
just these (`get?_names`), the other table gives them back (`name?_eq_some_iff`), the chains with a
kind of their own are those that have a name (`isKnown_iff`), and each of them spells its number.
-/

namespace Interchain.Chain

open Registry

/-- The chains that have names, which are there from the start. -/
inductive Named : Text → Chain → Prop
  | any : Named (Text.ofString "any") any
  | solana : Named (Text.ofString "solana") solana

variable {colour : Colour} {r : Registry} {s t : Text} {c d : Chain}

/-! ### The tables -/

theorem get?_names {x : Number} : Fields.get? s names = some x ↔ ∃ c, Named s c ∧ x = c.value := by
  constructor
  · intro h
    have hmem : (s, x) ∈ names := by
      rw [Fields.get?, List.lookup_eq_some_iff] at h
      obtain ⟨before, after, hsplit, -⟩ := h
      rw [hsplit]
      simp
    rcases List.mem_pair.1 hmem with he | he <;> cases he
    · exact ⟨_, .any, rfl⟩
    · exact ⟨_, .solana, rfl⟩
  · rintro ⟨c, hnamed, rfl⟩
    cases hnamed <;> rfl

theorem isName_iff : isName s = true ↔ ∃ c, Named s c := by
  rw [isName, Fields.has, Option.isSome_iff_exists]
  simp only [get?_names]
  constructor
  · rintro ⟨x, c, hnamed, -⟩
    exact ⟨c, hnamed⟩
  · rintro ⟨c, hnamed⟩
    exact ⟨c.value, c, hnamed, rfl⟩

theorem numberOfName_of_named (h : Named s c) : numberOfName s = .number c.value := by
  rw [numberOfName, get?_names.2 ⟨c, h, rfl⟩]

theorem numberOfName_of_not_isName (h : ¬isName s = true) : numberOfName s = .undefined := by
  have hnone : Fields.get? s names = none := by
    cases hget : Fields.get? s names with
    | none => rfl
    | some x =>
      obtain ⟨c, hnamed, -⟩ := get?_names.1 hget
      exact absurd (isName_iff.2 ⟨c, hnamed⟩) h
  rw [numberOfName, hnone]

/-! ### Named chains -/

namespace Named

theorem issues (h : Named s c) (hr : r.Valid) : r.Issues c := by
  cases h with
  | any => exact hr.issues_any
  | solana => exact hr.issues_solana

theorem isKnown (h : Named s c) : c.isKnown = true := by cases h <;> rfl

theorem name?_eq (h : Named s c) : c.name? = some s := by cases h <;> rfl

/-- A name stands for one number, so for one chain. -/
theorem unique (h : Named s c) (h' : Named s d) : c = d := by
  have hnumber : Value.number c.value = .number d.value := by
    rw [← numberOfName_of_named h, ← numberOfName_of_named h']
  apply valid_initial.eq_of_value_eq (h.issues valid_initial) (h'.issues valid_initial)
  exact Value.number.inj hnumber

/-- A name is a text of its chain, in lower case. -/
theorem parsed_eq (h : Named s c) (colour : Colour) : parsed colour s = .ok c.value := by
  cases h <;> rfl

end Named

/-- **The inverse table gives the names back.** -/
theorem name?_eq_some_iff (h : r.Valid) (hc : r.Issues c) : c.name? = some s ↔ Named s c := by
  constructor
  · intro hname
    obtain ⟨n, -, hvalue⟩ := h.value_of_issues hc
    have hnumber := numberOfName_of_name? hvalue hname
    rw [numberOfName] at hnumber
    split at hnumber
    · next x hget =>
      obtain ⟨d, hnamed, rfl⟩ := get?_names.1 hget
      -- The registry has one chain under this number, and the table has its name.
      have hsame : d = c := h.eq_of_value_eq (hnamed.issues h) hc (Value.number.inj hnumber)
      rwa [← hsame]
    · cases hnumber
  · exact Named.name?_eq

/-- **The chains with a kind of their own are those with a name.** -/
theorem isKnown_iff (h : r.Valid) (hc : r.Issues c) : c.isKnown = true ↔ ∃ s, Named s c := by
  constructor
  · intro hknown
    have hkind := h.kind_of_issues hc
    rw [Kind.ofNumber] at hkind
    by_cases h0 : c.value = .ofNat 0
    · have hany : c = any := h.eq_of_value_eq hc h.issues_any h0
      exact ⟨_, hany ▸ Named.any⟩
    · by_cases h1 : c.value = .ofNat 1
      · have hsolana : c = solana := h.eq_of_value_eq hc h.issues_solana h1
        exact ⟨_, hsolana ▸ Named.solana⟩
      · rw [if_neg h0, if_neg h1] at hkind
        rw [Chain.isKnown, hkind] at hknown
        cases hknown
  · rintro ⟨s, hnamed⟩
    exact hnamed.isKnown

/-! ### Looking up a name -/

theorem ofName_of_named (h : r.Valid) (hs : Named s c) (colour : Colour) :
    ofName colour s r = (.ok c, r) := by
  have hc := hs.issues h
  rw [ofName, numberOfName_of_named hs, ofValue_eq, h.requireU16_value hc, h.issue_value hc]

theorem parse_of_named (h : r.Valid) (hs : Named s c) (colour : Colour) :
    parse colour s r = (.ok c, r) := by
  rw [parse_apply h, hs.parsed_eq, h.issue_value (hs.issues h)]

/-- A text that is no name has no number, and nothing that has no number has a chain. -/
theorem ofName_of_not_isName (h : ¬isName s = true) (colour : Colour) (r : Registry) :
    ∃ e context, ofName colour s r = (.error e, r) ∧
      e.Names .general "chain" "chain.fromU16" context := by
  have hname : operation "fromU16" = Text.ofString "chain.fromU16" := by decide
  have hshown : ¬Value.undefined.Unshowable := by
    rintro ⟨⟨shape, hmeets⟩, -⟩
    cases hmeets
  have hraised := (rejectedAs_reject colour numberSite .undefined).failure hshown
  refine ⟨_, _, ?_, hraised.names rfl hname rfl⟩
  rw [ofName, numberOfName_of_not_isName h, ofValue_eq, requireU16_rejected rfl]
  rfl

theorem requireName_eq_ok_iff : requireName colour s = .ok () ↔ isName s = true := by
  unfold requireName
  split
  · next hname => exact iff_of_true rfl hname
  · next hname => exact iff_of_false nofun hname

theorem requireName_of_not_isName (h : ¬isName s = true) (colour : Colour) :
    ∃ e, requireName colour s = .error e ∧
      e.Names .general "chain" "chain.name" [(Text.ofString "name", .string s)] := by
  cases hrequire : requireName colour s with
  | ok u => exact absurd (requireName_eq_ok_iff.1 hrequire) h
  | error e => exact ⟨e, rfl, requireName_raises hrequire⟩

theorem ofName_ok_iff (h : r.Valid) : (∃ c, (ofName colour s r).1 = .ok c) ↔ isName s = true := by
  by_cases hs : isName s = true
  · obtain ⟨c, hnamed⟩ := isName_iff.1 hs
    rw [ofName_of_named h hnamed]
    exact iff_of_true ⟨c, rfl⟩ hs
  · obtain ⟨e, context, he, -⟩ := ofName_of_not_isName hs colour r
    rw [he]
    refine iff_of_false ?_ hs
    rintro ⟨c, hc⟩
    cases hc

/-- **All ways to look up a name agree.** For every text, whether it is a name, whether it is let
through where a name is required, and whether the two calls that take a name give a chain, are the
same question. A name stands for one chain, in every registry that can be reached: both calls give
it, and so does reading the name as a chain text; it has a kind of its own, and the name is its
name. A text that is no name raises a failure that carries it where a name is required, and both
calls fail and issue nothing. A chain has a name exactly if it has a kind of its own, and no two
chains have the same name. -/
theorem names_agree (h : r.Reachable) (colour : Colour) (s : Text) :
    (requireName colour s = .ok () ↔ isName s = true) ∧
    ((∃ c, (ofName colour s r).1 = .ok c) ↔ isName s = true) ∧
    ((∃ c, (coalesce colour (.string s) r).1 = .ok c) ↔ isName s = true) ∧
    (isName s = true → ∃ c, c.isKnown = true ∧ c.name? = some s ∧
      ∀ r', r'.Reachable → r'.Issues c ∧ ofName colour s r' = (.ok c, r') ∧
        coalesce colour (.string s) r' = (.ok c, r') ∧ parse colour s r' = (.ok c, r')) ∧
    (¬isName s = true →
      (∃ e, requireName colour s = .error e ∧
        e.Names .general "chain" "chain.name" [(Text.ofString "name", .string s)]) ∧
      ∃ e context, ofName colour s r = (.error e, r) ∧
        coalesce colour (.string s) r = (.error e, r) ∧
        e.Names .general "chain" "chain.fromU16" context) ∧
    (∀ c, r.Issues c → ((∃ t, c.name? = some t) ↔ c.isKnown = true)) ∧
    ∀ c d t, r.Issues c → r.Issues d → c.name? = some t → d.name? = some t → c = d := by
  refine ⟨requireName_eq_ok_iff, ofName_ok_iff h.valid, ofName_ok_iff h.valid, ?_, ?_, ?_, ?_⟩
  · intro hs
    obtain ⟨c, hnamed⟩ := isName_iff.1 hs
    refine ⟨c, hnamed.isKnown, hnamed.name?_eq, ?_⟩
    intro r' h'
    have hgiven := ofName_of_named h'.valid hnamed colour
    exact ⟨hnamed.issues h'.valid, hgiven, hgiven, parse_of_named h'.valid hnamed colour⟩
  · intro hs
    obtain ⟨e, context, he, hnames⟩ := ofName_of_not_isName hs colour r
    exact ⟨requireName_of_not_isName hs colour, e, context, he, he, hnames⟩
  · intro c hc
    rw [isKnown_iff h.valid hc]
    simp only [name?_eq_some_iff h.valid hc]
  · intro c d t hc hd hcname hdname
    have hnamed := (name?_eq_some_iff h.valid hc).1 hcname
    exact hnamed.unique ((name?_eq_some_iff h.valid hd).1 hdname)

/-- One letter in upper case, and the text is no name, though it still spells the number. -/
theorem names_agree_solana :
    Registry.withSeven.Reachable ∧ isName (Text.ofString "solana") = true ∧
    ofName .plain (Text.ofString "solana") .withSeven = (.ok solana, .withSeven) ∧
    parse .plain (Text.ofString "solana") .withSeven = (.ok solana, .withSeven) ∧
    ¬isName (Text.ofString "Solana") = true ∧
    ∃ e, requireName .plain (Text.ofString "Solana") = .error e ∧
      e.Names .general "chain" "chain.name"
        [(Text.ofString "name", .string (Text.ofString "Solana"))] := by
  have hreachable : Registry.withSeven.Reachable := Registry.Reachable.initial.call _ _
  have hname : isName (Text.ofString "solana") = true := by decide
  have hno : ¬isName (Text.ofString "Solana") = true := by decide
  obtain ⟨-, -, -, hgiven, -, -, hunique⟩ :=
    names_agree hreachable .plain (Text.ofString "solana")
  obtain ⟨c, -, hc, hcalls⟩ := hgiven hname
  obtain ⟨hissues, hofName, -, hparse⟩ := hcalls _ hreachable
  have hsolana : c = solana := hunique c solana _ hissues hreachable.valid.issues_solana hc rfl
  rw [hsolana] at hofName hparse
  obtain ⟨-, -, -, -, hrefused, -, -⟩ := names_agree hreachable .plain (Text.ofString "Solana")
  exact ⟨hreachable, hname, hofName, hparse, hno, (hrefused hno).1⟩

end Interchain.Chain
