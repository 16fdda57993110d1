import Interchain.Proofs.Chain.Conversion
import Interchain.Proofs.Chain.Parse

/-! # Canonical texts

A chain has many texts, which differ in case, sign, leading zeros and brackets and in what follows
the number; and `Unknown` may be written with the number of a chain that has a kind of its own. The
normal form of a text is the text of the chain that it gives. It is always canonical
(`canonical_text`), and it spells the number of that chain, so reading it leads back to the chain.
Two texts have one normal form exactly if they give one chain (`parse_normalForm`).
-/

namespace Interchain.Chain

open Registry

variable {colour : Colour} {r r₁ : Registry} {s : Text} {c d : Chain} {n : Nat}

/-- The canonical texts: the names of two kinds, and the third one with a number in brackets, in
digits without a leading zero, that has no kind of its own. -/
inductive Canonical : Text → Prop
  | any : Canonical (Text.ofString "Any")
  | solana : Canonical (Text.ofString "Solana")
  | unknown {digits : Text} : (∀ u ∈ digits, Text.isDigit u = true) →
      digits.head? ≠ some (Text.unit '0') → 2 ≤ digits.digitsValue → digits.digitsValue ≤ 65535 →
      Canonical (Text.ofString "Unknown(" ++ digits ++ Text.ofString ")")

/-- The text of the chain that a text gives. -/
def normalForm (colour : Colour) (s : Text) : Action Text := text <$> parse colour s

/-! ### The text of a chain -/

theorem canonical_unknown (hn : 2 ≤ n) (hle : n ≤ 65535) :
    Canonical (Text.ofString "Unknown(" ++ Text.ofNat n ++ Text.ofString ")") := by
  have hread : (Text.ofNat n).digitsValue = n := Text.digitsValue_ofNat n
  refine .unknown ?_ ?_ ?_ ?_
  · intro u hu
    exact Text.isDigit_of_mem_ofNat hu
  · exact Text.head?_ofNat_ne_zero (by omega)
  · omega
  · omega

/-- **The text of a chain is canonical.** -/
theorem canonical_text (h : r.Valid) (hc : r.Issues c) : Canonical c.text := by
  obtain ⟨n, hn, hv⟩ := h.value_of_issues hc
  rw [text_eq (h.kind_of_issues hc) hv hn]
  by_cases h0 : n = 0
  · rw [if_pos h0]
    exact .any
  · by_cases h1 : n = 1
    · rw [if_neg h0, if_pos h1]
      exact .solana
    · rw [if_neg h0, if_neg h1]
      exact canonical_unknown (by omega) hn

/-- Reading the text of a chain leads back to the chain. -/
theorem parse_text (h : r.Valid) (hc : r.Issues c) (colour : Colour) :
    parse colour c.text r = (.ok c, r) := by
  rw [parse_apply h, Conversion.parsed_text h hc, h.issue_value hc]

/-- A text spells one number, so two chains with one text are the same object. -/
theorem text_eq_iff (h : r.Valid) (hc : r.Issues c) (hd : r.Issues d) :
    c.text = d.text ↔ c.same d = true := by
  rw [h.same_iff hc hd]
  constructor
  · intro htext
    have hcread : parsed .plain c.text = .ok c.value := Conversion.parsed_text h hc
    have hdread : parsed .plain d.text = .ok d.value := Conversion.parsed_text h hd
    rw [htext, hdread] at hcread
    exact (Except.ok.inj hcread).symm
  · intro hvalue
    rw [h.eq_of_value_eq hc hd hvalue]

/-! ### Normal forms -/

theorem issues_of_parse (h : r.Valid) (hs : parse colour s r = (.ok c, r₁)) :
    r₁.Issues c ∧ Grows r r₁ := by
  rw [parse_apply h] at hs
  cases hparsed : parsed colour s with
  | error e =>
    rw [hparsed] at hs
    cases hs
  | ok x =>
    rw [hparsed] at hs
    cases hs
    have hx := isU16_of_parsed hparsed
    exact ⟨issues_chainOf h hx, .single r hx⟩

theorem normalForm_of_parse (hs : parse colour s r = (.ok c, r₁)) :
    normalForm colour s r = (.ok c.text, r₁) := by
  rw [normalForm, Action.map_apply, hs]
  rfl

/-- **Every chain text has a normal form.** It is the text of the chain that the text gives, and it
is canonical. However much the registry has grown since, the normal form gives the chain itself and
issues none, and it is its own normal form. A second text has the same normal form exactly if it
gives the same object. -/
theorem parse_normalForm (h : r.Reachable) (colour : Colour) {s : Text} {c : Chain} {r₁ : Registry}
    (hs : parse colour s r = (.ok c, r₁)) :
    normalForm colour s r = (.ok c.text, r₁) ∧ Canonical c.text ∧
    ∀ r₂, Grows r₁ r₂ →
      parse colour c.text r₂ = (.ok c, r₂) ∧
      normalForm colour c.text r₂ = (.ok c.text, r₂) ∧
      ∀ t d r₃, parse colour t r₂ = (.ok d, r₃) → (c.text = d.text ↔ c.same d = true) := by
  obtain ⟨hissues, hgrows⟩ := issues_of_parse h.valid hs
  have hvalid₁ := h.valid.grows hgrows
  refine ⟨normalForm_of_parse hs, canonical_text hvalid₁ hissues, ?_⟩
  intro r₂ hlater
  have hvalid₂ := hvalid₁.grows hlater
  have hissues₂ := hlater.issues hvalid₁ hissues
  have hback : parse colour c.text r₂ = (.ok c, r₂) := parse_text hvalid₂ hissues₂ colour
  refine ⟨hback, normalForm_of_parse hback, ?_⟩
  intro t d r₃ ht
  obtain ⟨hissues₃, hgrows₃⟩ := issues_of_parse hvalid₂ ht
  exact text_eq_iff (hvalid₂.grows hgrows₃) (hgrows₃.issues hvalid₂ hissues₂) hissues₃

/-- Written as unknown, with a sign and zeros, this is the number of a chain with a kind of its own;
so the word in any case gives the same object. -/
theorem parse_normalForm_collapsed :
    Registry.initial.Reachable ∧
    ∃ c r₁, parse .plain (Text.ofString "UnKnown)+0001(x") .initial = (.ok c, r₁) ∧
      normalForm .plain (Text.ofString "UnKnown)+0001(x") .initial =
        (.ok (Text.ofString "Solana"), r₁) ∧
      parse .plain (Text.ofString "Solana") r₁ = (.ok c, r₁) ∧
      ∃ d r₂, parse .plain (Text.ofString "sOLANA") r₁ = (.ok d, r₂) ∧ c.same d = true := by
  have hreachable : Registry.initial.Reachable := .initial
  have hone : ∀ s, read? s = some 1 → parse .plain s .initial = (.ok Chain.solana, .initial) := by
    intro s hs
    rw [parse_apply hreachable.valid, parsed, hs]
    rfl
  have hfirst := hone (Text.ofString "UnKnown)+0001(x") (by decide)
  have hword := hone (Text.ofString "sOLANA") (by decide)
  obtain ⟨hnormal, -, hlater⟩ := parse_normalForm hreachable .plain hfirst
  obtain ⟨hback, -, hsame⟩ := hlater .initial (.refl _)
  exact ⟨hreachable, _, _, hfirst, hnormal, hback, _, _, hword, (hsame _ _ _ hword).1 rfl⟩

end Interchain.Chain
