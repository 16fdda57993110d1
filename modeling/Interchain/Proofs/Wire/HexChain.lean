import Interchain.Proofs.Failure.Attribution
import Interchain.Proofs.Wire.HexText
import Interchain.Proofs.Wire.Sequence

/-! # Hexadecimal texts of chains

A hexadecimal text gives a chain if it has exactly four digits behind the marker. Their value, in
the order of the frame, is the number of the chain, and the chain is written as the digits in lower
case (`decodeHex_digits`). Any other text is rejected, and the envelope says why: first comes an odd
number of units, then the first pair that is not two digits, and only then the number of bytes
(`decodeHex_classified`).
-/

namespace Interchain.Wire

open Failure (RaisedAs)

variable {colour : Colour} {r : Registry} {hex t : Text} {endian : Endian}

/-- The digits of two bytes from the more significant byte on. -/
def significantFirst : Endian → Text → Text
  | .big, t => t
  | .little, t => t.drop 2 ++ t.take 2

/-! ### Accepted texts -/

theorem eq_four_of_length (h : t.length = 4) : ∃ a b c d, t = [a, b, c, d] := by
  match t, h with
  | [a, b, c, d], _ => exact ⟨a, b, c, d, rfl⟩

/-- **The two bytes of four digits spell the value of the digits.** -/
theorem read?_digits {bytes : List UInt8} (hfour : t.length = 4) (hhex : ∀ u ∈ t, Text.IsHex u)
    (hbytes : bytesOfDigits 0 t = .ok bytes) (endian : Endian) :
    read? bytes 0 endian = some (Text.hexDigitsValue (significantFirst endian t)) := by
  obtain ⟨a, b, c, d, rfl⟩ := eq_four_of_length hfour
  obtain ⟨ha, hb, hc, hd⟩ :
      Text.IsHex a ∧ Text.IsHex b ∧ Text.IsHex c ∧ Text.IsHex d := by simpa using hhex
  obtain ⟨na, hna⟩ := Text.hexValue?_of_isHex ha
  obtain ⟨nb, hnb⟩ := Text.hexValue?_of_isHex hb
  obtain ⟨nc, hnc⟩ := Text.hexValue?_of_isHex hc
  obtain ⟨nd, hnd⟩ := Text.hexValue?_of_isHex hd
  have hna16 := (Text.hexDigit_of_hexValue? hna).1
  have hnb16 := (Text.hexDigit_of_hexValue? hnb).1
  have hnc16 := (Text.hexDigit_of_hexValue? hnc).1
  have hnd16 := (Text.hexDigit_of_hexValue? hnd).1
  have hab : (na * 16 + nb).toUInt8.toNat = na * 16 + nb :=
    UInt8.toNat_ofNat_of_lt (show _ < 256 by omega)
  have hcd : (nc * 16 + nd).toUInt8.toNat = nc * 16 + nd :=
    UInt8.toNat_ofNat_of_lt (show _ < 256 by omega)
  rw [bytesOfDigits_pair hna hnb, bytesOfDigits_pair hnc hnd] at hbytes
  cases hbytes
  cases endian with
  | big =>
    show some (_ * 256 + _) = some (Text.hexDigitsValue [a, b, c, d])
    rw [hab, hcd, Text.hexDigitsValue_four hna hnb hnc hnd]
  | little =>
    show some (_ * 256 + _) = some (Text.hexDigitsValue [c, d, a, b])
    rw [hab, hcd, Text.hexDigitsValue_four hnc hnd hna hnb]

/-- What four digits give: the chain of their value in the order of the frame, which is the one that
is given out for that number. -/
structure Decodes (colour : Colour) (endian : Endian) (t : Text) (r : Registry) (c : Chain)
    (r' : Registry) : Prop where
  value : c.value = .ofNat (Text.hexDigitsValue (significantFirst endian t))
  number : Chain.ofValue colour (.number c.value) r = (.ok c, r')
  /-- The chain is written as the digits in lower case. -/
  written : encodeHex endian c = Text.ofString "0x" ++ t.lower
  issues : r'.Issues c
  grows : Registry.Grows r r'

/-- **Four digits give the chain of their value.** -/
theorem decodeHex_digits (h : r.Valid) (colour : Colour) (hs : Stripped hex t)
    (hfour : t.length = 4) (hhex : ∀ u ∈ t, Text.IsHex u) (endian : Endian) :
    ∃ c r', decodeHex colour hex endian r = (.ok c, r') ∧ Decodes colour endian t r c r' := by
  have heven : t.length % 2 = 0 := by rw [hfour]
  obtain ⟨bytes, hbytes, hlength, hwritten⟩ := bytesOfHex_digits hs heven hhex
  have htwo : bytes.length = 2 := by omega
  have hread : read? bytes 0 endian = some (Text.hexDigitsValue (significantFirst endian t)) :=
    read?_digits hfour hhex ((bytesOfHex_even hs heven).symm.trans hbytes) endian
  have hnumber : (Number.ofNat (Text.hexDigitsValue (significantFirst endian t))).isU16 = true :=
    Number.isU16_ofNat.2 (read?_le hread)
  have hdecoded : decodedHex colour hex endian =
      .ok (.ofNat (Text.hexDigitsValue (significantFirst endian t))) := by
    have hoffset : offset? bytes.length (startAt .undefined) = some 0 := by
      rw [htwo]
      rfl
    have hframe : decoded colour bytes .undefined endian =
        .ok (.ofNat (Text.hexDigitsValue (significantFirst endian t))) := by
      simp only [decoded, hoffset, hread]
    rw [decodedHex, hbytes]
    exact (if_pos htwo).trans hframe
  have hvalue := (Registry.value_chainOf h hnumber).trans (Number.unsignZero_ofNat _)
  refine ⟨_, _, by rw [decodeHex_eq, hdecoded]; rfl, hvalue, ?_, ?_,
    Registry.issues_chainOf h hnumber, .single r hnumber⟩
  · rw [hvalue, Chain.ofValue_eq, Value.requireU16_eq_ok.2 ⟨rfl, hnumber⟩]
    rfl
  · obtain ⟨first, second, rfl⟩ := List.length_eq_two.1 htwo
    rw [encodeHex, encode_read? (by omega) hread hvalue]
    exact hwritten

/-- Chains that are decoded in one order are the same object if their texts have the same digits. -/
theorem same_iff_lower (h : r.Valid) {c d : Chain} (hc : r.Issues c) (hd : r.Issues d)
    {t' : Text} (hct : encodeHex endian c = Text.ofString "0x" ++ t.lower)
    (hdt : encodeHex endian d = Text.ofString "0x" ++ t'.lower) :
    c.same d = true ↔ t.lower = t'.lower := by
  rw [h.same_iff hc hd]
  constructor
  · intro hvalue
    rw [h.eq_of_value_eq hc hd hvalue, hdt] at hct
    exact (List.append_cancel_left hct).symm
  · intro hlower
    obtain ⟨m, hm, hcm⟩ := h.value_of_issues hc
    obtain ⟨n, hn, hdn⟩ := h.value_of_issues hd
    have hcread : decodedHex .plain (encodeHex endian c) endian = .ok c.value :=
      decodedHex_encodeHex hcm hm endian
    have hdread : decodedHex .plain (encodeHex endian d) endian = .ok d.value :=
      decodedHex_encodeHex hdn hn endian
    rw [hct, hlower, ← hdt, hdread] at hcread
    exact (Except.ok.inj hcread).symm

/-! ### Rejected texts -/

/-- The whole envelope of a rejected text. -/
def rejectedHex (hex : Text) (message : String) (length : Fields Value) (cause : Value) :
    Envelope Value :=
  ⟨Text.ofString "wire", Text.ofString "wire.decodeChainHex", Text.ofString "VALIDATION",
    Text.ofString message, some ((Text.ofString "hex", .string hex) :: length), cause⟩

/-- The cause that a fault in the digits leaves: its name and its message, and no code. -/
def faultCause (message : Text) : Value :=
  .object [(Text.ofString "name", .string (Text.ofString "Error")),
    (Text.ofString "message", .string message), (Text.ofString "code", .undefined)]

theorem decodeHex_of_fault {fault : HexFault} (h : bytesOfHex hex = .error fault) :
    ∃ e, decodeHex colour hex endian r = (.error e, r) ∧
      RaisedAs colour .general
        (rejectedHex hex "Malformed hex for chain id." [] (faultCause fault.message)) e := by
  refine ⟨_, ?_, raisedAs_malformedHex colour hex fault⟩
  rw [decodeHex_eq, decodedHex, h]
  rfl

theorem decodeHex_of_length {bytes : List UInt8} (h : bytesOfHex hex = .ok bytes)
    (hlength : bytes.length ≠ 2) :
    ∃ e, decodeHex colour hex endian r = (.error e, r) ∧
      RaisedAs colour .general (rejectedHex hex "Expected exactly 2 bytes for a chain id."
        [(Text.ofString "length", .number (.ofNat bytes.length))] .undefined) e := by
  have henvelope : wrongWidth hex bytes.length =
      rejectedHex hex "Expected exactly 2 bytes for a chain id."
        [(Text.ofString "length", .number (.ofNat bytes.length))] .undefined := by
    rw [wrongWidth, Number.ofInt_natCast]
    rfl
  have hdecoded : decodedHex colour hex endian =
      .error (Failure.reject colour (wrongWidth hex bytes.length)) := by
    rw [decodedHex, h]
    exact if_neg hlength
  refine ⟨_, ?_, henvelope ▸ raisedAs_wrongWidth colour hex bytes.length⟩
  rw [decodeHex_eq, hdecoded]
  rfl

/-- What is raised for a text whose digits are these units. -/
structure RejectedFor (colour : Colour) (hex t : Text) (e : Raised) : Prop where
  /-- An odd number of units is reported whatever the units are. -/
  length : t.length % 2 = 1 →
    RaisedAs colour .general (rejectedHex hex "Malformed hex for chain id." []
      (faultCause (Text.ofString "hex string expected, got unpadded hex of length "
        ++ Text.ofNat t.length))) e
  /-- Where units are missing from the digits, the first pair without two digits is reported. -/
  digits : t.length % 2 = 0 → (∃ u ∈ t, ¬Text.IsHex u) →
    ∃ i u v, FirstBadPair t i u v ∧
      RaisedAs colour .general (rejectedHex hex "Malformed hex for chain id." []
        (faultCause (Text.ofString "hex string expected, got non-hex character \"" ++ [u, v]
          ++ Text.ofString "\" at index " ++ Text.ofNat i))) e
  /-- Digits alone are reported with the number of bytes that they spell. -/
  width : t.length % 2 = 0 → (∀ u ∈ t, Text.IsHex u) →
    RaisedAs colour .general (rejectedHex hex "Expected exactly 2 bytes for a chain id."
      [(Text.ofString "length", .number (.ofNat (t.length / 2)))] .undefined) e

theorem decodeHex_rejected (hs : Stripped hex t)
    (hno : ¬(t.length = 4 ∧ ∀ u ∈ t, Text.IsHex u)) (colour : Colour) (endian : Endian) :
    ∃ e, decodeHex colour hex endian r = (.error e, r) ∧ RejectedFor colour hex t e := by
  by_cases hodd : t.length % 2 = 1
  · obtain ⟨e, he, hraised⟩ := decodeHex_of_fault (bytesOfHex_odd hs hodd)
    exact ⟨e, he, fun _ => hraised, fun heven => by omega, fun heven => by omega⟩
  · have heven : t.length % 2 = 0 := by omega
    by_cases hhex : ∀ u ∈ t, Text.IsHex u
    · obtain ⟨bytes, hbytes, hlength, -⟩ := bytesOfHex_digits hs heven hhex
      have hwidth : bytes.length = t.length / 2 := by omega
      have hnot : bytes.length ≠ 2 := fun htwo => hno ⟨by omega, hhex⟩
      obtain ⟨e, he, hraised⟩ := decodeHex_of_length hbytes hnot
      rw [hwidth] at hraised
      refine ⟨e, he, fun h => absurd h hodd, ?_, fun _ _ => hraised⟩
      rintro - ⟨u, hu, hbad⟩
      exact absurd (hhex u hu) hbad
    · have hbad : ∃ u ∈ t, ¬Text.IsHex u := by simpa using hhex
      obtain ⟨i, u, v, hfirst, hfault⟩ := bytesOfHex_badPair hs heven hbad
      obtain ⟨e, he, hraised⟩ := decodeHex_of_fault hfault
      exact ⟨e, he, fun h => absurd h hodd, fun _ _ => ⟨i, u, v, hfirst, hraised⟩,
        fun _ h => absurd h hhex⟩

/-! ### All texts -/

theorem digits_of_decodeHex (hs : Stripped hex t) {c : Chain} {r' : Registry}
    (h : decodeHex colour hex endian r = (.ok c, r')) :
    t.length = 4 ∧ ∀ u ∈ t, Text.IsHex u := by
  by_contra hno
  obtain ⟨e, he, -⟩ := decodeHex_rejected hs hno colour endian
  rw [he] at h
  cases h

theorem decodes_of_decodeHex (h : r.Valid) (hs : Stripped hex t) {c : Chain} {r' : Registry}
    (hc : decodeHex colour hex endian r = (.ok c, r')) : Decodes colour endian t r c r' := by
  obtain ⟨hfour, hhex⟩ := digits_of_decodeHex hs hc
  obtain ⟨d, r₁, hd, hdecodes⟩ := decodeHex_digits h colour hs hfour hhex endian
  rw [hd] at hc
  cases hc
  exact hdecodes

/-- **Every hexadecimal text is classified.** Behind the marker a text of exactly four digits gives
the chain of their value in the order of the frame, and two texts give the same object in one order
if their digits differ in case at most, however much the registry has grown in between. Any other
text is rejected, for the first of the reasons that applies to it, and nothing is issued. -/
theorem decodeHex_classified (h : r.Reachable) (colour : Colour) (hex : Text) (endian : Endian) :
    ∃ t, Stripped hex t ∧
      ((∃ c r', decodeHex colour hex endian r = (.ok c, r')) ↔
        t.length = 4 ∧ ∀ u ∈ t, Text.IsHex u) ∧
      (∀ c r', decodeHex colour hex endian r = (.ok c, r') →
        Decodes colour endian t r c r' ∧
        ∀ r₁, Registry.Grows r' r₁ → ∀ hex' t' d r₂, Stripped hex' t' →
          decodeHex colour hex' endian r₁ = (.ok d, r₂) → (c.same d = true ↔ t.lower = t'.lower)) ∧
      (¬(t.length = 4 ∧ ∀ u ∈ t, Text.IsHex u) →
        ∃ e, decodeHex colour hex endian r = (.error e, r) ∧ RejectedFor colour hex t e) := by
  obtain ⟨t, hs⟩ := exists_stripped hex
  refine ⟨t, hs, ⟨?_, ?_⟩, ?_, fun hno => decodeHex_rejected hs hno colour endian⟩
  · rintro ⟨c, r', hc⟩
    exact digits_of_decodeHex hs hc
  · rintro ⟨hfour, hhex⟩
    obtain ⟨c, r', hc, -⟩ := decodeHex_digits h.valid colour hs hfour hhex endian
    exact ⟨c, r', hc⟩
  · intro c r' hc
    have hdecodes := decodes_of_decodeHex h.valid hs hc
    refine ⟨hdecodes, ?_⟩
    intro r₁ hgrows hex' t' d r₂ hs' hd
    have hvalid' := h.valid.grows hdecodes.grows
    have hvalid₁ := hvalid'.grows hgrows
    have hdecodes' := decodes_of_decodeHex hvalid₁ hs' hd
    exact same_iff_lower (hvalid₁.grows hdecodes'.grows)
      (hdecodes'.grows.issues hvalid₁ (hgrows.issues hvalid' hdecodes.issues)) hdecodes'.issues
      hdecodes.written hdecodes'.written

/-- Two spellings of one chain with the less significant byte first, and a text whose second marker
is no pair of digits. -/
theorem decodeHex_classified_spellings :
    Registry.initial.Reachable ∧
    (∃ c r' d r₁, decodeHex .plain (Text.ofString "0X2aFf") .little .initial = (.ok c, r') ∧
      c.value = .ofNat 0xFF2A ∧
      decodeHex .plain (Text.ofString "2AfF") .little r' = (.ok d, r₁) ∧ c.same d = true) ∧
    ∃ e, decodeHex .plain (Text.ofString "0x0x2g") .big .initial = (.error e, .initial) ∧
      RejectedFor .plain (Text.ofString "0x0x2g") (Text.ofString "0x2g") e := by
  have hreachable : Registry.initial.Reachable := .initial
  refine ⟨hreachable, ?_, ?_⟩
  · obtain ⟨t, hs, hok, hdecoded, -⟩ :=
      decodeHex_classified hreachable .plain (Text.ofString "0X2aFf") .little
    have ht : t = Text.ofString "2aFf" := hs.stripMarker_eq.symm
    have hdigits : ∀ u ∈ t, Text.IsHex u := Text.isHex_of_all (by rw [ht]; decide)
    obtain ⟨c, r', hc⟩ := hok.2 ⟨by rw [ht]; rfl, hdigits⟩
    obtain ⟨hdecodes, hsame⟩ := hdecoded c r' hc
    have hs' : Stripped (Text.ofString "2AfF") (Text.ofString "2AfF") :=
      .bare (by decide) (by decide)
    obtain ⟨d, r₁, hd, -⟩ :=
      decodeHex_digits (hreachable.valid.grows hdecodes.grows) .plain hs' rfl
        (Text.isHex_of_all (by decide)) .little
    have hvalue : c.value = .ofNat 0xFF2A := by
      rw [hdecodes.value, ht]
      rfl
    exact ⟨c, r', d, r₁, hc, hvalue, hd, (hsame r' (.refl r') _ _ d r₁ hs' hd).2 (ht ▸ by decide)⟩
  · obtain ⟨t, hs, -, -, hno⟩ :=
      decodeHex_classified hreachable .plain (Text.ofString "0x0x2g") .big
    have ht : t = Text.ofString "0x2g" := hs.stripMarker_eq.symm
    rw [ht] at hno
    exact hno fun h => absurd (h.2 (Text.unit 'x') (by decide)) (by decide)

end Interchain.Wire
