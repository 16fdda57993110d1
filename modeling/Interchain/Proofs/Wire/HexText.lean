import Interchain.Proofs.Text.Hexadecimal
import Interchain.Proofs.Wire.Hex

/-! # Which texts spell bytes

A text spells bytes if it has, behind the marker, an even number of hexadecimal digits and nothing
else. Then the bytes are written as these digits in lower case (`bytesOfHex_digits`). An odd number
of units is a fault whatever they are (`bytesOfHex_odd`), and in an even number of them the fault is
the first pair that is not two digits (`bytesOfHex_badPair`). Reading takes two units at a time, and
so do the inductions. Together with the written bytes, which are all read back, this says that
reading and writing are inverse to each other on exactly the texts of bytes (`bytesOfHex_inverse`).
-/

namespace Interchain.Wire

variable {hex t : Text} {u v a b : UInt16} {i : Nat}

/-! ### The marker -/

/-- A text and what is left of it without its leading `0x` or `0X`. -/
inductive Stripped : Text → Text → Prop
  | lower (t : Text) : Stripped (Text.ofString "0x" ++ t) t
  | upper (t : Text) : Stripped (Text.ofString "0X" ++ t) t
  | bare {t : Text} : ¬Text.ofString "0x" <+: t → ¬Text.ofString "0X" <+: t → Stripped t t

theorem exists_stripped (hex : Text) : ∃ t, Stripped hex t := by
  by_cases hlower : Text.ofString "0x" <+: hex
  · obtain ⟨t, rfl⟩ := hlower
    exact ⟨t, .lower t⟩
  · by_cases hupper : Text.ofString "0X" <+: hex
    · obtain ⟨t, rfl⟩ := hupper
      exact ⟨t, .upper t⟩
    · exact ⟨hex, .bare hlower hupper⟩

theorem Stripped.stripMarker_eq (h : Stripped hex t) : stripMarker hex = t := by
  cases h with
  | lower t => exact stripMarker_marker t
  | upper t =>
    have hmarked : (Text.ofString "0X").isPrefixOf (Text.ofString "0X" ++ t) = true :=
      List.isPrefixOf_iff_prefix.2 (List.prefix_append _ _)
    unfold stripMarker
    rw [hmarked, Bool.or_true]
    rfl
  | bare hlower hupper =>
    have hbare : ¬(marker.isPrefixOf hex || (Text.ofString "0X").isPrefixOf hex) = true := by
      rw [Bool.or_eq_true, List.isPrefixOf_iff_prefix, List.isPrefixOf_iff_prefix]
      exact not_or.2 ⟨hlower, hupper⟩
    unfold stripMarker
    rw [if_neg hbare]

/-! ### Pairs of digits -/

/-- At an even place of a text stand two units that are not both digits. -/
structure BadPair (t : Text) (i : Nat) (u v : UInt16) : Prop where
  even : i % 2 = 0
  first : t[i]? = some u
  second : t[i + 1]? = some v
  bad : ¬(Text.IsHex u ∧ Text.IsHex v)

/-- The bad pair at the least place. -/
def FirstBadPair (t : Text) (i : Nat) (u v : UInt16) : Prop :=
  BadPair t i u v ∧ ∀ j u' v', BadPair t j u' v' → i ≤ j

theorem firstBadPair_here (h : ¬(Text.IsHex a ∧ Text.IsHex b)) (rest : Text) :
    FirstBadPair (a :: b :: rest) 0 a b :=
  ⟨⟨rfl, rfl, rfl, h⟩, fun j _ _ _ => Nat.zero_le j⟩

/-- Two digits in front put the first bad pair off by their length. -/
theorem FirstBadPair.behind (ha : Text.IsHex a) (hb : Text.IsHex b) (h : FirstBadPair t i u v) :
    FirstBadPair (a :: b :: t) (i + 2) u v := by
  obtain ⟨⟨heven, hfirst, hsecond, hbad⟩, hleast⟩ := h
  refine ⟨⟨by omega, hfirst, hsecond, hbad⟩, ?_⟩
  intro j u' v' hj
  obtain ⟨heven', hfirst', hsecond', hbad'⟩ := hj
  match j with
  | 0 =>
    cases hfirst'
    cases hsecond'
    exact absurd ⟨ha, hb⟩ hbad'
  | 1 => cases heven'
  | j + 2 =>
    have hle : i ≤ j := hleast j u' v' ⟨by omega, hfirst', hsecond', hbad'⟩
    omega

/-- A byte of two values is written as the digits of these values. -/
theorem hexOfByte_halves {h l : Nat} (hh : h < 16) (hl : l < 16) :
    hexOfByte (h * 16 + l).toUInt8 = [Text.hexDigit h, Text.hexDigit l] := by
  have hlt : h * 16 + l < 256 := by omega
  have hbyte : (h * 16 + l).toUInt8.toNat = h * 16 + l := UInt8.toNat_ofNat_of_lt hlt
  have hhigh : (h * 16 + l) / 16 = h := by omega
  have hlow : (h * 16 + l) % 16 = l := by omega
  rw [hexOfByte, hbyte, hhigh, hlow]

theorem bytesOfDigits_pair {h l : Nat} (ha : Text.hexValue? a = some h)
    (hb : Text.hexValue? b = some l) (index : Nat) (rest : Text) :
    bytesOfDigits index (a :: b :: rest) =
      (bytesOfDigits (index + 2) rest).map ((h * 16 + l).toUInt8 :: ·) := by
  rw [bytesOfDigits, ha, hb]

theorem bytesOfDigits_of_bad (h : ¬(Text.IsHex a ∧ Text.IsHex b)) (index : Nat) (rest : Text) :
    bytesOfDigits index (a :: b :: rest) = .error (.badPair a b index) := by
  rw [bytesOfDigits]
  by_cases ha : Text.IsHex a
  · rw [Text.hexValue?_of_not_isHex fun hb => h ⟨ha, hb⟩]
    cases Text.hexValue? a <;> rfl
  · rw [Text.hexValue?_of_not_isHex ha]

/-- **Pairs of digits are read as bytes**, and the bytes are written as the digits in lower case. -/
theorem bytesOfDigits_digits : ∀ (t : Text) (index : Nat), t.length % 2 = 0 →
    (∀ u ∈ t, Text.IsHex u) →
      ∃ bytes, bytesOfDigits index t = .ok bytes ∧ bytes.flatMap hexOfByte = t.lower
  | [], _, _, _ => ⟨[], rfl, rfl⟩
  | [_], _, heven, _ => absurd heven (by simp)
  | a :: b :: rest, index, heven, hhex => by
    obtain ⟨ha, hb, hrest⟩ : Text.IsHex a ∧ Text.IsHex b ∧ ∀ u ∈ rest, Text.IsHex u := by
      simpa using hhex
    have heven' : rest.length % 2 = 0 := by
      simp only [List.length_cons] at heven
      omega
    obtain ⟨h, hh⟩ := Text.hexValue?_of_isHex ha
    obtain ⟨l, hl⟩ := Text.hexValue?_of_isHex hb
    obtain ⟨hh16, hha⟩ := Text.hexDigit_of_hexValue? hh
    obtain ⟨hl16, hlb⟩ := Text.hexDigit_of_hexValue? hl
    obtain ⟨bytes, hread, hwritten⟩ := bytesOfDigits_digits rest (index + 2) heven' hrest
    refine ⟨(h * 16 + l).toUInt8 :: bytes, ?_, ?_⟩
    · rw [bytesOfDigits_pair hh hl, hread]
      rfl
    · rw [List.flatMap_cons, hexOfByte_halves hh16 hl16, hwritten, hha, hlb]
      rfl

/-- **The first bad pair is reported.** -/
theorem bytesOfDigits_badPair : ∀ (t : Text) (index : Nat), t.length % 2 = 0 →
    (∃ u ∈ t, ¬Text.IsHex u) →
      ∃ i u v, FirstBadPair t i u v ∧ bytesOfDigits index t = .error (.badPair u v (index + i))
  | [], _, _, hbad => by
    obtain ⟨u, hu, -⟩ := hbad
    cases hu
  | [_], _, heven, _ => absurd heven (by simp)
  | a :: b :: rest, index, heven, hbad => by
    by_cases hpair : Text.IsHex a ∧ Text.IsHex b
    · obtain ⟨ha, hb⟩ := hpair
      have heven' : rest.length % 2 = 0 := by
        simp only [List.length_cons] at heven
        omega
      have hrest : ∃ u ∈ rest, ¬Text.IsHex u := by
        obtain ⟨u, hu, hnot⟩ := hbad
        rcases List.mem_cons.1 hu with rfl | hu
        · exact absurd ha hnot
        · rcases List.mem_cons.1 hu with rfl | hu
          · exact absurd hb hnot
          · exact ⟨u, hu, hnot⟩
      obtain ⟨h, hh⟩ := Text.hexValue?_of_isHex ha
      obtain ⟨l, hl⟩ := Text.hexValue?_of_isHex hb
      obtain ⟨i, u, v, hfirst, hread⟩ := bytesOfDigits_badPair rest (index + 2) heven' hrest
      refine ⟨i + 2, u, v, hfirst.behind ha hb, ?_⟩
      rw [bytesOfDigits_pair hh hl, hread, show index + 2 + i = index + (i + 2) by omega]
      rfl
    · exact ⟨0, a, b, firstBadPair_here hpair rest, bytesOfDigits_of_bad hpair index rest⟩

/-! ### Texts -/

theorem bytesOfHex_odd (h : Stripped hex t) (hodd : t.length % 2 = 1) :
    bytesOfHex hex = .error (.oddLength t.length) := by
  unfold bytesOfHex
  rw [h.stripMarker_eq]
  exact if_pos hodd

theorem bytesOfHex_even (h : Stripped hex t) (heven : t.length % 2 = 0) :
    bytesOfHex hex = bytesOfDigits 0 t := by
  have hnot : ¬t.length % 2 = 1 := by omega
  unfold bytesOfHex
  rw [h.stripMarker_eq]
  exact if_neg hnot

/-- **Digits in an even number spell bytes**, which are written as the digits in lower case. -/
theorem bytesOfHex_digits (h : Stripped hex t) (heven : t.length % 2 = 0)
    (hhex : ∀ u ∈ t, Text.IsHex u) :
    ∃ bytes, bytesOfHex hex = .ok bytes ∧ 2 * bytes.length = t.length ∧
      hexOfBytes bytes = Text.ofString "0x" ++ t.lower := by
  obtain ⟨bytes, hread, hwritten⟩ := bytesOfDigits_digits t 0 heven hhex
  refine ⟨bytes, (bytesOfHex_even h heven).trans hread, ?_, ?_⟩
  · rw [← length_digits, hwritten, Text.lower, List.length_map]
  · rw [hexOfBytes, hwritten]
    rfl

theorem bytesOfHex_badPair (h : Stripped hex t) (heven : t.length % 2 = 0)
    (hbad : ∃ u ∈ t, ¬Text.IsHex u) :
    ∃ i u v, FirstBadPair t i u v ∧ bytesOfHex hex = .error (.badPair u v i) := by
  obtain ⟨i, u, v, hfirst, hread⟩ := bytesOfDigits_badPair t 0 heven hbad
  rw [Nat.zero_add] at hread
  exact ⟨i, u, v, hfirst, (bytesOfHex_even h heven).trans hread⟩

/-! ### Both directions -/

theorem isLowerHex_of_mem_digits {bytes : List UInt8} (h : u ∈ bytes.flatMap hexOfByte) :
    Text.IsLowerHex u := by
  obtain ⟨byte, -, hu⟩ := List.mem_flatMap.1 h
  have hlt : byte.toNat < 256 := byte.toNat_lt
  rcases List.mem_pair.1 hu with rfl | rfl
  · exact Text.isLowerHex_hexDigit (by omega)
  · exact Text.isLowerHex_hexDigit (by omega)

/-- In front of the first bad pair stand digits alone: a unit there belongs to an earlier pair. -/
theorem FirstBadPair.isHex_before (h : FirstBadPair t i u v) : ∀ w ∈ t.take i, Text.IsHex w := by
  obtain ⟨⟨heven, -, hsecond, -⟩, hleast⟩ := h
  obtain ⟨hlength, -⟩ := List.getElem?_eq_some_iff.1 hsecond
  intro w hw
  obtain ⟨j, hj, rfl⟩ := List.mem_take_iff_getElem.1 hw
  have hji : j < i := by omega
  by_contra hbad
  rcases Nat.mod_two_eq_zero_or_one j with hfirst | hlast
  · have hpair : BadPair t j t[j] t[j + 1] :=
      ⟨hfirst, List.getElem?_eq_getElem _, List.getElem?_eq_getElem _, fun hhex => hbad hhex.1⟩
    have hle : i ≤ j := hleast j _ _ hpair
    omega
  · have hpair : BadPair t (j - 1) t[j - 1] t[j] := by
      refine ⟨by omega, List.getElem?_eq_getElem _, ?_, fun hhex => hbad hhex.2⟩
      rw [show j - 1 + 1 = j by omega]
      exact List.getElem?_eq_getElem _
    have hle : i ≤ j - 1 := hleast (j - 1) _ _ hpair
    omega

theorem digits_of_bytesOfHex {bytes : List UInt8} (h : Stripped hex t)
    (hbytes : bytesOfHex hex = .ok bytes) : t.length % 2 = 0 ∧ ∀ u ∈ t, Text.IsHex u := by
  by_cases hodd : t.length % 2 = 1
  · rw [bytesOfHex_odd h hodd] at hbytes
    cases hbytes
  · have heven : t.length % 2 = 0 := by omega
    refine ⟨heven, ?_⟩
    by_contra hhex
    obtain ⟨i, u, v, -, hfault⟩ := bytesOfHex_badPair h heven (by simpa using hhex)
    rw [hfault] at hbytes
    cases hbytes

/-- **Reading and writing bytes are inverse to each other on exactly the texts of bytes.** All bytes
are read back from their text, a marker with two digits in lower case for each. A text is read
exactly if it has an even number of units behind the marker and all are digits; the bytes are half
as many, and their text has the same digits in lower case. Otherwise the fault reports the odd
number of units, or the first pair of units that are not both digits with its place. -/
theorem bytesOfHex_inverse :
    (∀ bytes : List UInt8, bytesOfHex (hexOfBytes bytes) = .ok bytes ∧
      ∃ digits, hexOfBytes bytes = Text.ofString "0x" ++ digits ∧
        digits.length = 2 * bytes.length ∧ ∀ u ∈ digits, Text.IsLowerHex u) ∧
    ∀ hex : Text, ∃ t, Stripped hex t ∧ stripMarker hex = t ∧
      ((∃ bytes, bytesOfHex hex = .ok bytes) ↔ t.length % 2 = 0 ∧ ∀ u ∈ t, Text.IsHex u) ∧
      (∀ bytes, bytesOfHex hex = .ok bytes →
        2 * bytes.length = t.length ∧ hexOfBytes bytes = Text.ofString "0x" ++ t.lower) ∧
      ∀ fault, bytesOfHex hex = .error fault →
        (t.length % 2 = 1 → fault.message =
          Text.ofString "hex string expected, got unpadded hex of length "
            ++ Text.ofNat t.length) ∧
        (t.length % 2 = 0 → ∃ i u v, fault.message =
            Text.ofString "hex string expected, got non-hex character \"" ++ [u, v]
              ++ Text.ofString "\" at index " ++ Text.ofNat i ∧
          i % 2 = 0 ∧ t[i]? = some u ∧ t[i + 1]? = some v ∧ ¬(Text.IsHex u ∧ Text.IsHex v) ∧
          ∀ w ∈ t.take i, Text.IsHex w) := by
  constructor
  · intro bytes
    exact ⟨bytesOfHex_hexOfBytes bytes, _, rfl, length_digits bytes,
      fun u hu => isLowerHex_of_mem_digits hu⟩
  · intro hex
    obtain ⟨t, hs⟩ := exists_stripped hex
    refine ⟨t, hs, hs.stripMarker_eq, ⟨?_, ?_⟩, ?_, ?_⟩
    · rintro ⟨bytes, hbytes⟩
      exact digits_of_bytesOfHex hs hbytes
    · rintro ⟨heven, hhex⟩
      obtain ⟨bytes, hbytes, -⟩ := bytesOfHex_digits hs heven hhex
      exact ⟨bytes, hbytes⟩
    · intro bytes hbytes
      obtain ⟨heven, hhex⟩ := digits_of_bytesOfHex hs hbytes
      obtain ⟨bytes', hbytes', hlength, hwritten⟩ := bytesOfHex_digits hs heven hhex
      rw [hbytes'] at hbytes
      cases hbytes
      exact ⟨hlength, hwritten⟩
    · intro fault hfault
      constructor
      · intro hodd
        rw [bytesOfHex_odd hs hodd] at hfault
        cases hfault
        rfl
      · intro heven
        have hbad : ∃ u ∈ t, ¬Text.IsHex u := by
          by_contra hhex
          obtain ⟨bytes, hbytes, -⟩ := bytesOfHex_digits hs heven (by simpa using hhex)
          rw [hbytes] at hfault
          cases hfault
        obtain ⟨i, u, v, hfirst, hreported⟩ := bytesOfHex_badPair hs heven hbad
        rw [hreported] at hfault
        cases hfault
        obtain ⟨hplace, hu, hv, hpair⟩ := hfirst.1
        exact ⟨i, u, v, rfl, hplace, hu, hv, hpair, hfirst.isHex_before⟩

/-- The marker is taken away once, and a digit outside ASCII is none. -/
theorem bytesOfHex_inverse_marked :
    (∃ bytes, bytesOfHex (Text.ofString "0XaB09") = .ok bytes ∧ 2 * bytes.length = 4 ∧
      hexOfBytes bytes = Text.ofString "0xab09") ∧
    (¬∃ bytes, bytesOfHex (Text.ofString "0x0x12") = .ok bytes) ∧
    ∃ fault i u v, bytesOfHex (Text.ofString "0x12\uff134") = .error fault ∧
      fault.message = Text.ofString "hex string expected, got non-hex character \"" ++ [u, v]
        ++ Text.ofString "\" at index " ++ Text.ofNat i ∧
      i % 2 = 0 ∧ ∀ w ∈ (Text.ofString "12\uff134").take i, Text.IsHex w := by
  obtain ⟨-, htexts⟩ := bytesOfHex_inverse
  refine ⟨?_, ?_, ?_⟩
  · obtain ⟨t, -, rfl, hread, hwritten, -⟩ := htexts (Text.ofString "0XaB09")
    obtain ⟨bytes, hbytes⟩ := hread.2 ⟨by decide, Text.isHex_of_all (by decide)⟩
    exact ⟨bytes, hbytes, (hwritten bytes hbytes).1, (hwritten bytes hbytes).2⟩
  · obtain ⟨t, -, rfl, hread, -⟩ := htexts (Text.ofString "0x0x12")
    rw [hread]
    rintro ⟨-, hhex⟩
    exact absurd (hhex (Text.unit 'x') (by decide)) (by decide)
  · obtain ⟨t, -, rfl, -, -, hfault⟩ := htexts (Text.ofString "0x12\uff134")
    obtain ⟨i, u, v, hmessage, heven, -, -, -, hbefore⟩ := (hfault _ rfl).2 (by decide)
    exact ⟨_, i, u, v, rfl, hmessage, heven, hbefore⟩

end Interchain.Wire
