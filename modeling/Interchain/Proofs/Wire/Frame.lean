import Interchain.Proofs.Registry.Issue
import Interchain.Proofs.Wire.Hex

/-! # Numbers in frames

A word of 16 bits is what its two bytes spell (`toNat_bytes`), so two bytes of a chain are read as
its number wherever they stand in a frame, and in either order (`read?_encode`). The offset where
they were put is let through, as two bytes are left from there on.
-/

namespace Interchain.Wire

variable {colour : Colour} {c : Chain} {n : Nat}

/-! ### Words -/

/-- **A word is what its two bytes spell.** -/
theorem toNat_bytes (word : UInt16) :
    (highByte word).toNat * 256 + (lowByte word).toNat = word.toNat := by
  have hlt : word.toNat < 65536 := word.toNat_lt
  have hhigh : (highByte word).toNat = word.toNat / 256 := by
    show word.toNat / 256 % 256 = _
    omega
  have hlow : (lowByte word).toNat = word.toNat % 256 := by
    show word.toNat % 256 % 256 = _
    omega
  omega

/-- Cutting to a word leaves a number of 16 bits as it is. -/
theorem toNat_toWord (h : n ≤ Number.maxU16) : (Number.ofNat n).toWord.toNat = n := by
  unfold Number.maxU16 at h
  have hlt : n < 65536 := by omega
  have hmod : ((n : Int) % 65536).toNat = n := by omega
  show (UInt16.ofNat ((n : Int) % 65536).toNat).toNat = n
  rw [hmod]
  exact UInt16.toNat_ofNat_of_lt hlt

/-! ### Frames -/

theorem length_encode (endian : Endian) (c : Chain) : (encode endian c).length = chainBytes := by
  cases endian <;> rfl

theorem read?_append (before : List UInt8) (first second : UInt8) (after : List UInt8)
    (endian : Endian) :
    read? (before ++ [first, second] ++ after) before.length endian =
      read? [first, second] 0 endian := by
  have hfirst : (before ++ [first, second] ++ after)[before.length]? = some first := by simp
  have hsecond : (before ++ [first, second] ++ after)[before.length + 1]? = some second := by simp
  unfold read?
  rw [hfirst, hsecond]
  rfl

/-- **What is around a chain does not change what is read.** -/
theorem read?_encode (before after : List UInt8) (endian : Endian) (c : Chain) :
    read? (before ++ encode endian c ++ after) before.length endian =
      some c.value.toWord.toNat := by
  rw [← toNat_bytes]
  cases endian with
  | big => exact read?_append before _ _ after .big
  | little => exact read?_append before _ _ after .little

/-- An offset is let through if two bytes are left from there on; zero may have either sign. -/
theorem offset?_number {length o : Nat} {x : Number} (hx : x.toInt? = some (o : Int))
    (h : o + chainBytes ≤ length) : offset? length (.number x) = some o := by
  have hbounds : 0 ≤ (o : Int) ∧ (o : Int) + chainBytes ≤ length := by omega
  simp [offset?, hx, hbounds]

theorem offset?_ofInt {length o : Nat} (h : o + chainBytes ≤ length) :
    offset? length (.number (.ofInt o)) = some o := by
  rw [Number.ofInt_natCast]
  exact offset?_number (Number.toInt?_ofNat o) h

theorem le_length_of_offset? {length o : Nat} {v : Value} (h : offset? length v = some o) :
    o + 2 ≤ length := by
  unfold offset? chainBytes at h
  split at h
  · split at h
    · split at h
      · next hbounds =>
        cases h
        omega
      · cases h
    · cases h
  · cases h

/-- The number that two bytes spell in an order. -/
def Endian.spell : Endian → UInt8 → UInt8 → Nat
  | .big, first, second => first.toNat * 256 + second.toNat
  | .little, first, second => second.toNat * 256 + first.toNat

theorem read?_eq_some {bytes : List UInt8} {o : Nat} {first second : UInt8}
    (hfirst : bytes[o]? = some first) (hsecond : bytes[o + 1]? = some second) (endian : Endian) :
    read? bytes o endian = some (endian.spell first second) := by
  unfold read?
  rw [hfirst, hsecond]
  cases endian <;> rfl

theorem exists_two_bytes {bytes : List UInt8} {o : Nat} (h : o + 2 ≤ bytes.length) :
    ∃ first second, bytes[o]? = some first ∧ bytes[o + 1]? = some second :=
  ⟨_, _, List.getElem?_eq_getElem (by omega), List.getElem?_eq_getElem (by omega)⟩

/-- **Two bytes can be read wherever an offset is let through.** -/
theorem read?_isSome {bytes : List UInt8} {o : Nat} (h : o + 2 ≤ bytes.length)
    (endian : Endian) : ∃ n, read? bytes o endian = some n := by
  obtain ⟨first, second, hfirst, hsecond⟩ := exists_two_bytes h
  exact ⟨_, read?_eq_some hfirst hsecond endian⟩

/-- **The number of a chain is found where its bytes were put.** -/
theorem decoded_encode (hc : c.value = .ofNat n) (hn : n ≤ Number.maxU16)
    (before after : List UInt8) (endian : Endian) :
    decoded colour (before ++ encode endian c ++ after) (.number (.ofInt before.length)) endian =
      .ok c.value := by
  have hfits : before.length + chainBytes ≤ (before ++ encode endian c ++ after).length := by
    rw [List.length_append, List.length_append, length_encode]
    omega
  unfold decoded startAt
  simp only [offset?_ofInt hfits, read?_encode]
  rw [hc, toNat_toWord hn]

/-- A hexadecimal text holds a frame of just the two bytes. -/
theorem decodedHex_encodeHex (hc : c.value = .ofNat n) (hn : n ≤ Number.maxU16)
    (endian : Endian) :
    decodedHex colour (encodeHex endian c) endian = .ok c.value := by
  have hframe : decoded colour (encode endian c) .undefined endian = .ok c.value := by
    have h : decoded colour ([] ++ encode endian c ++ []) (.number (.ofInt 0)) endian =
        .ok c.value := decoded_encode hc hn [] [] endian
    rwa [List.nil_append, List.append_nil] at h
  unfold decodedHex encodeHex
  rw [bytesOfHex_hexOfBytes]
  simp only [if_pos (length_encode endian c), hframe]

end Interchain.Wire
