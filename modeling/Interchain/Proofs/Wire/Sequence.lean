import Interchain.Proofs.Registry.Reachable
import Interchain.Proofs.Wire.Frame

/-! # Frames of many chains

Chains stand in a frame one after the other, each in an order of its own. Every chain takes two
bytes, so the offset of one is known from how many stand before it, and there its number is read
whatever else the frame holds (`decoded_encodeAll`). The other way round, the number that is read
from two bytes is written as these two bytes (`encode_read?`). So chains and the pairs of bytes of
a frame stand for each other (`decode_sequence`).
-/

namespace Interchain.Wire

variable {colour : Colour} {r : Registry} {c : Chain} {endian : Endian}

/-- The bytes of chains one after the other, each in its own order. -/
def encodeAll (parts : List (Chain × Endian)) : List UInt8 :=
  parts.flatMap fun part => encode part.2 part.1

/-! ### From chains to bytes -/

/-- **Every chain of a frame is found at its offset**, two bytes behind the one before it. -/
theorem decoded_encodeAll {parts : List (Chain × Endian)}
    (hparts : ∀ part ∈ parts, ∃ n : Nat, n ≤ Number.maxU16 ∧ part.1.value = .ofNat n)
    (before after : List UInt8) {i : Nat} (hi : parts[i]? = some (c, endian)) :
    decoded colour (before ++ encodeAll parts ++ after)
      (.number (.ofInt (before.length + 2 * i : Nat))) endian = .ok c.value := by
  induction parts generalizing before i with
  | nil => cases hi
  | cons part rest ih =>
    cases i with
    | zero =>
      cases Option.some.inj hi
      obtain ⟨n, hn, hv⟩ := hparts _ List.mem_cons_self
      have hframe : before ++ encodeAll ((c, endian) :: rest) ++ after =
          before ++ encode endian c ++ (encodeAll rest ++ after) := by
        simp [encodeAll]
      rw [hframe]
      exact decoded_encode hv hn before (encodeAll rest ++ after) endian
    | succ i =>
      have hframe : before ++ encodeAll (part :: rest) ++ after =
          before ++ encode part.2 part.1 ++ encodeAll rest ++ after := by
        simp [encodeAll]
      have hoffset : before.length + 2 * (i + 1) =
          (before ++ encode part.2 part.1).length + 2 * i := by
        rw [List.length_append, length_encode, chainBytes]
        omega
      rw [hframe, hoffset]
      exact ih (fun other hother => hparts other (List.mem_cons_of_mem part hother)) _ hi

/-! ### From bytes to chains -/

/-- Two bytes that spell a word are its bytes. -/
theorem bytes_eq_of_toNat {word : UInt16} {high low : UInt8}
    (h : word.toNat = high.toNat * 256 + low.toNat) :
    highByte word = high ∧ lowByte word = low := by
  have hbytes := toNat_bytes word
  have hlow := low.toNat_lt
  have hlow' := (lowByte word).toNat_lt
  constructor
  · apply UInt8.toNat_inj.1
    omega
  · apply UInt8.toNat_inj.1
    omega

/-- **The number that is read from two bytes is written as these bytes.** -/
theorem encode_read? {bytes : List UInt8} {o n : Nat} (ho : o + 2 ≤ bytes.length)
    (hread : read? bytes o endian = some n) (hc : c.value = .ofNat n) :
    encode endian c = [bytes[o], bytes[o + 1]] := by
  have hword : c.value.toWord.toNat = n := by
    rw [hc]
    exact toNat_toWord (read?_le hread)
  have hfirst : bytes[o]? = some bytes[o] := List.getElem?_eq_getElem (by omega)
  have hsecond : bytes[o + 1]? = some bytes[o + 1] := List.getElem?_eq_getElem (by omega)
  unfold read? at hread
  rw [hfirst, hsecond] at hread
  cases endian with
  | big =>
    obtain ⟨hhigh, hlow⟩ := bytes_eq_of_toNat (hword.trans (Option.some.inj hread).symm)
    show [highByte _, lowByte _] = _
    rw [hhigh, hlow]
  | little =>
    obtain ⟨hhigh, hlow⟩ := bytes_eq_of_toNat (hword.trans (Option.some.inj hread).symm)
    show [lowByte _, highByte _] = _
    rw [hhigh, hlow]

/-! ### Frames -/

/-- Wherever two bytes are left, the chain that is decoded there is written as these bytes. -/
theorem encode_decode (h : r.Valid) (colour : Colour) {bytes : List UInt8} {x : Number} {o : Nat}
    (hx : x.toInt? = some (o : Int)) (ho : o + 2 ≤ bytes.length) (endian : Endian) :
    ∃ c r', decode colour bytes (.number x) endian r = (.ok c, r') ∧
      encode endian c = [bytes[o], bytes[o + 1]] := by
  obtain ⟨n, hn⟩ := read?_isSome ho endian
  have hdecoded : decoded colour bytes (.number x) endian = .ok (.ofNat n) := by
    simp only [decoded, startAt, offset?_number hx ho, hn]
  have hvalue : (r.chainOf (.ofNat n)).1.value = .ofNat n := by
    rw [Registry.value_chainOf h (Number.isU16_ofNat.2 (read?_le hn)), Number.unsignZero_ofNat]
  refine ⟨(r.chainOf (.ofNat n)).1, (r.chainOf (.ofNat n)).2, ?_, encode_read? ho hn hvalue⟩
  rw [decode_eq, hdecoded]
  rfl

/-- **Chains and pairs of bytes stand for each other.** In a frame of chains between any other
bytes, each chain is found at its offset, as the object that was put there and without issuing any.
Two bytes at any offset of any frame are what the chain that is decoded there is written as. The two
orders are the reverse of each other, and the bytes spell the whole number. -/
theorem decode_sequence (h : r.Reachable) (colour : Colour) :
    (∀ (before after : List UInt8) (parts : List (Chain × Endian)),
      (∀ part ∈ parts, r.Issues part.1) → ∀ i c endian, parts[i]? = some (c, endian) →
        decode colour (before ++ encodeAll parts ++ after)
          (.number (.ofInt (before.length + 2 * i : Nat))) endian r = (.ok c, r)) ∧
    (∀ (bytes : List UInt8) (endian : Endian) (x : Number) (o : Nat),
      x.toInt? = some (o : Int) → ∀ _ : o + 2 ≤ bytes.length,
        ∃ c r', decode colour bytes (.number x) endian r = (.ok c, r') ∧
          encode endian c = [bytes[o], bytes[o + 1]]) ∧
    ∀ c, r.Issues c →
      encode .little c = (encode .big c).reverse ∧
      ∃ (n : Nat) (high low : UInt8), c.value = .ofNat n ∧ encode .big c = [high, low] ∧
        high.toNat ≤ 255 ∧ low.toNat ≤ 255 ∧ high.toNat * 256 + low.toNat = n := by
  refine ⟨?_, fun bytes endian x o hx ho => encode_decode h.valid colour hx ho endian, ?_⟩
  · intro before after parts hissues i c endian hi
    have hnumbers : ∀ part ∈ parts, ∃ n : Nat, n ≤ Number.maxU16 ∧ part.1.value = .ofNat n :=
      fun part hpart => h.valid.value_of_issues (hissues part hpart)
    have hc : r.Issues c := hissues _ (List.mem_of_getElem? hi)
    rw [decode_eq, decoded_encodeAll hnumbers before after hi, h.valid.issue_value hc]
  · intro c hc
    obtain ⟨n, hn, hv⟩ := h.valid.value_of_issues hc
    refine ⟨rfl, n, highByte c.value.toWord, lowByte c.value.toWord, hv, rfl, ?_, ?_, ?_⟩
    · exact Nat.le_of_lt_succ (UInt8.toNat_lt _)
    · exact Nat.le_of_lt_succ (UInt8.toNat_lt _)
    · rw [toNat_bytes, hv, toNat_toWord hn]

/-- Two chains in different orders, at odd offsets; and two bytes that lie across the chains of
another frame. -/
theorem decode_sequence_two :
    Registry.withSeven.Reachable ∧
    decode .plain ([0xFF] ++ encodeAll [(⟨.unknown, .ofNat 7, 2⟩, .little), (Chain.solana, .big)] ++
      [0x07]) (.number (.ofInt 3)) .big .withSeven = (.ok Chain.solana, .withSeven) ∧
    (∃ c r',
      decode .plain [0x01, 0x02, 0x03] (.number (.ofNat 1)) .little .withSeven = (.ok c, r') ∧
      encode .little c = [0x02, 0x03]) ∧
    encode .little Chain.solana = (encode .big Chain.solana).reverse := by
  have hreachable : Registry.withSeven.Reachable := Registry.Reachable.initial.call _ _
  have hissues :
      ∀ part ∈ [((⟨.unknown, .ofNat 7, 2⟩ : Chain), Endian.little), (Chain.solana, .big)],
        Registry.withSeven.Issues part.1 := by
    unfold Registry.Issues
    decide
  obtain ⟨hchains, hbytes, horders⟩ := decode_sequence hreachable .plain
  exact ⟨hreachable, hchains [0xFF] [0x07] _ hissues 1 _ _ rfl,
    hbytes [0x01, 0x02, 0x03] .little (.ofNat 1) 1 rfl (by decide),
    (horders _ hreachable.valid.issues_solana).1⟩

end Interchain.Wire
