import Interchain.Proofs.Text.Decimal
import Interchain.Wire.Hex

/-! # Written bytes

A byte is written as its two halves, and its two digits are read as the byte (`bytesOfDigits_byte`).
So bytes of any number are read back from their text, which has a marker, two digits for each byte
and hence an even length (`bytesOfHex_hexOfBytes`).
-/

namespace Interchain.Wire

theorem byte_halves (b : UInt8) : (b.toNat / 16 * 16 + b.toNat % 16).toUInt8 = b := by
  have hsplit : b.toNat / 16 * 16 + b.toNat % 16 = b.toNat := by omega
  rw [hsplit]
  exact UInt8.ofNat_toNat

/-- The two digits of a byte are read as that byte, whatever stands behind them. -/
theorem bytesOfDigits_byte (index : Nat) (b : UInt8) (rest : Text) :
    bytesOfDigits index (hexOfByte b ++ rest) =
      (bytesOfDigits (index + 2) rest).map (b :: ·) := by
  have hlt : b.toNat < 256 := b.toNat_lt
  have hhigh : Text.hexValue? (Text.hexDigit (b.toNat / 16)) = some (b.toNat / 16) :=
    Text.hexValue?_hexDigit (by omega)
  have hlow : Text.hexValue? (Text.hexDigit (b.toNat % 16)) = some (b.toNat % 16) :=
    Text.hexValue?_hexDigit (by omega)
  show bytesOfDigits index (_ :: _ :: rest) = _
  rw [bytesOfDigits]
  simp only [hhigh, hlow, byte_halves]

theorem bytesOfDigits_bytes (index : Nat) (bytes : List UInt8) :
    bytesOfDigits index (bytes.flatMap hexOfByte) = .ok bytes := by
  induction bytes generalizing index with
  | nil => rfl
  | cons b rest ih =>
    rw [List.flatMap_cons, bytesOfDigits_byte, ih]
    rfl

theorem length_digits (bytes : List UInt8) :
    (bytes.flatMap hexOfByte).length = 2 * bytes.length := by
  induction bytes with
  | nil => rfl
  | cons b rest ih =>
    rw [List.flatMap_cons, List.length_append, ih, List.length_cons]
    show 2 + 2 * rest.length = _
    omega

theorem stripMarker_marker (digits : Text) : stripMarker (marker ++ digits) = digits := by
  have hmarked : marker.isPrefixOf (marker ++ digits) = true :=
    List.isPrefixOf_iff_prefix.2 (List.prefix_append _ _)
  unfold stripMarker
  rw [hmarked]
  rfl

/-- **Bytes are read back from their text.** -/
theorem bytesOfHex_hexOfBytes (bytes : List UInt8) : bytesOfHex (hexOfBytes bytes) = .ok bytes := by
  have heven : ¬(bytes.flatMap hexOfByte).length % 2 = 1 := by
    rw [length_digits]
    omega
  unfold bytesOfHex hexOfBytes
  rw [stripMarker_marker]
  simp only [if_neg heven]
  exact bytesOfDigits_bytes 0 bytes

end Interchain.Wire
