import Interchain.Proofs.Failure.Forget
import Interchain.Proofs.Registry.Issue

/-! # Decisions without objects

Before an operation asks for a chain it decides on a number. What it decides depends on no object,
and a failure it decides on carries only the chains it was given.
-/

namespace Interchain

open HasChains

variable {colour : Colour}

namespace Value

variable (site : Site) (v : Value)

theorem requireU16_forget :
    v.forget.requireU16 colour site = forgotten (v.requireU16 colour site) := by
  rw [requireU16, requireU16, u16?_forget]
  cases v.u16? with
  | some x => rfl
  | none => exact congrArg Except.error (Failure.reject_forget colour (site.rejection v))

theorem chains_requireU16 : chainsIn (v.requireU16 colour site) ⊆ v.chains := by
  rw [requireU16]
  cases v.u16? with
  | some x => exact List.nil_subset _
  | none =>
    have hrejection : chainsIn (site.rejection v) = v.chains := by
      simp [Site.rejection, chainsIn, Value.chains]
    rw [← hrejection]
    exact Failure.chains_reject colour (site.rejection v)

end Value

namespace Chain

theorem requireName_forget (s : Text) :
    requireName colour s = forgotten (requireName colour s) := by
  rw [requireName]
  split_ifs
  · rfl
  · exact congrArg Except.error (Failure.reject_forget colour (nameRejection s))

theorem chains_requireName (s : Text) : chainsIn (requireName colour s) = [] := by
  rw [requireName]
  split_ifs
  · rfl
  · exact List.subset_nil.1 (Failure.chains_reject colour (nameRejection s))

theorem unreadable_forget (s : Text) : unreadable colour s = forgotten (unreadable colour s) :=
  Failure.build_forget colour (.invalidText s) (parseRejection s)

theorem chains_unreadable (s : Text) : chainsIn (unreadable colour s) = [] :=
  List.subset_nil.1 (Failure.chains_build colour (.invalidText s) (parseRejection s))

theorem parsed_forget (s : Text) : parsed colour s = forgotten (parsed colour s) := by
  rw [parsed]
  cases read? s with
  | some n => rfl
  | none =>
    have hraise : Failure.raise (unreadable colour s) =
        forgotten (Failure.raise (unreadable colour s)) := by
      rw [← Failure.raise_forget, ← unreadable_forget]
    exact congrArg Except.error hraise

theorem chains_parsed (s : Text) : chainsIn (parsed colour s) = [] := by
  rw [parsed]
  cases read? s with
  | some n => rfl
  | none =>
    show chainsIn (Failure.raise (unreadable colour s)) = []
    rw [Failure.chains_raise, chains_unreadable]

end Chain

namespace Wire

theorem startAt_forget (v : Value) : startAt v.forget = (startAt v).forget := by cases v <;> rfl

theorem chains_startAt (v : Value) : (startAt v).chains = v.chains := by cases v <;> rfl

theorem offset?_forget (length : Nat) (v : Value) : offset? length v.forget = offset? length v := by
  cases v <;> rfl

theorem decoded_forget (bytes : List UInt8) (v : Value) (endian : Endian) :
    decoded colour bytes v.forget endian = forgotten (decoded colour bytes v endian) := by
  rw [decoded, decoded, startAt_forget, offset?_forget]
  cases offset? bytes.length (startAt v) with
  | none =>
    exact congrArg Except.error
      (Failure.reject_forget colour (tooShort (startAt v) bytes.length))
  | some o =>
    simp only
    cases read? bytes o endian <;> rfl

theorem chains_decoded (bytes : List UInt8) (v : Value) (endian : Endian) :
    chainsIn (decoded colour bytes v endian) ⊆ v.chains := by
  rw [decoded]
  cases offset? bytes.length (startAt v) with
  | none =>
    have hshort : chainsIn (tooShort (startAt v) bytes.length) = v.chains := by
      simp [tooShort, chainsIn, Value.chains, chains_startAt]
    rw [← hshort]
    exact Failure.chains_reject colour _
  | some o =>
    simp only
    cases read? bytes o endian <;> exact List.nil_subset _

theorem decodedHex_forget (hex : Text) (endian : Endian) :
    decodedHex colour hex endian = forgotten (decodedHex colour hex endian) := by
  rw [decodedHex]
  cases bytesOfHex hex with
  | error fault =>
    have hcause : forgotten (malformedHex hex fault) = malformedHex hex fault := by
      show Envelope.mk _ _ _ _ _ fault.toValue.shapeCause.forget = _
      rw [Value.forget_shapeCause]
      rfl
    have hreject := Failure.reject_forget colour (malformedHex hex fault)
    rw [hcause] at hreject
    exact congrArg Except.error hreject
  | ok bytes =>
    simp only
    split_ifs
    · exact decoded_forget bytes .undefined endian
    · exact congrArg Except.error (Failure.reject_forget colour (wrongWidth hex bytes.length))

theorem chains_decodedHex (hex : Text) (endian : Endian) :
    chainsIn (decodedHex colour hex endian) = [] := by
  rw [decodedHex]
  cases bytesOfHex hex with
  | error fault =>
    have hnone : chainsIn (malformedHex hex fault) = [] := by
      simp [malformedHex, chainsIn, Value.chains, Value.chains_shapeCause]
    have hreject := Failure.chains_reject colour (malformedHex hex fault)
    rw [hnone] at hreject
    exact List.subset_nil.1 hreject
  | ok bytes =>
    simp only
    split_ifs
    · exact List.subset_nil.1 (chains_decoded bytes .undefined endian)
    · exact List.subset_nil.1 (Failure.chains_reject colour (wrongWidth hex bytes.length))

end Wire

end Interchain
