import Interchain.Proofs.Failure.Attribution

/-! # Windows

A window is a view of some bytes of a buffer. Reading in it checks the offset against the length of
the view and then takes two bytes of the buffer, which are the two of the window
(`View.read?_eq`). The check itself is made on numbers, whose sum with 2 is rounded; this never lets
an offset through that does not fit (`passes_iff_fits`). So a chain is decoded at the offsets from
which two bytes are left in the window and at no other (`decode_window`).
-/

namespace Interchain

namespace Number

/-- Whether a number is above a whole one. -/
def exceeds (bound : Nat) : Number → Bool
  | .nan => false
  | .infinite negative => !negative
  | .finite negative numerator halvings _ =>
    (bound : Int) * 2 ^ halvings < signed negative numerator

theorem exceeds_whole (bound n : Nat) : (whole false n).exceeds bound = true ↔ bound < n := by
  simp [exceeds, whole, signed]

/-- The sum with 2, as the difference from -2. -/
theorem sub_negTwo {x : Number} {n : Nat} (hx : x.toInt? = some (n : Int)) :
    x.sub (.ofInt (-2)) = ofRatio false (n + 2) 1 := by
  cases x with
  | nan => cases hx
  | infinite negative => cases hx
  | finite negative numerator halvings lowest =>
    cases halvings with
    | succ halvings => cases hx
    | zero =>
      have hsigned : signed negative numerator = (n : Int) := Option.some.inj hx
      have hdifference :
          signed negative (numerator <<< 0) - signed true (2 <<< 0) = ((n + 2 : Nat) : Int) := by
        show signed negative numerator - (-2) = _
        omega
      have hnonzero : ¬((n + 2 : Nat) : Int) = 0 := by omega
      have hsign : ¬((n + 2 : Nat) : Int) < 0 := by omega
      show subFinite negative true numerator 0 2 0 = _
      unfold subFinite
      rw [hdifference]
      simp only [if_neg hnonzero, decide_eq_false hsign, Int.natAbs_natCast]
      rfl

/-- **Rounding a sum does not bring it below a length.** -/
theorem exceeds_sub_negTwo {x : Number} {n bound : Nat} (hx : x.toInt? = some (n : Int))
    (hbound : bound < 2 ^ 53) :
    (x.sub (.ofInt (-2))).exceeds bound = true ↔ bound < n + 2 := by
  rw [sub_negTwo hx]
  by_cases hn : n + 2 < 2 ^ 53
  · rw [ofRatio_one_of_lt false hn, exceeds_whole]
  · have hle : 2 ^ 53 ≤ n + 2 := by omega
    have hfar : bound < n + 2 := by omega
    rcases ofRatio_one_of_le false hle with hround | ⟨m, hm, hround⟩
    · rw [hround]
      exact iff_of_true rfl hfar
    · rw [hround, exceeds_whole]
      exact iff_of_true (by omega) hfar

end Number

namespace Wire

variable {colour : Colour} {r : Registry} {bytes other : List UInt8} {length o : Nat} {x : Number}

/-! ### Offsets -/

/-- A number is an offset from which two bytes are left. -/
def Fits (x : Number) (length : Nat) : Prop :=
  ∃ n : Int, x.toInt? = some n ∧ 0 ≤ n ∧ n ≤ (length : Int) - 2

theorem fits_natCast (hx : x.toInt? = some (o : Int)) : Fits x length ↔ o + 2 ≤ length := by
  constructor
  · rintro ⟨n, hn, -, hle⟩
    cases hx.symm.trans hn
    omega
  · intro hle
    exact ⟨o, hx, by omega, by omega⟩

theorem Fits.exists_nat (h : Fits x length) :
    ∃ o : Nat, x.toInt? = some (o : Int) ∧ o + 2 ≤ length := by
  obtain ⟨n, hn, hzero, hle⟩ := h
  refine ⟨n.toNat, ?_, by omega⟩
  rw [hn, Int.toNat_of_nonneg hzero]

theorem offset?_eq_none (h : ¬Fits x length) : offset? length (.number x) = none := by
  cases hx : x.toInt? with
  | none => simp only [offset?, hx]
  | some n =>
    have hbounds : ¬(0 ≤ n ∧ n + chainBytes ≤ length) := by
      rintro ⟨hzero, hle⟩
      apply h
      refine ⟨n, hx, hzero, ?_⟩
      unfold chainBytes at hle
      omega
    simp only [offset?, hx, if_neg hbounds]

/-- The check of an offset on numbers: it is whole, it is not negative, and the rounded sum with 2
is not above the length. -/
def passes (length : Nat) (x : Number) : Bool :=
  match x.toInt? with
  | some n => 0 ≤ n && !(x.sub (.ofInt (-2))).exceeds length
  | none => false

/-- **The check lets just the offsets through that fit.** -/
theorem passes_iff_fits (h : length < 2 ^ 53) : passes length x = true ↔ Fits x length := by
  cases hx : x.toInt? with
  | none => simp [passes, Fits, hx]
  | some n =>
    by_cases hzero : 0 ≤ n
    · obtain ⟨o, rfl⟩ := Int.eq_ofNat_of_zero_le hzero
      have hsum := Number.exceeds_sub_negTwo hx h
      have hpasses : passes length x = !(x.sub (.ofInt (-2))).exceeds length := by
        simp [passes, hx]
      rw [hpasses, fits_natCast hx, Bool.not_eq_true', Bool.eq_false_iff, ne_eq, hsum]
      omega
    · simp [passes, Fits, hx, hzero]

/-! ### Views -/

/-- What is read depends on two bytes only. -/
theorem read?_congr {o' : Nat} (hfirst : other[o']? = bytes[o]?)
    (hsecond : other[o' + 1]? = bytes[o + 1]?) (endian : Endian) :
    read? other o' endian = read? bytes o endian := by
  unfold read?
  rw [hfirst, hsecond]

theorem read?_eq_none (h : ¬o + 2 ≤ bytes.length) (endian : Endian) :
    read? bytes o endian = none := by
  have hsecond : bytes[o + 1]? = none := List.getElem?_eq_none (by omega)
  unfold read?
  rw [hsecond]
  cases bytes[o]? <;> rfl

/-- Some bytes of a buffer, from a start on. -/
structure View where
  buffer : List UInt8
  start : Nat
  length : Nat
  within : start + length ≤ buffer.length

namespace View

/-- The bytes that the view shows. -/
def shown (v : View) : List UInt8 := (v.buffer.drop v.start).take v.length

/-- Reads in the buffer, if the two bytes are in the view. -/
def read? (v : View) (o : Nat) (endian : Endian) : Option Nat :=
  if o + chainBytes ≤ v.length then Wire.read? v.buffer (v.start + o) endian else none

theorem length_shown (v : View) : v.shown.length = v.length := by
  have hwithin := v.within
  rw [shown, List.length_take, List.length_drop]
  omega

theorem getElem?_shown (v : View) {i : Nat} (h : i < v.length) :
    v.shown[i]? = v.buffer[v.start + i]? := by
  rw [shown, List.getElem?_take_of_lt h, List.getElem?_drop]

theorem read?_shown (v : View) (h : o + 2 ≤ v.length) (endian : Endian) :
    Wire.read? v.shown o endian = Wire.read? v.buffer (v.start + o) endian := by
  apply read?_congr
  · exact v.getElem?_shown (by omega)
  · exact v.getElem?_shown (by omega)

/-- **Reading in a view is reading in the bytes it shows**, so it fails only where these end. -/
theorem read?_eq (v : View) (o : Nat) (endian : Endian) :
    v.read? o endian = Wire.read? v.shown o endian := by
  unfold read? chainBytes
  by_cases h : o + 2 ≤ v.length
  · rw [if_pos h, v.read?_shown h]
  · have hshort : ¬o + 2 ≤ v.shown.length := by rwa [v.length_shown]
    rw [if_neg h, read?_eq_none hshort]

end View

theorem windowBound_le (length : Nat) (bound : Int) : windowBound length bound ≤ length := by
  unfold windowBound
  split <;> omega

/-- The view from one bound to another. -/
def view (start stop : Int) (buffer : List UInt8) : View where
  buffer := buffer
  start := windowBound buffer.length start
  length := windowBound buffer.length stop - windowBound buffer.length start
  within := by
    have hstart := windowBound_le buffer.length start
    have hstop := windowBound_le buffer.length stop
    omega

theorem shown_view (start stop : Int) (buffer : List UInt8) :
    (view start stop buffer).shown = window start stop buffer := rfl

/-! ### Chains in windows -/

/-- The number at an offset that fits is what the two bytes spell. -/
theorem decoded_fits {first second : UInt8} (hx : x.toInt? = some (o : Int))
    (hfirst : bytes[o]? = some first) (hsecond : bytes[o + 1]? = some second) (endian : Endian) :
    decoded colour bytes (.number x) endian = .ok (.ofNat (endian.spell first second)) := by
  have hlast : o + 1 < bytes.length := (List.getElem?_eq_some_iff.1 hsecond).1
  simp only [decoded, startAt, offset?_number hx hlast, read?_eq_some hfirst hsecond]

theorem decoded_rejects (h : ¬Fits x bytes.length) (endian : Endian) :
    decoded colour bytes (.number x) endian =
      .error (Failure.reject colour (tooShort (.number x) bytes.length)) := by
  simp only [decoded, startAt, offset?_eq_none h]

/-- Decoding at an offset that fits is asking for the chain of the number found there. -/
theorem decode_fits {first second : UInt8} (hx : x.toInt? = some (o : Int))
    (hfirst : bytes[o]? = some first) (hsecond : bytes[o + 1]? = some second) (endian : Endian) :
    decode colour bytes (.number x) endian =
      Chain.ofValue colour (.number (.ofNat (endian.spell first second))) := by
  have hdecoded : decoded colour bytes (.number x) endian = _ := decoded_fits hx hfirst hsecond _
  have hu := isU16_of_decoded hdecoded
  rw [decode_eq, hdecoded, Chain.ofValue_eq, Value.requireU16_eq_ok.2 ⟨rfl, hu⟩]

theorem decode_eq_ok (hr : r.Valid) (colour : Colour) {first second : UInt8}
    (hx : x.toInt? = some (o : Int)) (hfirst : bytes[o]? = some first)
    (hsecond : bytes[o + 1]? = some second) (endian : Endian) :
    ∃ c r', decode colour bytes (.number x) endian r = (.ok c, r') ∧
      c.value = .ofNat (endian.spell first second) := by
  have hdecoded : decoded colour bytes (.number x) endian = _ := decoded_fits hx hfirst hsecond _
  generalize endian.spell first second = n at hdecoded ⊢
  refine ⟨(r.chainOf (.ofNat n)).1, (r.chainOf (.ofNat n)).2, ?_, ?_⟩
  · rw [decode_eq, hdecoded]
    rfl
  · rw [Registry.value_chainOf hr (isU16_of_decoded hdecoded), Number.unsignZero_ofNat]

theorem decode_rejects (colour : Colour) (r : Registry) (h : ¬Fits x bytes.length)
    (endian : Endian) :
    ∃ e, decode colour bytes (.number x) endian r = (.error e, r) ∧
      Failure.RaisedAs colour .general (tooShort (.number x) bytes.length) e := by
  refine ⟨_, ?_, raisedAs_tooShort colour x bytes.length⟩
  rw [decode_eq, decoded_rejects h]
  rfl

theorem decode_isOk_iff (hr : r.Valid) (colour : Colour) (bytes : List UInt8) (x : Number)
    (endian : Endian) :
    (∃ c, (decode colour bytes (.number x) endian r).1 = .ok c) ↔ Fits x bytes.length := by
  by_cases h : Fits x bytes.length
  · obtain ⟨o, hx, ho⟩ := h.exists_nat
    obtain ⟨first, second, hfirst, hsecond⟩ := exists_two_bytes ho
    obtain ⟨c, r', hrun, -⟩ := decode_eq_ok hr colour hx hfirst hsecond endian
    exact iff_of_true ⟨c, by rw [hrun]⟩ h
  · obtain ⟨e, hrun, -⟩ := decode_rejects colour r h endian
    refine iff_of_false ?_ h
    rintro ⟨c, hc⟩
    rw [hrun] at hc
    cases hc

/-- A byte of a buffer is shown at the same place of a window as in any buffer of that length. -/
theorem getElem?_window {buffer other : List UInt8} {byte : UInt8} (start stop : Int) {i : Nat}
    (hlength : other.length = buffer.length) (hi : i < (view start stop buffer).length)
    (h : other[(view start stop buffer).start + i]? = some byte) :
    (window start stop other)[i]? = some byte := by
  have hstart : (view start stop other).start = (view start stop buffer).start := by
    simp only [view, hlength]
  have hi' : i < (view start stop other).length := by
    simpa only [view, hlength] using hi
  rw [← shown_view, View.getElem?_shown _ hi', hstart]
  exact h

/-- **A chain is decoded where two bytes are left in the window and nowhere else.** Whatever the
bounds of the window, the two bytes are those at the offset behind its start, in the window and in
the buffer; the chain is that of the number they spell, and no other byte has a part in it. Any
other offset is turned down as it was given, with the length of the window. -/
theorem decode_window (h : r.Reachable) (colour : Colour) (buffer : List UInt8) (start stop : Int)
    (x : Number) (endian : Endian) :
    let v := view start stop buffer
    let w := window start stop buffer
    let run := decode colour w (.number x) endian r
    ((∃ c, run.1 = .ok c) ↔ Fits x w.length) ∧
    (buffer.length < 2 ^ 53 → (passes w.length x = true ↔ Fits x w.length)) ∧
    (∀ o : Nat, x.toInt? = some (o : Int) → o + 2 ≤ w.length → ∃ first second,
      w[o]? = some first ∧ w[o + 1]? = some second ∧
      run = Chain.ofValue colour (.number (.ofNat (endian.spell first second))) r ∧
      (∃ c r', run = (.ok c, r') ∧ c.value = .ofNat (endian.spell first second)) ∧
      run = decode colour buffer (.number (.ofNat (v.start + o))) endian r ∧
      v.start + o + 2 ≤ buffer.length ∧
      v.read? o endian = some (endian.spell first second) ∧
      (∀ other : List UInt8, other[o]? = some first → other[o + 1]? = some second →
        decode colour other (.number x) endian r = run) ∧
      ∀ other : List UInt8, other.length = buffer.length →
        other[v.start + o]? = some first → other[v.start + o + 1]? = some second →
        decode colour (window start stop other) (.number x) endian r = run) ∧
    (¬Fits x w.length → ∃ e, run = (.error e, r) ∧
      Failure.RaisedAs colour .general
        ⟨Text.ofString "wire", Text.ofString "wire.decodeChain", Text.ofString "VALIDATION",
          Text.ofString "Need 2 bytes to read a chain id.",
          some [(Text.ofString "offset", .number x),
            (Text.ofString "length", .number (.ofInt w.length))], .undefined⟩ e) := by
  intro v w run
  have hlength : w.length = v.length := v.length_shown
  have hlast : v.start + v.length ≤ buffer.length := v.within
  refine ⟨decode_isOk_iff h.valid colour w x endian, ?_, ?_, ?_⟩
  · intro hbuffer
    exact passes_iff_fits (by omega)
  · intro o hx ho
    have hin : o + 1 < v.length := by omega
    obtain ⟨first, second, hfirst, hsecond⟩ := exists_two_bytes ho
    have hfirst' : buffer[v.start + o]? = some first :=
      (v.getElem?_shown (Nat.lt_of_succ_lt hin)).symm.trans hfirst
    have hsecond' : buffer[v.start + o + 1]? = some second :=
      (v.getElem?_shown hin).symm.trans hsecond
    have hrun : run = _ := congrFun (decode_fits hx hfirst hsecond endian) r
    refine ⟨first, second, hfirst, hsecond, hrun,
      decode_eq_ok h.valid colour hx hfirst hsecond endian, ?_, by omega, ?_, ?_, ?_⟩
    · rw [hrun, decode_fits (Number.toInt?_ofNat (v.start + o)) hfirst' hsecond']
    · exact (v.read?_eq o endian).trans (read?_eq_some hfirst hsecond endian)
    · intro other hone htwo
      rw [hrun, decode_fits hx hone htwo]
    · intro other hsame hone htwo
      have hone' := getElem?_window start stop hsame (Nat.lt_of_succ_lt hin) hone
      have htwo' := getElem?_window start stop hsame hin htwo
      rw [hrun, decode_fits hx hone' htwo']
  · intro hfits
    exact decode_rejects colour r hfits endian

/-- The two bytes in the middle of four: they are decoded from the start, at a zero of either sign,
and from nowhere else, though the buffer goes on. -/
theorem decode_window_middle :
    Registry.withSeven.Reachable ∧ window (-3) (-1) [0x09, 0x00, 0x07, 0x09] = [0x00, 0x07] ∧
    (∃ c r', decode .plain (window (-3) (-1) [0x09, 0x00, 0x07, 0x09])
        (.number (.whole true 0)) .big .withSeven = (.ok c, r') ∧ c.value = .ofNat 7) ∧
    ∃ e, decode .plain (window (-3) (-1) [0x09, 0x00, 0x07, 0x09]) (.number (.ofNat 1)) .big
      .withSeven = (.error e, .withSeven) := by
  have hreachable : Registry.withSeven.Reachable := Registry.Reachable.initial.call _ _
  have hfits : ¬Fits (.ofNat 1) (window (-3) (-1) [0x09, 0x00, 0x07, 0x09]).length := by
    rw [fits_natCast (Number.toInt?_ofNat 1)]
    decide
  obtain ⟨-, -, hzero, -⟩ := decode_window hreachable .plain [0x09, 0x00, 0x07, 0x09] (-3) (-1)
    (.whole true 0) .big
  obtain ⟨-, -, -, hone⟩ := decode_window hreachable .plain [0x09, 0x00, 0x07, 0x09] (-3) (-1)
    (.ofNat 1) .big
  obtain ⟨first, second, hfirst, hsecond, -, hchain, -⟩ := hzero 0 rfl (by decide)
  cases hfirst
  cases hsecond
  obtain ⟨e, hrun, -⟩ := hone hfits
  exact ⟨hreachable, rfl, hchain, e, hrun⟩

end Wire

end Interchain
