/-
# `CrcBursts` — which bursts of errors the codes detect

A burst is an error inside one window of as many bits as the register has. A shift
register detects every burst if its polynomial fills it, for then nothing that was put in
ever comes to nothing (`Cant.ShiftRegister.iterate_next_eq_zero`).

    code     window   length of the polynomial   bursts that are not detected
    CRC-8     8        8                         none
    CRC-16   16       16                         none
    CRC-32   32       27                         those that five shifts bring to zero
    CRC-64   64       63                         0x85E1C3D753D46D27

The last two polynomials are written for a register that is shifted to the left, and `crc.c` shifts
to the right.
-/
import Mathlib.Algebra.Group.Nat.Defs
import Cant.Utils.CrcTables

namespace Cant.Utils

open List

/-- Two messages, as bits, that differ inside a window of `w` bits. -/
def DifferInside (w start : Nat) (a b : List Bool) : Prop :=
  ∀ i, i < start ∨ start + w ≤ i → a.getD i false = b.getD i false

def burst (d : Direction) (w start : Nat) (data data' : List UInt8) : BitVec w :=
  (d.register w).load
    ((List.zipWith (· ^^ ·) (messageBits d data) (messageBits d data')).drop start)

section

variable {d : Direction} {data data' : List UInt8}

theorem messageBits_cons (b : UInt8) (data : List UInt8) :
    messageBits d (b :: data) = (d.register 8).bits b.toBitVec ++ messageBits d data :=
  flatMap_cons

theorem length_messageBits (data : List UInt8) : (messageBits d data).length = 8 * data.length := by
  induction data with
  | nil => rfl
  | cons b data ih =>
    rw [messageBits_cons, length_append, ShiftRegister.length_bits, length_cons]
    omega

theorem messageBits_inj (hlen : data.length = data'.length)
    (h : messageBits d data = messageBits d data') : data = data' := by
  induction data generalizing data' with
  | nil => exact (length_eq_zero_iff.mp hlen.symm).symm
  | cons b data ih =>
    cases data' with
    | nil => cases hlen
    | cons b' data' =>
      rw [messageBits_cons] at h
      obtain ⟨hbyte, hrest⟩ := append_inj h
        (by rw [ShiftRegister.length_bits, ShiftRegister.length_bits])
      have hb : b.toBitVec = b'.toBitVec := by
        refine (d.register 8).ext fun i => ?_
        rw [← ShiftRegister.getD_bits, hbyte, ShiftRegister.getD_bits]
      rw [UInt8.toBitVec_inj.mp hb, ih (Nat.succ.inj hlen) hrest]

end

section

variable {d : Direction} {w start : Nat} {data data' : List UInt8}

theorem burst_eq_zero (hlen : data.length = data'.length)
    (hwindow : DifferInside w start (messageBits d data) (messageBits d data')) :
    burst d w start data data' = 0#w ↔ data = data' := by
  have hbits : (messageBits d data).length = (messageBits d data').length := by
    rw [length_messageBits, length_messageBits, hlen]
  constructor
  · intro hzero
    refine messageBits_inj (d := d) hlen (ext_getElem hbits fun i hi hi' => ?_)
    have hsame : (messageBits d data).getD i false = (messageBits d data').getD i false := by
      by_cases hin : i < start ∨ start + w ≤ i
      · exact hwindow i hin
      · have hcell := ((d.register w).eq_zero_iff.mp hzero) (i - start)
        rw [burst, ShiftRegister.cell_load, decide_eq_true (by omega), getD_eq_getElem?_getD,
          getElem?_drop, Nat.add_sub_cancel' (by omega),
          ← getD_eq_getElem?_getD, ShiftRegister.getD_zipWith_xor hbits] at hcell
        exact bne_eq_false_iff_eq.mp hcell
    rw [getD_eq_getElem?_getD, getD_eq_getElem?_getD, getElem?_eq_getElem hi,
      getElem?_eq_getElem hi'] at hsame
    exact hsame
  · rintro rfl
    refine (d.register w).eq_zero_iff.mpr fun i => ?_
    rw [burst, ShiftRegister.cell_load, getD_eq_getElem?_getD, getElem?_drop,
      ← getD_eq_getElem?_getD, ShiftRegister.getD_zipWith_xor rfl, Bool.xor_self, Bool.and_false]

/-- **When a burst is not detected**: as many shifts as the polynomial falls short of the register
bring it to zero. -/
theorem shiftRegisterCrc_eq_iff {p initialValue finalXor : BitVec w} {k : Nat}
    (hp : (d.register w).HasLength p k) (hk : w ≤ 2 * k) (hlen : data.length = data'.length)
    (hwindow : DifferInside w start (messageBits d data) (messageBits d data')) :
    shiftRegisterCrc d p initialValue finalXor data =
        shiftRegisterCrc d p initialValue finalXor data' ↔
      ((d.register w).next p)^[w - k] (burst d w start data data') = 0#w := by
  have hbits : (messageBits d data).length = (messageBits d data').length := by
    rw [length_messageBits, length_messageBits, hlen]
  have hfeed := ShiftRegister.feed_xor_feed (R := d.register w) (p := p) hbits hwindow initialValue
  have hshort : (messageBits d data).length - start ≤ k →
      (d.register w).Within k (burst d w start data data') := by
    intro hle i hi
    have hpast : (List.zipWith (· ^^ ·) (messageBits d data) (messageBits d data')).length ≤
        start + i := by
      rw [length_zipWith]
      omega
    rw [burst, ShiftRegister.cell_load, getD_eq_getElem?_getD, getElem?_drop,
      getElem?_eq_none hpast]
    exact Bool.and_false _
  have hcase : w - k ≤ (messageBits d data).length - start ∨
      (d.register w).Within k (burst d w start data data') := by
    rcases Nat.le_total ((messageBits d data).length - start) k with hle | hge
    · exact .inr (hshort hle)
    · exact .inl (by omega)
  rw [shiftRegisterCrc, shiftRegisterCrc, BitVec.xor_left_inj, ← BitVec.xor_eq_zero_iff, hfeed]
  exact ShiftRegister.iterate_next_eq_zero hp hcase

end

/-! ## The default polynomials -/

theorem right_hasLength {w j : Nat} {p : BitVec w} (hlt : p.toNat < 2 ^ (j + 1))
    (hlast : p.getLsbD j = true) : (Direction.right.register w).HasLength p (j + 1) := by
  refine ⟨fun i hi => ?_, j, rfl, hlast⟩
  exact Nat.testBit_lt_two_pow (Nat.lt_of_lt_of_le hlt (Nat.pow_le_pow_right (by decide) hi))

theorem left_hasLength {j : Nat} {p : BitVec (j + 1)} (hlast : p.getMsbD j = true) :
    (Direction.left.register (j + 1)).HasLength p (j + 1) :=
  ⟨fun i hi => (ShiftRegister.left (j + 1)).cell_of_le p i hi, j, rfl, hlast⟩

theorem crc32_hasLength : (Direction.right.register 32).HasLength 0x04C11DB7#32 27 :=
  right_hasLength (by decide) (by decide)

theorem crc64_hasLength : (Direction.right.register 64).HasLength 0x42F0E1EBA9EA3693#64 63 :=
  right_hasLength (by decide) (by decide)

theorem crc64_next_eq_zero (x : BitVec 64) :
    (Direction.right.register 64).next 0x42F0E1EBA9EA3693#64 x = 0#64 ↔
      x = 0#64 ∨ x = 0x85E1C3D753D46D27#64 := by
  have hbit : x.getLsbD 0 = decide (x.toNat % 2 = 1) := by
    rw [← BitVec.testBit_toNat, Nat.testBit_zero]
  have hhalf : (x >>> 1).toNat = x.toNat / 2 := by
    rfl
  show (x >>> 1) ^^^ (if x.getLsbD 0 then 0x42F0E1EBA9EA3693#64 else 0#64) = 0#64 ↔ _
  rw [BitVec.xor_eq_zero_iff, hbit, ← BitVec.toNat_inj, ← BitVec.toNat_inj, ← BitVec.toNat_inj]
  by_cases hodd : x.toNat % 2 = 1
  · rw [decide_eq_true hodd, if_pos rfl]
    simp only [BitVec.reduceToNat]
    omega
  · rw [decide_eq_false hodd, if_neg Bool.false_ne_true]
    simp only [BitVec.reduceToNat]
    omega

/-- **Which bursts are detected.** With the default polynomials, CRC-8 and CRC-16 tell two messages
of one length apart that differ inside a window of 8 or 16 bits; CRC-32 in 32 bits, unless five
shifts bring the burst to zero; and CRC-64 in 64 bits, unless the burst is `0x85E1C3D753D46D27`. -/
theorem bursts_detected_iff (before after : List CrcCall)
    (hdefault : (CrcSettings.inForce (before ++ .init :: after)).polynomial = 0x04C11DB7)
    (data data' : List UInt8) (hlen : data.length = data'.length) (hne : data ≠ data')
    (start : Nat) :
    (DifferInside 8 start (messageBits .left data) (messageBits .left data') →
      (CrcUnit.after (before ++ .init :: after)).calculateCrc8 data ≠
        (CrcUnit.after (before ++ .init :: after)).calculateCrc8 data') ∧
    (DifferInside 16 start (messageBits .left data) (messageBits .left data') →
      (CrcUnit.after (before ++ .init :: after)).calculateCrc16 data ≠
        (CrcUnit.after (before ++ .init :: after)).calculateCrc16 data') ∧
    (DifferInside 32 start (messageBits .right data) (messageBits .right data') →
      ((CrcUnit.after (before ++ .init :: after)).calculateCrc32 data ≠
          (CrcUnit.after (before ++ .init :: after)).calculateCrc32 data' ↔
        ((Direction.right.register 32).next 0x04C11DB7#32)^[5] (burst .right 32 start data data') ≠
          0#32)) ∧
    (DifferInside 64 start (messageBits .right data) (messageBits .right data') →
      ((CrcUnit.after (before ++ .init :: after)).calculateCrc64 data ≠
          (CrcUnit.after (before ++ .init :: after)).calculateCrc64 data' ↔
        burst .right 64 start data data' ≠ 0x85E1C3D753D46D27#64)) := by
  have htabled := CrcUnit.tabled_after before after
  have hpolynomial : (CrcUnit.after (before ++ .init :: after)).polynomial = 0x04C11DB7 := by
    rw [CrcUnit.settings_after] at hdefault
    exact hdefault
  have hdata : data ≠ [] := by
    rintro rfl
    exact hne (length_eq_zero_iff.mp hlen.symm).symm
  have hdata' : data' ≠ [] := by
    rintro rfl
    exact hne (length_eq_zero_iff.mp hlen)
  refine ⟨fun hwindow => ?_, fun hwindow => ?_, fun hwindow => not_congr ?_,
    fun hwindow => not_congr ?_⟩
  · rw [ne_eq, ← UInt8.toBitVec_inj, htabled.calculateCrc8_eq hdata,
      htabled.calculateCrc8_eq hdata',
      shiftRegisterCrc_eq_iff (left_hasLength (by decide)) (by decide) hlen hwindow]
    exact mt (burst_eq_zero hlen hwindow).mp hne
  · rw [ne_eq, ← UInt16.toBitVec_inj, htabled.calculateCrc16_eq hdata,
      htabled.calculateCrc16_eq hdata',
      shiftRegisterCrc_eq_iff (left_hasLength (by decide)) (by decide) hlen hwindow]
    exact mt (burst_eq_zero hlen hwindow).mp hne
  · rw [← UInt32.toBitVec_inj, htabled.calculateCrc32_eq hdata, htabled.calculateCrc32_eq hdata',
      hpolynomial]
    exact shiftRegisterCrc_eq_iff crc32_hasLength (by decide) hlen hwindow
  · rw [← UInt64.toBitVec_inj, htabled.calculateCrc64_eq hdata, htabled.calculateCrc64_eq hdata']
    refine (shiftRegisterCrc_eq_iff crc64_hasLength (by decide) hlen hwindow).trans ?_
    refine (crc64_next_eq_zero _).trans (or_iff_right ?_)
    exact mt (burst_eq_zero hlen hwindow).mp hne

theorem differInside_of_length {w : Nat} {a b : List Bool} (ha : a.length ≤ w) (hb : b.length ≤ w) :
    DifferInside w 0 a b := by
  intro i hi
  have hw : w ≤ i := by omega
  rw [getD_eq_getElem?_getD, getD_eq_getElem?_getD,
    getElem?_eq_none (Nat.le_trans ha hw), getElem?_eq_none (Nat.le_trans hb hw)]

def fourBytes : List UInt8 := [0x12, 0x34, 0x56, 0x78]

def middleChanged : List UInt8 := [0x12, 0xFF, 0, 0x78]

theorem bursts_detected_middle :
    (CrcSettings.inForce [.init]).polynomial = 0x04C11DB7 ∧ fourBytes ≠ middleChanged ∧
      DifferInside 32 0 (messageBits .right fourBytes) (messageBits .right middleChanged) ∧
      (CrcUnit.after [.init]).calculateCrc32 fourBytes ≠
        (CrcUnit.after [.init]).calculateCrc32 middleChanged := by
  have hdefault : (CrcSettings.inForce [.init]).polynomial = 0x04C11DB7 := rfl
  have hne : fourBytes ≠ middleChanged := by decide
  have hwindow : DifferInside 32 0 (messageBits .right fourBytes)
      (messageBits .right middleChanged) := differInside_of_length (by decide) (by decide)
  have hiff := (bursts_detected_iff [] [] hdefault fourBytes middleChanged rfl hne 0).2.2.1 hwindow
  exact ⟨hdefault, hne, hwindow, hiff.mpr (by decide +kernel)⟩

/-- Four bytes that have the CRC-32 of four zeros, and eight that have the CRC-64 of eight. -/
theorem bursts_undetected :
    [0, 0, 0, 0] ≠ [(0x6F : UInt8), 0x3B, 0x82, 0x09] ∧
      DifferInside 32 0 (messageBits .right [0, 0, 0, 0])
        (messageBits .right [0x6F, 0x3B, 0x82, 0x09]) ∧
      (CrcUnit.after [.init]).calculateCrc32 [0, 0, 0, 0] =
        (CrcUnit.after [.init]).calculateCrc32 [0x6F, 0x3B, 0x82, 0x09] ∧
      [0, 0, 0, 0, 0, 0, 0, 0] ≠ [(0x27 : UInt8), 0x6D, 0xD4, 0x53, 0xD7, 0xC3, 0xE1, 0x85] ∧
      DifferInside 64 0 (messageBits .right [0, 0, 0, 0, 0, 0, 0, 0])
        (messageBits .right [0x27, 0x6D, 0xD4, 0x53, 0xD7, 0xC3, 0xE1, 0x85]) ∧
      (CrcUnit.after [.init]).calculateCrc64 [0, 0, 0, 0, 0, 0, 0, 0] =
        (CrcUnit.after [.init]).calculateCrc64
          [0x27, 0x6D, 0xD4, 0x53, 0xD7, 0xC3, 0xE1, 0x85] := by
  refine ⟨by decide, differInside_of_length ?_ ?_, by decide +kernel, by decide,
    differInside_of_length ?_ ?_, by decide +kernel⟩
  all_goals exact Nat.le_of_eq (length_messageBits _)

end Cant.Utils
