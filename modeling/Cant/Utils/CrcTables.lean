/-
# `CrcTables` — the tables compute the shift register

`crc.c` takes a message byte by byte, with tables that it generates once, and again whenever the
polynomial of the 32-bit code is set.

    code     direction   polynomial            initial value    final xor
    CRC-8    left        0x07                  0                none
    CRC-16   left        0x1021                all ones         none
    CRC-32   right       set, or 0x04C11DB7    set              set
    CRC-64   right       0x42F0E1EBA9EA3693    all ones         none

A table step is eight steps of the register, whatever the polynomial
(`Cant.ShiftRegister.feed_table`), so what the source has to get right is that the tables in use
were generated with the polynomial in force.
-/
import Cant.Lib.ShiftRegister
import Cant.Utils.Crc

namespace Cant.Utils

/-- Which way a code shifts, and in which order it takes the bits of a byte. -/
inductive Direction where
  | left | right

def Direction.register (d : Direction) (w : Nat) : ShiftRegister w :=
  match d with
  | .left => .left w
  | .right => .right w

def messageBits (d : Direction) (data : List UInt8) : List Bool :=
  data.flatMap fun b => (d.register 8).bits b.toBitVec

def shiftRegisterCrc {w : Nat} (d : Direction) (polynomial initialValue finalXor : BitVec w)
    (data : List UInt8) : BitVec w :=
  (d.register w).feed polynomial initialValue (messageBits d data) ^^^ finalXor

/-! ## One byte -/

section

variable {w : Nat}

theorem and_twoPow_ne_zero (x : BitVec w) {i : Nat} (hi : i < w) :
    x &&& BitVec.twoPow w i ≠ 0#w ↔ x.getLsbD i = true := by
  rw [BitVec.and_twoPow]
  cases x.getLsbD i with
  | false => simp
  | true =>
    simp only [if_true, iff_true]
    intro hzero
    have hbit := congrArg (BitVec.getLsbD · i) hzero
    simp [hi] at hbit

theorem iterate_round {α : Type} {toBits : α → BitVec w} {round : α → α} {R : ShiftRegister w}
    {p : BitVec w} (h : ∀ x, toBits (round x) = R.next p (toBits x)) (n : Nat) (x : α) :
    toBits (round^[n] x) = (R.next p)^[n] (toBits x) := by
  have hsemiconj : Function.Semiconj toBits round (R.next p) := h
  exact hsemiconj.iterate_right n x

theorem foldl_eq_feed {α : Type} {toBits : α → BitVec w} {step : α → UInt8 → α} {d : Direction}
    {p : BitVec w} (h : ∀ x b, toBits (step x b) =
      (d.register w).feed p (toBits x) ((d.register 8).bits b.toBitVec)) (data : List UInt8)
    (x : α) :
    toBits (data.foldl step x) = (d.register w).feed p (toBits x) (messageBits d data) := by
  induction data generalizing x with
  | nil => rfl
  | cons b data ih =>
    rw [List.foldl_cons, ih, h]
    rfl

theorem right_feed_byte (p x : BitVec w) (b : BitVec 8) (hw : 8 ≤ w) :
    (ShiftRegister.right w).feed p x ((ShiftRegister.right 8).bits b) =
      (x >>> 8) ^^^ ((ShiftRegister.right w).next p)^[8] ((x.setWidth 8 ^^^ b).setWidth w) := by
  have hlen := ShiftRegister.length_bits (R := .right 8) b
  have hfront := ShiftRegister.length_bits (R := .right 8) (x.setWidth 8 ^^^ b)
  have hfeed := ShiftRegister.feed_table (R := .right w) (p := p) x (hlen.trans hfront.symm)
    (by exact hw) (by
      intro i hi
      rw [hfront] at hi
      rw [ShiftRegister.getD_bits, ShiftRegister.getD_bits, ShiftRegister.cell_xor]
      refine congrArg (· ^^ _) ?_
      show (x.setWidth 8).getLsbD i = x.getLsbD i
      rw [BitVec.getLsbD_setWidth, decide_eq_true hi, Bool.true_and])
  rw [ShiftRegister.right_load_bits] at hfeed
  exact hfeed

theorem left_feed_byte (p x : BitVec w) (b : BitVec 8) (hw : 8 ≤ w) :
    (ShiftRegister.left w).feed p x ((ShiftRegister.left 8).bits b) =
      (x <<< 8) ^^^ ((ShiftRegister.left w).next p)^[8]
        (((x >>> (w - 8)).setWidth 8 ^^^ b).setWidth w <<< (w - 8)) := by
  have hlen := ShiftRegister.length_bits (R := .left 8) b
  have hfront := ShiftRegister.length_bits (R := .left 8) ((x >>> (w - 8)).setWidth 8 ^^^ b)
  have hfeed := ShiftRegister.feed_table (R := .left w) (p := p) x (hlen.trans hfront.symm)
    (by exact hw) (by
      intro i hi
      rw [hfront] at hi
      rw [ShiftRegister.getD_bits, ShiftRegister.getD_bits, ShiftRegister.cell_xor]
      refine congrArg (· ^^ _) ?_
      show ((x >>> (w - 8)).setWidth 8).getMsbD i = x.getMsbD i
      have hplace : w - 8 + (8 - 1 - i) = w - 1 - i := by omega
      rw [BitVec.getMsbD_eq_getLsbD, BitVec.getMsbD_eq_getLsbD, BitVec.getLsbD_setWidth,
        BitVec.getLsbD_ushiftRight, hplace, decide_eq_true hi, decide_eq_true (by omega : i < w),
        decide_eq_true (by omega : 8 - 1 - i < 8), Bool.true_and])
  rw [ShiftRegister.left_iterate_shift, ShiftRegister.left_load_bits hw] at hfeed
  exact hfeed

end

/-! ## The rounds -/

theorem toBitVec_tableRound8 (crc : UInt8) :
    (CrcUnit.tableRound8 crc).toBitVec = (ShiftRegister.left 8).next 0x07#8 crc.toBitVec := by
  have hbit : crc &&& 0x80 ≠ 0 ↔ crc.toBitVec.getMsbD 0 = true := by
    rw [ne_eq, ← UInt8.toBitVec_inj]
    exact and_twoPow_ne_zero crc.toBitVec (i := 7) (by decide)
  simp only [CrcUnit.tableRound8, ShiftRegister.next, hbit]
  show _ = (crc.toBitVec <<< 1) ^^^ (if crc.toBitVec.getMsbD 0 then 0x07#8 else 0#8)
  split <;> rfl

theorem toBitVec_tableRound16 (crc : UInt16) :
    (CrcUnit.tableRound16 crc).toBitVec = (ShiftRegister.left 16).next 0x1021#16 crc.toBitVec := by
  have hbit : crc &&& 0x8000 ≠ 0 ↔ crc.toBitVec.getMsbD 0 = true := by
    rw [ne_eq, ← UInt16.toBitVec_inj]
    exact and_twoPow_ne_zero crc.toBitVec (i := 15) (by decide)
  simp only [CrcUnit.tableRound16, ShiftRegister.next, hbit]
  show _ = (crc.toBitVec <<< 1) ^^^ (if crc.toBitVec.getMsbD 0 then 0x1021#16 else 0#16)
  split <;> rfl

theorem toBitVec_tableRound (polynomial crc : UInt32) :
    (CrcState.tableRound polynomial crc).toBitVec =
      (ShiftRegister.right 32).next polynomial.toBitVec crc.toBitVec := by
  have hbit : crc &&& 1 ≠ 0 ↔ crc.toBitVec.getLsbD 0 = true := by
    rw [ne_eq, ← UInt32.toBitVec_inj]
    exact and_twoPow_ne_zero crc.toBitVec (i := 0) (by decide)
  simp only [CrcState.tableRound, ShiftRegister.next, hbit]
  show _ = (crc.toBitVec >>> 1) ^^^ (if crc.toBitVec.getLsbD 0 then polynomial.toBitVec else 0#32)
  split <;> rfl

theorem toBitVec_tableRound64 (crc : UInt64) :
    (CrcUnit.tableRound64 crc).toBitVec =
      (ShiftRegister.right 64).next CrcUnit.poly64.toBitVec crc.toBitVec := by
  have hbit : crc &&& 1 ≠ 0 ↔ crc.toBitVec.getLsbD 0 = true := by
    rw [ne_eq, ← UInt64.toBitVec_inj]
    exact and_twoPow_ne_zero crc.toBitVec (i := 0) (by decide)
  simp only [CrcUnit.tableRound64, ShiftRegister.next, hbit]
  show _ = (crc.toBitVec >>> 1) ^^^
    (if crc.toBitVec.getLsbD 0 then CrcUnit.poly64.toBitVec else 0#64)
  split <;> rfl

/-! ## The unit -/

inductive CrcCall where
  | init
  | setPolynomial (polynomial : UInt32)
  | setInitialValue (initial : UInt32)
  | setFinalXor (finalXor : UInt32)

def CrcUnit.call (s : CrcUnit) : CrcCall → CrcUnit
  | .init => s.crcInit
  | .setPolynomial polynomial => s.crcSetPolynomial polynomial
  | .setInitialValue initial => s.crcSetInitialValue initial
  | .setFinalXor finalXor => s.crcSetFinalXor finalXor

structure CrcSettings where
  polynomial : UInt32
  initialValue : UInt32
  finalXor : UInt32

namespace CrcSettings

def default : CrcSettings := ⟨0x04C11DB7, 0xFFFFFFFF, 0xFFFFFFFF⟩

def call (s : CrcSettings) : CrcCall → CrcSettings
  | .init => s
  | .setPolynomial polynomial => { s with polynomial }
  | .setInitialValue initialValue => { s with initialValue }
  | .setFinalXor finalXor => { s with finalXor }

def inForce (calls : List CrcCall) : CrcSettings := calls.foldl call default

end CrcSettings

namespace CrcUnit

def after (calls : List CrcCall) : CrcUnit := calls.foldl call start

/-- The tables belong to the polynomials in force. -/
structure Tabled (s : CrcUnit) : Prop where
  crc8 : ∀ i, s.crc8Table i = tableRound8^[8] i
  crc16 : ∀ i, s.crc16Table i = tableRound16^[8] (i.toUInt16 <<< 8)
  crc32 : ∀ i, s.crc32Table i = (CrcState.tableRound s.polynomial)^[8] i.toUInt32
  crc64 : ∀ i, s.crc64Table i = tableRound64^[8] i.toUInt64

variable {s : CrcUnit}

theorem crcInit_cases (s : CrcUnit) :
    s.initialized = true ∧ s.crcInit = s ∨
      s.initialized = false ∧ s.crcInit = { s.initCrcTables with initialized := true } := by
  unfold crcInit
  cases hinit : s.initialized with
  | false => exact .inr ⟨rfl, rfl⟩
  | true => exact .inl ⟨rfl, rfl⟩

theorem initialized_call (h : s.initialized = true) (c : CrcCall) :
    (s.call c).initialized = true := by
  cases c with
  | init =>
    show s.crcInit.initialized = true
    rcases s.crcInit_cases with ⟨-, heq⟩ | ⟨-, heq⟩
    · rw [heq]
      exact h
    · rw [heq]
  | setPolynomial polynomial | setInitialValue initial | setFinalXor finalXor => exact h

/-- No call leaves tables behind that were generated with another polynomial. Before
`crc_init` there need not be any. -/
theorem tabled_call (h : s.initialized = true → s.Tabled) (c : CrcCall) :
    (s.call c).initialized = true → (s.call c).Tabled := by
  cases c with
  | init =>
    intro _
    show s.crcInit.Tabled
    rcases s.crcInit_cases with ⟨hinit, heq⟩ | ⟨-, heq⟩
    · rw [heq]
      exact h hinit
    · rw [heq]
      exact ⟨fun _ => rfl, fun _ => rfl, fun _ => rfl, fun _ => rfl⟩
  | setPolynomial polynomial =>
    exact fun _ => ⟨fun _ => rfl, fun _ => rfl, fun _ => rfl, fun _ => rfl⟩
  | setInitialValue initial | setFinalXor finalXor =>
    exact fun hinit => ⟨(h hinit).crc8, (h hinit).crc16, (h hinit).crc32, (h hinit).crc64⟩

theorem tabled_calls (h : s.initialized = true → s.Tabled) (calls : List CrcCall) :
    (calls.foldl call s).initialized = true → (calls.foldl call s).Tabled := by
  induction calls generalizing s with
  | nil => exact h
  | cons c calls ih => exact ih (tabled_call h c)

theorem initialized_calls (h : s.initialized = true) (calls : List CrcCall) :
    (calls.foldl call s).initialized = true := by
  induction calls generalizing s with
  | nil => exact h
  | cons c calls ih => exact ih (initialized_call h c)

/-- **Once `crc_init` has been called**, the tables belong to the polynomials in force. -/
theorem tabled_after (before after : List CrcCall) :
    (CrcUnit.after (before ++ .init :: after)).Tabled := by
  refine tabled_calls (s := start) (nofun) (before ++ .init :: after) ?_
  have hinit : ((before.foldl call start).call .init).initialized = true := by
    show (before.foldl call start).crcInit.initialized = true
    rcases (before.foldl call start).crcInit_cases with ⟨hinit, heq⟩ | ⟨-, heq⟩
    · rw [heq]
      exact hinit
    · rw [heq]
  rw [List.foldl_append]
  exact initialized_calls hinit after

theorem settings_after (calls : List CrcCall) :
    CrcSettings.inForce calls =
      ⟨(CrcUnit.after calls).polynomial, (CrcUnit.after calls).initialValue,
      (CrcUnit.after calls).finalXor⟩ := by
  have hcall : ∀ (s : CrcUnit) (c : CrcCall),
      CrcSettings.call ⟨s.polynomial, s.initialValue, s.finalXor⟩ c =
        ⟨(s.call c).polynomial, (s.call c).initialValue, (s.call c).finalXor⟩ := by
    intro s c
    cases c with
    | init =>
      have hinit : s.call .init = s.crcInit := rfl
      rcases s.crcInit_cases with ⟨-, heq⟩ | ⟨-, heq⟩
      all_goals
        rw [hinit, heq]
        rfl
    | setPolynomial polynomial | setInitialValue initial | setFinalXor finalXor => rfl
  have hcalls : ∀ (calls : List CrcCall) (s : CrcUnit),
      calls.foldl CrcSettings.call ⟨s.polynomial, s.initialValue, s.finalXor⟩ =
        ⟨(calls.foldl CrcUnit.call s).polynomial, (calls.foldl CrcUnit.call s).initialValue,
          (calls.foldl CrcUnit.call s).finalXor⟩ := by
    intro calls
    induction calls with
    | nil => exact fun _ => rfl
    | cons c calls ih =>
      intro s
      rw [List.foldl_cons, hcall, ih, List.foldl_cons]
  exact hcalls calls start

/-! ## The loops -/

namespace Tabled

variable {data : List UInt8}

variable (h : s.Tabled)
include h

theorem calculateCrc8_eq (hdata : data ≠ []) :
    (s.calculateCrc8 data).toBitVec = shiftRegisterCrc .left 0x07#8 0#8 0#8 data := by
  rw [calculateCrc8, if_neg hdata, shiftRegisterCrc, BitVec.xor_zero]
  refine foldl_eq_feed (d := .left) (fun crc b => ?_) data 0
  have hbyte := left_feed_byte 0x07#8 crc.toBitVec b.toBitVec (Nat.le_refl 8)
  have hgone : crc.toBitVec <<< 8 = 0#8 := BitVec.shiftLeft_eq_zero (Nat.le_refl 8)
  rw [hgone, BitVec.zero_xor, BitVec.shiftLeft_zero] at hbyte
  rw [h.crc8, iterate_round toBitVec_tableRound8]
  exact hbyte.symm

theorem calculateCrc16_eq (hdata : data ≠ []) :
    (s.calculateCrc16 data).toBitVec = shiftRegisterCrc .left 0x1021#16 0xFFFF#16 0#16 data := by
  rw [calculateCrc16, if_neg hdata, shiftRegisterCrc, BitVec.xor_zero]
  refine foldl_eq_feed (d := .left) (fun crc b => ?_) data 0xFFFF
  rw [UInt16.toBitVec_xor, h.crc16, iterate_round toBitVec_tableRound16]
  exact (left_feed_byte 0x1021#16 crc.toBitVec b.toBitVec (by decide)).symm

theorem calculateCrc32_eq (hdata : data ≠ []) :
    (s.calculateCrc32 data).toBitVec = shiftRegisterCrc .right s.polynomial.toBitVec
      s.initialValue.toBitVec s.finalXor.toBitVec data := by
  rw [CrcState.calculateCrc32, if_neg hdata]
  refine congrArg (· ^^^ _) ?_
  refine foldl_eq_feed (d := .right) (fun crc b => ?_) data s.initialValue
  rw [UInt32.toBitVec_xor, h.crc32, iterate_round (toBitVec_tableRound s.polynomial)]
  exact (right_feed_byte s.polynomial.toBitVec crc.toBitVec b.toBitVec (by decide)).symm

theorem calculateCrc64_eq (hdata : data ≠ []) :
    (s.calculateCrc64 data).toBitVec =
      shiftRegisterCrc .right poly64.toBitVec 0xFFFFFFFFFFFFFFFF#64 0#64 data := by
  rw [calculateCrc64, if_neg hdata, shiftRegisterCrc, BitVec.xor_zero]
  refine foldl_eq_feed (d := .right) (fun crc b => ?_) data 0xFFFFFFFFFFFFFFFF
  rw [UInt64.toBitVec_xor, h.crc64, iterate_round toBitVec_tableRound64]
  exact (right_feed_byte poly64.toBitVec crc.toBitVec b.toBitVec (by decide)).symm

end Tabled

end CrcUnit

/-- **The tables compute the shift register.** Whatever was called before `crc_init` and whatever
is set after it, all four codes of a message are those of the shift register, with the
polynomial, the initial value and the final xor in force. -/
theorem tables_exact (before after : List CrcCall) (data : List UInt8) (hdata : data ≠ []) :
    ((CrcUnit.after (before ++ .init :: after)).calculateCrc8 data).toBitVec =
      shiftRegisterCrc .left 0x07#8 0#8 0#8 data ∧
    ((CrcUnit.after (before ++ .init :: after)).calculateCrc16 data).toBitVec =
      shiftRegisterCrc .left 0x1021#16 0xFFFF#16 0#16 data ∧
    ((CrcUnit.after (before ++ .init :: after)).calculateCrc32 data).toBitVec =
      shiftRegisterCrc .right (CrcSettings.inForce (before ++ .init :: after)).polynomial.toBitVec
        (CrcSettings.inForce (before ++ .init :: after)).initialValue.toBitVec
        (CrcSettings.inForce (before ++ .init :: after)).finalXor.toBitVec data ∧
    ((CrcUnit.after (before ++ .init :: after)).calculateCrc64 data).toBitVec =
      shiftRegisterCrc .right 0x42F0E1EBA9EA3693#64 0xFFFFFFFFFFFFFFFF#64 0#64 data := by
  have htabled := CrcUnit.tabled_after before after
  refine ⟨htabled.calculateCrc8_eq hdata, htabled.calculateCrc16_eq hdata, ?_,
    htabled.calculateCrc64_eq hdata⟩
  rw [CrcUnit.settings_after]
  exact htabled.calculateCrc32_eq hdata

/-- The 16-bit code of the message `1 2 3`, after another polynomial was set. -/
theorem tables_exact_short :
    [1, 2, 3] ≠ ([] : List UInt8) ∧
      ((CrcUnit.after [.init, .setPolynomial 0xEDB88320]).calculateCrc16 [1, 2, 3]).toBitVec =
        shiftRegisterCrc .left 0x1021#16 0xFFFF#16 0#16 [1, 2, 3] := by
  have hne : [1, 2, 3] ≠ ([] : List UInt8) := List.cons_ne_nil _ _
  exact ⟨hne, (tables_exact [] [.setPolynomial 0xEDB88320] [1, 2, 3] hne).2.1⟩

end Cant.Utils
