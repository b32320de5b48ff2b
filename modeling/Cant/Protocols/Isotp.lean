/-
# `Isotp` — the ISO-TP endpoint

`isotp.c` splits a payload into CAN frames and puts received ones together
again. The first nibble of a frame says what it is:

    0  single frame        length, then up to 7 bytes
    1  first frame         12-bit length, then 6 bytes
    2  consecutive frame   sequence number, then up to 7 bytes
    3  flow control

The CAN driver is outside: `can` says whether `can_transmit` takes a frame, and a call returns the
frames it took; the frames `can_receive` will hand over during a call of `isotp_process` are its
argument.
-/
import Cant.Lib.Buf
import Cant.Utils.Timer

namespace Cant.Protocols

open Word Option Buf

structure CANFrame where
  id : Nat
  dlc : Nat
  isExtended : Bool
  data : Buf UInt8 64

theorem CANFrame.get?_zero (f : CANFrame) : f.data.get? 0 = some (f.data.cell 0) :=
  f.data.get?_cell 0

theorem CANFrame.get?_one (f : CANFrame) : f.data.get? 1 = some (f.data.cell 1) :=
  f.data.get?_cell 1

structure ISOTPConfig where
  rxId : Nat
  txId : Nat
  stmin : Nat
  blocksize : Nat
  timeoutMs : Nat

structure TxState where
  buffer : Buf UInt8 4095
  length : Nat
  offset : Nat
  sequence : Nat
  timer : Timer
  waitingFc : Bool

structure RxState where
  buffer : Buf UInt8 4095
  length : Nat
  offset : Nat
  sequence : Nat
  receivingMulti : Bool

structure Isotp where
  config : ISOTPConfig
  tx : TxState
  rx : RxState

namespace Isotp

def create (config : ISOTPConfig) : Isotp :=
  ⟨config, ⟨Buf.fill 4095 0, 0, 0, 0, ⟨0, 0, false⟩, false⟩, ⟨Buf.fill 4095 0, 0, 0, 0, false⟩⟩

/-- What `can_transmit` does with a frame: the frames that reach the bus and the
answer. -/
def canTransmit (can : CANFrame → Bool) (frame : CANFrame) : List CANFrame × Bool :=
  if can frame then ([frame], true) else ([], false)

/-! ## Sending -/

def sendSingleFrame (s : Isotp) (data : List UInt8) : Option CANFrame := do
  let d ← (Buf.fill 64 0).blit 0 [UInt8.ofNat ((0 <<< 4) ||| data.length)]
  let d ← d.blit 1 data
  some ⟨s.config.txId, u8 (data.length + 1), false, d⟩

def sendFirstFrame (s : Isotp) (now : Nat) (data : List UInt8) : Option (Isotp × CANFrame) := do
  let d ← (Buf.fill 64 0).blit 0 [UInt8.ofNat ((1 <<< 4) ||| ((data.length >>> 8) &&& 0x0F))]
  let d ← d.blit 1 [UInt8.ofNat (data.length &&& 0xFF)]
  let d ← d.blit 2 (data.take 6)
  some ({ s with tx := { s.tx with
      length := data.length, offset := 6, sequence := 1, waitingFc := true,
      timer := .start now s.config.timeoutMs } }, ⟨s.config.txId, 8, false, d⟩)

def sendConsecutiveFrame (s : Isotp) : Option (Isotp × CANFrame) := do
  let remaining := u64 (s.tx.length - s.tx.offset)
  let segmentSize := if remaining > 7 then 7 else remaining
  let d ← (Buf.fill 64 0).blit 0 [UInt8.ofNat ((2 <<< 4) ||| s.tx.sequence)]
  let segment ← s.tx.buffer.slice s.tx.offset segmentSize
  let d ← d.blit 1 segment
  some ({ s with tx := { s.tx with
      offset := u64 (s.tx.offset + segmentSize), sequence := (s.tx.sequence + 1) &&& 0x0F } },
    ⟨s.config.txId, u8 (segmentSize + 1), false, d⟩)

/-- `isotp_transmit`, at clock `now`: the new state, what reached the bus, and
the answer. -/
def transmit (s : Isotp) (can : CANFrame → Bool) (now : Nat) (data : List UInt8) :
    Option (Isotp × List CANFrame × Bool) :=
  if data.length = 0 ∨ data.length > 4095 then some (s, [], false)
  else if data.length ≤ 7 then do
    let frame ← s.sendSingleFrame data
    some (s, canTransmit can frame)
  else do
    let buffer ← s.tx.buffer.blit 0 data
    let (s, frame) ← sendFirstFrame { s with tx := { s.tx with buffer := buffer } } now data
    some (s, canTransmit can frame)

/-! ## Receiving -/

def processSingleFrame (s : Isotp) (frame : CANFrame) : Option Isotp := do
  let length := (← frame.data.get? 0).toNat &&& 0x0F
  if length > 0 ∧ length ≤ 7 then do
    let bytes ← frame.data.slice 1 length
    let buffer ← s.rx.buffer.blit 0 bytes
    some { s with rx := { s.rx with buffer := buffer, length := length, receivingMulti := false } }
  else some s

/-- The flow-control frame `process_first_frame` answers with. -/
def flowControl (s : Isotp) : Option CANFrame := do
  let d ← (Buf.fill 64 0).blit 0 [UInt8.ofNat (3 <<< 4)]
  let d ← d.blit 1 [UInt8.ofNat s.config.blocksize]
  let d ← d.blit 2 [UInt8.ofNat s.config.stmin]
  some ⟨s.config.txId, 3, false, d⟩

def processFirstFrame (s : Isotp) (can : CANFrame → Bool) (frame : CANFrame) :
    Option (Isotp × List CANFrame) := do
  let length := (((← frame.data.get? 0).toNat &&& 0x0F) <<< 8) ||| (← frame.data.get? 1).toNat
  if length > 0 ∧ length ≤ 4095 then do
    let bytes ← frame.data.slice 2 6
    let buffer ← s.rx.buffer.blit 0 bytes
    let fc ← s.flowControl
    some ({ s with rx := {
        buffer := buffer, length := length, offset := 6, sequence := 1, receivingMulti := true } },
      (canTransmit can fc).1)
  else some (s, [])

def processConsecutiveFrame (s : Isotp) (frame : CANFrame) : Option Isotp :=
  if ¬ s.rx.receivingMulti then some s
  else do
    let sequence := (← frame.data.get? 0).toNat &&& 0x0F
    if sequence ≠ s.rx.sequence then
      -- sequence error
      some { s with rx := { s.rx with receivingMulti := false } }
    else do
      let remaining := u64 (s.rx.length - s.rx.offset)
      let segmentSize := if remaining > 7 then 7 else remaining
      let bytes ← frame.data.slice 1 segmentSize
      let buffer ← s.rx.buffer.blit s.rx.offset bytes
      let offset := u64 (s.rx.offset + segmentSize)
      some { s with rx := { s.rx with
        buffer := buffer, offset := offset, sequence := (s.rx.sequence + 1) &&& 0x0F,
        receivingMulti := !decide (offset ≥ s.rx.length) } }

/-- The body of the loop of `isotp_process`. -/
def handleFrame (s : Isotp) (can : CANFrame → Bool) (frame : CANFrame) :
    Option (Isotp × List CANFrame) :=
  if frame.id = s.config.rxId then do
    let pci := (← frame.data.get? 0).toNat >>> 4
    match pci with
    | 0 => (s.processSingleFrame frame).map fun s => (s, [])
    | 1 => s.processFirstFrame can frame
    | 2 => (s.processConsecutiveFrame frame).map fun s => (s, [])
    -- 3 is flow control, which the source leaves to a comment
    | _ => some (s, [])
  else some (s, [])

/-- The loop of `isotp_process`, until `can_receive` has nothing left. -/
def handleFrames (s : Isotp) (can : CANFrame → Bool) :
    List CANFrame → Option (Isotp × List CANFrame)
  | [] => some (s, [])
  | frame :: frames => do
    let (s, sent) ← s.handleFrame can frame
    let (s, sent') ← s.handleFrames can frames
    some (s, sent ++ sent')

def process (s : Isotp) (can : CANFrame → Bool) (now : Nat) (frames : List CANFrame) :
    Option (Isotp × List CANFrame) := do
  let (s, sent) ← s.handleFrames can frames
  if s.tx.waitingFc ∧ s.tx.timer.expired now then
    some ({ s with tx := { s.tx with waitingFc := false } }, sent)
  else some (s, sent)

def receive (s : Isotp) : Option (Isotp × Option (List UInt8)) :=
  if ¬ s.rx.receivingMulti ∧ s.rx.length > 0 then do
    let data ← s.rx.buffer.slice 0 s.rx.length
    some ({ s with rx := { s.rx with length := 0 } }, some data)
  else some (s, none)

end Isotp

/-! ## What a frame says

as the receiver reads it, which never looks at `dlc` -/

namespace CANFrame

def pci (f : CANFrame) : Nat := (f.data.cell 0).toNat >>> 4

/-- The low nibble of the first byte: the length of a single frame, the sequence
number of a consecutive one. -/
def low (f : CANFrame) : Nat := (f.data.cell 0).toNat &&& 0x0F

def firstLength (f : CANFrame) : Nat := (f.low <<< 8) ||| (f.data.cell 1).toNat

def bytes (f : CANFrame) (off n : Nat) : List UInt8 := (f.data.elems.drop off).take n

/-- A single frame for the listener on `id`, with a length it accepts. -/
def IsSingle (id : Nat) (f : CANFrame) : Prop :=
  f.id = id ∧ f.pci = 0 ∧ 0 < f.low ∧ f.low ≤ 7

/-- A first frame for the listener on `id`, with a length it accepts. -/
def IsFirst (id : Nat) (f : CANFrame) : Prop :=
  f.id = id ∧ f.pci = 1 ∧ 0 < f.firstLength

/-- A consecutive frame for the listener on `id`. -/
def IsConsecutive (id : Nat) (f : CANFrame) : Prop :=
  f.id = id ∧ f.pci = 2

theorem low_lt (f : CANFrame) : f.low < 16 := by
  rw [low, and_0x0F]
  omega

theorem firstLength_le (f : CANFrame) : f.firstLength ≤ 4095 := by
  have hlow := f.low_lt
  have hbyte := (f.data.cell 1).toNat_lt
  rw [firstLength, ← Nat.shiftLeft_add_eq_or_of_lt (by omega)]
  omega

theorem length_bytes (f : CANFrame) (off n : Nat) (h : off + n ≤ 64) :
    (f.bytes off n).length = n := by
  rw [bytes, List.length_take, List.length_drop, f.data.size_eq]
  omega

theorem slice_data (f : CANFrame) {off n : Nat} (h : off + n ≤ 64) :
    f.data.slice off n = some (f.bytes off n) :=
  slice_eq_some h

end CANFrame

/-! ## What a received frame does

One relation says everything a frame can do to the receive side; every property
of the receiver is read off it. -/

def RxState.segment (rx : RxState) : Nat :=
  if u64 (rx.length - rx.offset) > 7 then 7 else u64 (rx.length - rx.offset)

/-- The receive side before and after a frame, at a listener on `id`. -/
inductive RxEffect (id : Nat) (rx : RxState) (f : CANFrame) : RxState → Prop
  | ignored : ¬ f.IsSingle id → ¬ f.IsFirst id → (f.IsConsecutive id → rx.receivingMulti = false) →
      RxEffect id rx f rx
  | single {buffer : Buf UInt8 4095} : f.IsSingle id →
      buffer.elems.take f.low = f.bytes 1 f.low →
      RxEffect id rx f { rx with buffer := buffer, length := f.low, receivingMulti := false }
  | first {buffer : Buf UInt8 4095} : f.IsFirst id →
      buffer.elems.take 6 = f.bytes 2 6 →
      RxEffect id rx f ⟨buffer, f.firstLength, 6, 1, true⟩
  | sequenceError : f.IsConsecutive id → rx.receivingMulti = true → f.low ≠ rx.sequence →
      RxEffect id rx f { rx with receivingMulti := false }
  | segment {buffer : Buf UInt8 4095} : f.IsConsecutive id → rx.receivingMulti = true →
      f.low = rx.sequence →
      buffer.elems.take (rx.offset + rx.segment)
        = rx.buffer.elems.take rx.offset ++ f.bytes 1 rx.segment →
      RxEffect id rx f { rx with
        buffer := buffer, offset := rx.offset + rx.segment, sequence := (rx.sequence + 1) % 16,
        receivingMulti := !decide (rx.offset + rx.segment ≥ rx.length) }

/-- What keeps the receiver inside its buffer. -/
structure RxState.InRange (rx : RxState) : Prop where
  length_le : rx.length ≤ 4095
  /-- A short message keeps the first offset, beyond its length. -/
  offset : rx.receivingMulti = true → 6 ≤ rx.offset ∧ (rx.offset < rx.length ∨ rx.offset = 6)

namespace RxState

variable {rx rx' : RxState}

theorem segment_le (rx : RxState) : rx.segment ≤ 7 := by
  rw [segment]
  split <;> omega

theorem segment_eq (rx : RxState) (h : rx.offset ≤ rx.length) (hle : rx.length ≤ 4095) :
    rx.segment = min 7 (rx.length - rx.offset) := by
  rw [segment, u64_sub h (by omega)]
  split <;> omega

theorem InRange.room (h : rx.InRange) (hmulti : rx.receivingMulti = true) :
    rx.offset + rx.segment ≤ 4095 := by
  obtain ⟨-, hlt | h6⟩ := h.offset hmulti
  · rw [segment_eq rx (by omega) h.length_le]
    have := h.length_le
    omega
  · have := rx.segment_le
    omega

theorem InRange.effect (h : rx.InRange) {id : Nat} {f : CANFrame} (he : RxEffect id rx f rx') :
    rx'.InRange := by
  cases he with
  | ignored => exact h
  | single hs => exact ⟨by have := hs.2.2.2; show f.low ≤ 4095; omega, fun hm => by cases hm⟩
  | first => exact ⟨f.firstLength_le, fun _ => ⟨.refl, .inr rfl⟩⟩
  | sequenceError => exact ⟨h.length_le, fun hm => by cases hm⟩
  | segment _ hmulti =>
    refine ⟨h.length_le, fun hm => ?_⟩
    simp only [Bool.not_eq_true', decide_eq_false_iff_not, ge_iff_le, not_le] at hm
    have h6 := (h.offset hmulti).1
    exact ⟨by show 6 ≤ rx.offset + rx.segment; omega, .inl hm⟩

end RxState

namespace Isotp

variable {s' : Isotp} {can : CANFrame → Bool} {frames sent : List CANFrame}

theorem create_inRange (config : ISOTPConfig) : (create config).rx.InRange :=
  ⟨Nat.zero_le _, fun h => by cases h⟩

theorem flowControl_eq (s : Isotp) : ∃ fc, s.flowControl = some fc ∧ fc.pci = 3 := by
  obtain ⟨d₁, h₁, -⟩ := (Buf.fill 64 (0 : UInt8)).blit_eq_some 0 [UInt8.ofNat (3 <<< 4)] (by simp)
  obtain ⟨d₂, h₂, -⟩ := d₁.blit_eq_some 1 [UInt8.ofNat s.config.blocksize] (by simp)
  obtain ⟨d₃, h₃, -⟩ := d₂.blit_eq_some 2 [UInt8.ofNat s.config.stmin] (by simp)
  refine ⟨⟨s.config.txId, 3, false, d₃⟩, ?_, ?_⟩
  · simp only [flowControl, h₁, h₂, h₃, bind_eq_bind, bind_some]
  · have hcell : d₃.get? 0 = some (UInt8.ofNat (3 <<< 4)) := by
      rw [Buf.get?, getElem?_blit h₃, getElem?_blit h₂]
      exact get?_blit_self h₁
    have : d₃.cell 0 = UInt8.ofNat (3 <<< 4) := Option.some.inj ((d₃.get?_cell 0).symm.trans hcell)
    show (d₃.cell 0).toNat >>> 4 = 3
    rw [this]
    rfl

variable {s : Isotp} {f : CANFrame}

theorem processSingleFrame_effect (s : Isotp) (hid : f.id = s.config.rxId) (hpci : f.pci = 0) :
    ∃ rx, s.processSingleFrame f = some { s with rx := rx } ∧ RxEffect s.config.rxId s.rx f rx := by
  have hcell := f.get?_zero
  simp only [processSingleFrame, hcell, bind_eq_bind, bind_some]
  change ∃ rx, (if f.low > 0 ∧ f.low ≤ 7 then _ else _) = _ ∧ _
  by_cases hok : f.low > 0 ∧ f.low ≤ 7
  · have hlen := f.length_bytes 1 f.low (by omega)
    obtain ⟨buffer, hblit, -⟩ := s.rx.buffer.blit_eq_some 0 (f.bytes 1 f.low) (by omega)
    have htake := take_of_blit hblit
    rw [hlen, Nat.zero_add] at htake
    refine ⟨_, ?_, .single ⟨hid, hpci, hok⟩ htake⟩
    rw [if_pos hok]
    change (f.data.slice 1 f.low).bind _ = _
    rw [f.slice_data (by omega), bind_some, hblit]
    rfl
  · rw [if_neg hok]
    exact ⟨s.rx, rfl, .ignored (fun h => hok h.2.2) (fun h => absurd h.2.1 (by omega))
      fun h => absurd h.2 (by omega)⟩

theorem processFirstFrame_effect (s : Isotp) (can : CANFrame → Bool) (hid : f.id = s.config.rxId)
    (hpci : f.pci = 1) :
    ∃ rx sent, s.processFirstFrame can f = some ({ s with rx := rx }, sent) ∧
      RxEffect s.config.rxId s.rx f rx ∧ ∀ g ∈ sent, g.pci = 3 := by
  have hcell := f.get?_zero
  have hcell' := f.get?_one
  simp only [processFirstFrame, hcell, hcell', bind_eq_bind, bind_some]
  by_cases hpos : f.firstLength > 0
  · have hlen := f.length_bytes 2 6 (by omega)
    obtain ⟨buffer, hblit, -⟩ := s.rx.buffer.blit_eq_some 0 (f.bytes 2 6) (by omega)
    have htake := take_of_blit hblit
    rw [hlen] at htake
    obtain ⟨fc, hfc, hpci3⟩ := s.flowControl_eq
    refine ⟨_, (canTransmit can fc).1, ?_, .first ⟨hid, hpci, hpos⟩ htake, fun g hg => ?_⟩
    · rw [if_pos ⟨hpos, f.firstLength_le⟩, f.slice_data (by omega), bind_some, hblit, hfc]
      rfl
    · rw [canTransmit] at hg
      split at hg
      · exact (List.mem_singleton.mp hg) ▸ hpci3
      · cases hg
  · rw [if_neg fun h => hpos h.1]
    exact ⟨s.rx, [], rfl, .ignored (fun h => absurd h.2.1 (by omega)) (fun h => hpos h.2.2)
      (fun h => absurd h.2 (by omega)), fun g hg => by cases hg⟩

theorem processConsecutiveFrame_effect (hrange : s.rx.InRange) (hid : f.id = s.config.rxId)
    (hpci : f.pci = 2) :
    ∃ rx, s.processConsecutiveFrame f = some { s with rx := rx } ∧
      RxEffect s.config.rxId s.rx f rx := by
  have hcell := f.get?_zero
  unfold processConsecutiveFrame
  cases hmulti : s.rx.receivingMulti with
  | false =>
    exact ⟨s.rx, rfl, .ignored (fun h => absurd h.2.1 (by omega))
      (fun h => absurd h.2.1 (by omega)) fun _ => hmulti⟩
  | true =>
    rw [hcell]
    change ∃ rx, (if f.low ≠ s.rx.sequence then _ else _) = _ ∧ _
    by_cases hseq : f.low = s.rx.sequence
    · rw [if_neg (not_not.mpr hseq)]
      change ∃ rx, (f.data.slice 1 s.rx.segment).bind _ = _ ∧ _
      have hroom := hrange.room hmulti
      have hle := s.rx.segment_le
      have hlen := f.length_bytes 1 s.rx.segment (by omega)
      obtain ⟨buffer, hblit, -⟩ :=
        s.rx.buffer.blit_eq_some s.rx.offset (f.bytes 1 s.rx.segment) (by omega)
      have htake := take_of_blit hblit
      rw [hlen] at htake
      have hoff : u64 (s.rx.offset + s.rx.segment) = s.rx.offset + s.rx.segment :=
        u64_of_lt (n := s.rx.offset + s.rx.segment) (by omega)
      refine ⟨_, ?_, .segment ⟨hid, hpci⟩ hmulti hseq htake⟩
      rw [f.slice_data (by omega), bind_some, hblit]
      change some { s with rx := { s.rx with
        buffer := buffer, offset := u64 (s.rx.offset + s.rx.segment),
        sequence := (s.rx.sequence + 1) &&& 0x0F,
        receivingMulti := !decide (u64 (s.rx.offset + s.rx.segment) ≥ s.rx.length) } } = _
      rw [hoff, and_0x0F]
    · rw [if_pos hseq]
      exact ⟨_, rfl, .sequenceError ⟨hid, hpci⟩ hmulti hseq⟩

/-- **A received frame has one of these effects**, on the receive side only, and
what it sends is flow control. -/
theorem handleFrame_effect (hrange : s.rx.InRange) (can : CANFrame → Bool) (f : CANFrame) :
    ∃ rx sent, s.handleFrame can f = some ({ s with rx := rx }, sent) ∧
      RxEffect s.config.rxId s.rx f rx ∧ ∀ g ∈ sent, g.pci = 3 := by
  have hcell := f.get?_zero
  unfold handleFrame
  by_cases hid : f.id = s.config.rxId
  · have hshift : (f.data.cell 0).toNat >>> 4 = f.pci := rfl
    simp only [if_pos hid, hcell, bind_eq_bind, bind_some, hshift]
    match hpci : f.pci with
    | 0 =>
      obtain ⟨rx, hrx, he⟩ := s.processSingleFrame_effect hid hpci
      exact ⟨rx, [], by rw [hrx]; rfl, he, fun g hg => by cases hg⟩
    | 1 => exact s.processFirstFrame_effect can hid hpci
    | 2 =>
      obtain ⟨rx, hrx, he⟩ := processConsecutiveFrame_effect hrange hid hpci
      exact ⟨rx, [], by rw [hrx]; rfl, he, fun g hg => by cases hg⟩
    | n + 3 =>
      exact ⟨s.rx, [], rfl, .ignored (fun h => absurd h.2.1 (by omega))
        (fun h => absurd h.2.1 (by omega)) (fun h => absurd h.2 (by omega)),
        fun g hg => by cases hg⟩
  · rw [if_neg hid]
    exact ⟨s.rx, [], rfl, .ignored (fun h => hid h.1) (fun h => hid h.1) (fun h => absurd h.1 hid),
      fun g hg => by cases hg⟩

/-- A call of `isotp_process` always gets through its frames, and only the receive side changes.
What no frame of the call takes from it, it keeps. -/
theorem handleFrames_keeps (can : CANFrame → Bool) (P : RxState → Prop) :
    ∀ (frames : List CANFrame) {s : Isotp}, s.rx.InRange →
    (∀ f ∈ frames, ∀ rx rx', RxEffect s.config.rxId rx f rx' → P rx → P rx') → P s.rx →
    ∃ rx sent, s.handleFrames can frames = some ({ s with rx := rx }, sent) ∧ rx.InRange ∧
      (∀ g ∈ sent, g.pci = 3) ∧ P rx
  | [], s, h, _, hs => ⟨s.rx, [], rfl, h, fun g hg => (by cases hg), hs⟩
  | f :: fs, s, h, hkeeps, hs => by
    obtain ⟨rx, sent, h₁, he, hsent⟩ := handleFrame_effect h can f
    obtain ⟨rx', sent', h₂, hrange, hsent', hend⟩ := handleFrames_keeps can P fs
      (s := { s with rx := rx }) (h.effect he) (fun g hg => hkeeps g (.tail _ hg))
      (hkeeps f (.head _) _ _ he hs)
    refine ⟨rx', sent ++ sent', ?_, hrange, fun g hg => ?_, hend⟩
    · simp [handleFrames, h₁, h₂]
    · rcases List.mem_append.mp hg with hg | hg
      · exact hsent g hg
      · exact hsent' g hg

theorem handleFrames_total (can : CANFrame → Bool) (frames : List CANFrame) {s : Isotp}
    (h : s.rx.InRange) : ∃ rx sent, s.handleFrames can frames = some ({ s with rx := rx }, sent) ∧
      rx.InRange ∧ ∀ g ∈ sent, g.pci = 3 := by
  obtain ⟨rx, sent, h₁, hrange, hsent, -⟩ :=
    handleFrames_keeps can (fun _ => True) frames h (fun _ _ _ _ _ _ => trivial) trivial
  exact ⟨rx, sent, h₁, hrange, hsent⟩

theorem handleFrames_append (can : CANFrame → Bool) : ∀ (xs ys : List CANFrame) {s t u : Isotp}
    {sent sent' : List CANFrame}, s.handleFrames can xs = some (t, sent) →
    t.handleFrames can ys = some (u, sent') →
    s.handleFrames can (xs ++ ys) = some (u, sent ++ sent')
  | [], ys, s, t, u, sent, sent', h, h' => by
    obtain ⟨rfl, rfl⟩ := h
    exact h'
  | x :: xs, ys, s, t, u, sent, sent', h, h' => by
    simp only [handleFrames, bind_eq_bind, bind_eq_some_iff, Option.some.injEq, Prod.mk.injEq] at h
    obtain ⟨⟨s₁, out₁⟩, h₁, ⟨s₂, out₂⟩, h₂, rfl, rfl⟩ := h
    simp [handleFrames, h₁, handleFrames_append can xs ys h₂ h']

theorem process_of_handleFrames
    (h : s.handleFrames can frames = some (s', sent)) (now : Nat) :
    ∃ t, s.process can now frames = some (t, sent) ∧ t.rx = s'.rx ∧ t.config = s'.config := by
  simp only [process, h, bind_eq_bind, bind_some]
  split
  all_goals exact ⟨_, rfl, rfl, rfl⟩

theorem process_of_not_waiting
    (h : s.handleFrames can frames = some (s', sent)) (hfc : s'.tx.waitingFc = false) (now : Nat) :
    s.process can now frames = some (s', sent) := by
  simp only [process, h, hfc, bind_eq_bind, bind_some]
  exact if_neg fun h => absurd h.1 Bool.false_ne_true

theorem receive_eq (h : s.rx.InRange) :
    (s.rx.receivingMulti = false ∧ 0 < s.rx.length ∧
      s.receive = some ({ s with rx := { s.rx with length := 0 } },
        some (s.rx.buffer.elems.take s.rx.length))) ∨
    (¬ (s.rx.receivingMulti = false ∧ 0 < s.rx.length) ∧ s.receive = some (s, none)) := by
  unfold receive
  by_cases hready : s.rx.receivingMulti = false ∧ 0 < s.rx.length
  · have hle := h.length_le
    refine .inl ⟨hready.1, hready.2, ?_⟩
    rw [if_pos ⟨by simp [hready.1], hready.2⟩, slice_eq_some (by omega)]
    rfl
  · exact .inr ⟨hready, if_neg fun h' => hready ⟨by simpa using h'.1, h'.2⟩⟩

end Isotp

end Cant.Protocols
