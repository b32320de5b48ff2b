/-
# `NetworkHandler` — the CAN side: transmit queue and receive parser

`network_handler.c` queues outgoing byte strings in `tx_queue[16][256]`, hands
the oldest to the CAN driver from `NetworkHandler_Process`, and collects what the
driver receives in `rx_buffer[2048]`, from which the same call cuts frames.

`tx_head` and `tx_tail` are reduced modulo `TX_QUEUE_SIZE` wherever they are assigned, so they are
`Fin 16`. A flow-control frame is read from `rx_data[8]` whatever the received length is.
-/
import Cant.Lib.Run
import Cant.Network.Frame

namespace Cant.Network

open Word Run Cant.Stream List Option Buf

structure NetworkConfig where
  baudrate : Nat
  txId : Nat
  minTxInterval : Nat
  blockSize : Nat
  stMin : Nat

/-- The statics of `network_handler.c`; `frameStart` is the static local of
`process_rx_buffer`. -/
structure NetworkHandler where
  rxBuffer : Buf UInt8 2048
  rxIndex : Nat
  frameStart : Nat
  txQueue : Buf (Buf UInt8 256) 16
  txLengths : Buf Nat 16
  txHead : Fin 16
  txTail : Fin 16
  netConfig : NetworkConfig
  canInitialized : Bool
  lastTxTime : Nat

/-- `network_handler.c` passes `length + 2` through the `uint8_t` argument of
`calc_checksum` and goes on behind a frame with a bad sum. -/
def networkRule : FrameRule where
  summed len := u8 (len + 2)
  skip len := len + 4
  summed_le len := by unfold u8; omega
  skip_pos len := by omega
  skip_le len := .refl

def networkScanner : Scanner UInt8 (List UInt8) := frameScanner networkRule

/-- `calc_checksum(&data[off], len)`; `len` is cut to `uint8_t` by the call. -/
def calcChecksum {n : Nat} (data : Buf UInt8 n) (off len : Nat) : Option UInt8 :=
  (data.slice off (u8 len)).map checksum8

/-- `CAN_Transmit`: `initDone` is the driver's flag, `halOk` whether
`HAL_CAN_AddTxMessage` took the frame. -/
def canTransmit (initDone halOk : Bool) (len : Nat) : Bool :=
  initDone && decide (len ≤ 8) && halOk

namespace NetworkHandler

def pending (s : NetworkHandler) : List UInt8 := s.rxBuffer.elems.take s.rxIndex

def queued (s : NetworkHandler) (i : Fin 16) : Option (List UInt8) := do
  let slot ← s.txQueue.get? i
  let len ← s.txLengths.get? i
  slot.slice 0 len

/-! ## Sending -/

def send (s : NetworkHandler) (data : List UInt8) : Option (NetworkHandler × Bool) :=
  if ¬ s.canInitialized ∨ data.length = 0 then some (s, false)
  else if s.txHead + 1 = s.txTail then some (s, false)
  else do
    let len := if data.length > 255 then 255 else data.length
    let slot ← s.txQueue.get? s.txHead
    let slot' ← slot.blit 0 (data.take len)
    let queue ← s.txQueue.blit s.txHead [slot']
    let lengths ← s.txLengths.blit s.txHead [u8 len]
    some ({ s with txQueue := queue, txLengths := lengths, txHead := s.txHead + 1 }, true)

abbrev QueueFull (s : NetworkHandler) : Prop := s.txHead + 1 = s.txTail

/-- `send_diagnostic_response`; `buffer` is the uninitialised local array. -/
def sendDiagnosticResponse (s : NetworkHandler) (buffer : Buf UInt8 270) (data : List UInt8) :
    Option (NetworkHandler × Bool) := do
  let buffer ← buffer.blit 0 [0x55]
  let buffer ← buffer.blit 1 [UInt8.ofNat data.length]
  let buffer ← buffer.blit 2 data
  let sum ← calcChecksum buffer 0 (data.length + 2)
  let buffer ← buffer.blit (data.length + 2) [sum]
  let buffer ← buffer.blit (data.length + 3) [0xAA]
  let out ← buffer.slice 0 (data.length + 4)
  s.send out

/-! ## Receiving -/

def processFlowControl (s : NetworkHandler) (now : Nat) (data : Buf UInt8 8) :
    Option NetworkHandler := do
  let flowStatus ← data.get? 1
  let blockSize ← data.get? 2
  let stMin ← data.get? 3
  match flowStatus.toNat with
  | 0 => some { s with
      netConfig := { s.netConfig with blockSize := blockSize.toNat, stMin := stMin.toNat } }
  | 1 => some { s with lastTxTime := u32 (now + 100) }
  | 2 => some { s with txHead := s.txTail }
  | _ => some s

def handleCanRx (s : NetworkHandler) (now : Nat) (data : Buf UInt8 8) (len : Nat) :
    Option NetworkHandler := do
  let rxIndex := if u32 (s.rxIndex + len) ≥ 2048 then 0 else s.rxIndex
  let bytes ← data.slice 0 len
  let rxBuffer ← s.rxBuffer.blit rxIndex bytes
  let s := { s with rxBuffer := rxBuffer, rxIndex := u32 (rxIndex + len) }
  let first ← data.get? 0
  if first = 0x30 then s.processFlowControl now data else some s

/-- `process_rx_buffer`: the new state and the messages handed to
`DiagRouter_HandleMessage`. -/
def processRxBuffer (s : NetworkHandler) : Option (NetworkHandler × List (List UInt8)) := do
  let (frameStart, msgs) ←
    Scanner.drain (framePass networkRule s.rxBuffer s.rxIndex) (s.rxIndex + 1) s.frameStart
  if frameStart > 0 then do
    let rest ← s.rxBuffer.slice frameStart (s.rxIndex - frameStart)
    let moved ← s.rxBuffer.blit 0 rest
    some ({ s with
      rxBuffer := moved, rxIndex := u32 (s.rxIndex - frameStart), frameStart := 0 }, msgs)
  else some ({ s with frameStart := frameStart }, msgs)

/-- What a call of `NetworkHandler_Process` does to the outside: the frame the
controller took and the messages routed. -/
structure ProcessOut where
  sent : Option (Nat × List UInt8)
  routed : List (List UInt8)

/-- The transmit half of `NetworkHandler_Process`: the oldest queued string goes
out if the interval has passed and the driver takes it. -/
def transmitHead (s : NetworkHandler) (now : Nat) (initDone halOk : Bool) :
    Option (NetworkHandler × Option (Nat × List UInt8)) :=
  if s.txHead ≠ s.txTail ∧ u32 (now - s.lastTxTime) ≥ s.netConfig.minTxInterval then do
    let slot ← s.txQueue.get? s.txTail
    let len ← s.txLengths.get? s.txTail
    if canTransmit initDone halOk len then do
      let data ← slot.slice 0 len
      some ({ s with txTail := s.txTail + 1, lastTxTime := now }, some (s.netConfig.txId, data))
    else some (s, none)
  else some (s, none)

def process (s : NetworkHandler) (now : Nat) (initDone halOk : Bool) :
    Option (NetworkHandler × ProcessOut) :=
  if ¬ s.canInitialized then some (s, ⟨none, []⟩)
  else do
    let (s, sent) ← s.transmitHead now initDone halOk
    let (s, routed) ← s.processRxBuffer
    some (s, ⟨sent, routed⟩)

end NetworkHandler

/-- A network handler with an empty queue and an empty receive side. -/
def idleHandler : NetworkHandler where
  rxBuffer := Buf.fill 2048 0
  rxIndex := 0
  frameStart := 0
  txQueue := Buf.fill 16 (Buf.fill 256 0)
  txLengths := Buf.fill 16 0
  txHead := 0
  txTail := 0
  netConfig := ⟨500000, 0x7E8, 10, 0, 0⟩
  canInitialized := true
  lastTxTime := 0

/-- What happens to a receiver: an interrupt with a received frame, or a call of
`NetworkHandler_Process`. -/
inductive NetEvent where
  | rx (now : Nat) (data : Buf UInt8 8) (len : Nat)
  | process (now : Nat) (initDone halOk : Bool)

def NetEvent.bytes : NetEvent → List UInt8
  | .rx _ data len => data.elems.take len
  | .process _ _ _ => []

def NetEvent.Wf : NetEvent → Prop
  | .rx _ _ len => len ≤ 8
  | .process _ _ _ => True

/-- One event; the output is what was routed. -/
def NetworkHandler.step (s : NetworkHandler) : NetEvent →
    Option (NetworkHandler × List (List UInt8))
  | .rx now data len => (s.handleCanRx now data len).map fun t => (t, [])
  | .process now initDone halOk => (s.process now initDone halOk).map fun r => (r.1, r.2.routed)

/-! ## What a response leaves in the queue -/

namespace NetworkHandler

theorem send_eq {s : NetworkHandler} (hinit : s.canInitialized = true)
    (hroom : s.txHead + 1 ≠ s.txTail) (data : List UInt8) (hne : 0 < data.length) :
    ∃ t, s.send data = some (t, true) ∧ t.queued s.txHead = some (data.take 255) := by
  have hcut : data.take (if data.length > 255 then 255 else data.length) = data.take 255 := by
    split
    · rfl
    · rw [take_of_length_le .refl, take_of_length_le (by omega)]
  have hlen : (data.take 255).length = if data.length > 255 then 255 else data.length := by
    rw [length_take]
    split <;> omega
  rw [← hlen] at hcut
  have hle : (data.take 255).length ≤ 255 := by
    rw [length_take]
    omega
  obtain ⟨slot, hslot⟩ := s.txQueue.get?_of_lt s.txHead.isLt
  obtain ⟨slot', hslot', -⟩ := slot.blit_eq_some 0 (data.take 255) (by omega)
  obtain ⟨queue, hqueue, -⟩ := s.txQueue.blit_eq_some s.txHead [slot']
    (by simp only [length_singleton]; omega)
  obtain ⟨lengths, hlengths, -⟩ := s.txLengths.blit_eq_some s.txHead [(data.take 255).length]
    (by simp only [length_singleton]; omega)
  have hu : u8 (data.take 255).length = (data.take 255).length := u8_of_lt (by omega)
  refine ⟨{ s with txQueue := queue, txLengths := lengths, txHead := s.txHead + 1 }, ?_, ?_⟩
  · unfold send
    rw [if_neg (by simp only [hinit, not_true, false_or]; omega), if_neg hroom]
    simp only [hcut, ← hlen, hu, hslot, hslot', hqueue, hlengths, bind_eq_bind, bind_some]
  · have htake := take_of_blit hslot'
    rw [Nat.zero_add] at htake
    simp only [queued, get?_blit_self hqueue, get?_blit_self hlengths,
      bind_eq_bind, bind_some]
    rw [slice_eq_some (by omega), drop_zero, htake]
    rfl

/-- The sum `send_diagnostic_response` puts behind a payload: `calc_checksum`
takes its length as `uint8_t`. -/
def responseSum (payload : List UInt8) : UInt8 :=
  checksum8 ((0x55 :: UInt8.ofNat payload.length :: payload).take (u8 (payload.length + 2)))

theorem sendDiagnosticResponse_eq {s : NetworkHandler} (hinit : s.canInitialized = true)
    (hroom : s.txHead + 1 ≠ s.txTail) (buffer : Buf UInt8 270) (payload : List UInt8)
    (hlen : payload.length ≤ 255) :
    ∃ t, s.sendDiagnosticResponse buffer payload = some (t, true) ∧
      t.queued s.txHead = some ((encodeFrame payload (responseSum payload)).take 255) := by
  have hu : u8 (payload.length + 2) ≤ payload.length + 2 := by unfold u8; omega
  obtain ⟨b₁, h₁, -⟩ := buffer.blit_eq_some 0 [0x55] (by simp only [length_singleton]; omega)
  obtain ⟨b₂, h₂, -⟩ := b₁.blit_eq_some 1 [UInt8.ofNat payload.length]
    (by simp only [length_singleton]; omega)
  obtain ⟨b₃, h₃, -⟩ := b₂.blit_eq_some 2 payload (by omega)
  obtain ⟨b₄, h₄, -⟩ := b₃.blit_eq_some (payload.length + 2) [responseSum payload]
    (by simp only [length_singleton]; omega)
  obtain ⟨b₅, h₅, -⟩ := b₄.blit_eq_some (payload.length + 3) [0xAA]
    (by simp only [length_singleton]; omega)
  have e₁ : b₁.elems.take 1 = [0x55] := take_of_blit h₁
  have e₂ : b₂.elems.take 2 = [0x55, UInt8.ofNat payload.length] := by
    rw [show 2 = 1 + [UInt8.ofNat payload.length].length from rfl, take_of_blit h₂, e₁]
    rfl
  have e₃ : b₃.elems.take (payload.length + 2)
      = 0x55 :: UInt8.ofNat payload.length :: payload := by
    rw [Nat.add_comm, take_of_blit h₃, e₂]
    rfl
  have e₄ : b₄.elems.take (payload.length + 3)
      = 0x55 :: UInt8.ofNat payload.length :: (payload ++ [responseSum payload]) := by
    rw [show payload.length + 3 = payload.length + 2 + [responseSum payload].length from rfl,
      take_of_blit h₄, e₃]
    rfl
  have e₅ : b₅.elems.take (payload.length + 4) = encodeFrame payload (responseSum payload) := by
    rw [show payload.length + 4 = payload.length + 3 + [(0xAA : UInt8)].length from rfl,
      take_of_blit h₅, e₄]
    simp [encodeFrame]
  have hsum : calcChecksum b₃ 0 (payload.length + 2) = some (responseSum payload) := by
    have hcast : ((payload.length + 2 : Nat) : Int) = payload.length + 2 := rfl
    rw [calcChecksum, hcast, slice_eq_some (by omega), responseSum, ← e₃,
      take_take, Nat.min_eq_left hu]
    rfl
  obtain ⟨t, ht, hq⟩ := send_eq hinit hroom
    (encodeFrame payload (responseSum payload)) (by rw [length_encodeFrame]; omega)
  refine ⟨t, ?_, hq⟩
  simp only [sendDiagnosticResponse, h₁, h₂, h₃, hsum, h₄, h₅, bind_eq_bind, bind_some]
  rw [slice_eq_some (by omega), drop_zero, e₅, bind_some, ht]

end NetworkHandler

/-! ## The receive side of a run

Whatever else an event does — flow control moves the transmit queue, a call of
`NetworkHandler_Process` may send — the receive side sees bytes appended and the
parser run. -/

namespace NetworkHandler

variable {s t : NetworkHandler}

structure SameRx (s t : NetworkHandler) : Prop where
  buffer : t.rxBuffer = s.rxBuffer
  index : t.rxIndex = s.rxIndex
  start : t.frameStart = s.frameStart
  init : t.canInitialized = s.canInitialized

/-- What holds of the receive side between events. -/
structure Quiet (s : NetworkHandler) : Prop where
  init : s.canInitialized = true
  start : s.frameStart = 0
  index_le : s.rxIndex ≤ 2048

theorem SameRx.pending (h : SameRx s t) : t.pending = s.pending := by
  rw [NetworkHandler.pending, h.buffer, h.index]
  rfl

theorem processFlowControl_sameRx (s : NetworkHandler) (now : Nat) (data : Buf UInt8 8) :
    ∃ t, s.processFlowControl now data = some t ∧ SameRx s t := by
  obtain ⟨f, hf⟩ := data.get?_of_lt (i := 1) (by omega)
  obtain ⟨b, hb⟩ := data.get?_of_lt (i := 2) (by omega)
  obtain ⟨m, hm⟩ := data.get?_of_lt (i := 3) (by omega)
  simp only [processFlowControl, hf, hb, hm, bind_eq_bind, bind_some]
  match f.toNat with
  | 0 => exact ⟨_, rfl, rfl, rfl, rfl, rfl⟩
  | 1 => exact ⟨_, rfl, rfl, rfl, rfl, rfl⟩
  | 2 => exact ⟨_, rfl, rfl, rfl, rfl, rfl⟩
  | _ + 3 => exact ⟨_, rfl, rfl, rfl, rfl, rfl⟩

theorem handleCanRx_eq (now : Nat) (data : Buf UInt8 8) {len : Nat} (hlen : len ≤ 8)
    (hroom : s.rxIndex + len < 2048) :
    ∃ t, s.handleCanRx now data len = some t ∧
      t.pending = s.pending ++ data.elems.take len ∧ t.rxIndex = s.rxIndex + len ∧
      t.frameStart = s.frameStart ∧ t.canInitialized = s.canInitialized := by
  have hsum : u32 (s.rxIndex + len) = s.rxIndex + len := u32_of_lt (n := s.rxIndex + len) (by omega)
  have hslice : data.slice 0 len = some (data.elems.take len) := by
    rw [slice_eq_some (by omega), drop_zero]
  have hbytes : (data.elems.take len).length = len := by
    rw [length_take, data.size_eq]
    omega
  obtain ⟨filled, hblit, -⟩ := s.rxBuffer.blit_eq_some s.rxIndex (data.elems.take len) (by omega)
  have hpend := take_of_blit hblit
  rw [hbytes] at hpend
  obtain ⟨first, hfirst⟩ := data.get?_of_lt (i := 0) (by omega)
  simp only [handleCanRx, hsum, if_neg (by omega : ¬ s.rxIndex + len ≥ 2048), hslice, hblit, hfirst,
    bind_eq_bind, bind_some]
  by_cases hfc : first = 0x30
  · rw [if_pos hfc]
    obtain ⟨t, ht, hsame⟩ := processFlowControl_sameRx
      { s with rxBuffer := filled, rxIndex := s.rxIndex + len } now data
    exact ⟨t, ht, hsame.pending.trans hpend, hsame.index, hsame.start, hsame.init⟩
  · rw [if_neg hfc]
    exact ⟨_, rfl, hpend, rfl, rfl, rfl⟩

theorem transmitHead_sameRx (s : NetworkHandler) (now : Nat) (initDone halOk : Bool) :
    ∃ t sent, s.transmitHead now initDone halOk = some (t, sent) ∧ SameRx s t := by
  have hstay : SameRx s s := ⟨rfl, rfl, rfl, rfl⟩
  unfold transmitHead
  split
  · obtain ⟨slot, hslot⟩ := s.txQueue.get?_of_lt s.txTail.isLt
    obtain ⟨len, hlen⟩ := s.txLengths.get?_of_lt s.txTail.isLt
    simp only [hslot, hlen, bind_eq_bind, bind_some]
    by_cases hc : canTransmit initDone halOk len
    · -- the driver takes at most eight bytes, so the slot is not overrun
      have hle : len ≤ 8 := by
        simp only [canTransmit, Bool.and_eq_true, decide_eq_true_eq] at hc
        exact hc.1.2
      rw [if_pos hc, slice_eq_some (by omega)]
      exact ⟨_, _, rfl, rfl, rfl, rfl, rfl⟩
    · rw [if_neg hc]
      exact ⟨s, none, rfl, hstay⟩
  · exact ⟨s, none, rfl, hstay⟩

theorem processRxBuffer_eq (h : s.Quiet) :
    ∃ t, s.processRxBuffer = some (t, (networkScanner.scan s.pending).1) ∧
      t.pending = (networkScanner.scan s.pending).2 ∧ t.Quiet ∧ t.rxIndex ≤ s.rxIndex := by
  obtain ⟨p, hd, hp, hrest⟩ := drain_framePass networkRule s.rxBuffer h.index_le (by omega)
  have hle := h.index_le
  simp only [processRxBuffer, h.start, hd, bind_eq_bind, bind_some]
  by_cases hzero : p > 0
  · obtain ⟨rest, moved, hslice, hblit, hfront⟩ := s.rxBuffer.moveFront hle hp
    have hu : u32 (s.rxIndex - p) = s.rxIndex - p := u32_sub hp (by omega)
    simp only [if_pos hzero, hslice, hblit, hu, bind_some]
    refine ⟨_, rfl, hfront.trans hrest, ⟨h.init, rfl, ?_⟩, ?_⟩
    · show s.rxIndex - p ≤ 2048
      omega
    · show s.rxIndex - p ≤ s.rxIndex
      omega
  · obtain rfl : p = 0 := by omega
    exact ⟨_, rfl, hrest, ⟨h.init, rfl, hle⟩, .refl⟩

theorem process_eq (h : s.Quiet) (now : Nat) (initDone halOk : Bool) :
    ∃ t out, s.process now initDone halOk = some (t, out) ∧
      out.routed = (networkScanner.scan s.pending).1 ∧
      t.pending = (networkScanner.scan s.pending).2 ∧ t.Quiet ∧ t.rxIndex ≤ s.rxIndex := by
  obtain ⟨s₁, sent, h₁, hsame⟩ := s.transmitHead_sameRx now initDone halOk
  have hq : s₁.Quiet := ⟨hsame.init.trans h.init, hsame.start.trans h.start,
    hsame.index.symm ▸ h.index_le⟩
  obtain ⟨t, ht, hrest, hquiet, hidx⟩ := processRxBuffer_eq hq
  rw [hsame.pending] at ht hrest
  rw [hsame.index] at hidx
  refine ⟨t, ⟨sent, _⟩, ?_, rfl, hrest, hquiet, hidx⟩
  simp [process, h.init, h₁, ht]

/-- A run scans the bytes it brings in behind the ones already buffered; what
has been routed and what is still buffered make up the scan of the whole. -/
theorem run_eq_scan : ∀ (evs : List NetEvent) {s : NetworkHandler}, s.Quiet →
    (∀ e ∈ evs, e.Wf) → s.rxIndex + (evs.flatMap NetEvent.bytes).length < 2048 →
    ∃ t outs, run step s evs = some (t, outs) ∧ t.Quiet ∧
      networkScanner.scan (s.pending ++ evs.flatMap NetEvent.bytes) =
        (outs.flatten ++ (networkScanner.scan t.pending).1, (networkScanner.scan t.pending).2)
  | [], s, h, _, _ => ⟨s, [], rfl, h, by simp⟩
  | .rx now data len :: evs, s, h, hwf, hroom => by
    have hlen : len ≤ 8 := hwf _ mem_cons_self
    have hbytes : (data.elems.take len).length = len := by
      rw [length_take, data.size_eq]
      omega
    simp only [flatMap_cons, NetEvent.bytes, length_append, hbytes] at hroom
    obtain ⟨t₁, h₁, hpend, hidx, hstart, hinit⟩ :=
      handleCanRx_eq (s := s) now data hlen (by omega)
    obtain ⟨t, outs, hrun, hquiet, hscan⟩ := run_eq_scan evs (s := t₁)
      ⟨hinit.trans h.init, hstart.trans h.start, by omega⟩
      (fun e he => hwf e (.tail _ he)) (by omega)
    refine ⟨t, [] :: outs, run_cons.mpr ⟨t₁, [], outs, ?_, hrun, rfl⟩, hquiet, ?_⟩
    · simp [step, h₁]
    · rw [hpend, append_assoc] at hscan
      exact hscan
  | .process now initDone halOk :: evs, s, h, hwf, hroom => by
    simp only [flatMap_cons, NetEvent.bytes, nil_append] at hroom
    obtain ⟨t₁, out, h₁, hrouted, hpend, hquiet₁, hidx⟩ := process_eq h now initDone halOk
    obtain ⟨t, outs, hrun, hquiet, hscan⟩ := run_eq_scan evs hquiet₁
      (fun e he => hwf e (.tail _ he)) (by omega)
    refine ⟨t, out.routed :: outs, run_cons.mpr ⟨t₁, out.routed, outs, ?_, hrun, rfl⟩, hquiet, ?_⟩
    · simp [step, h₁]
    · show networkScanner.scan (s.pending ++ evs.flatMap NetEvent.bytes) = _
      rw [networkScanner.scan_append, ← hpend, hscan, flatten_cons, hrouted, append_assoc]

end NetworkHandler

end Cant.Network
