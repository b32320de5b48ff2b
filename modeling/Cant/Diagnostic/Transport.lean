/-
# `Transport` — the diagnostic transport and its request

It puts a request together in `rx_state.buffer` and hands it to `UDS_Handler_ProcessRequest` as a
`UdsMessage`.

`UdsMessage.data` is a pointer, `none` when it is NULL. The request of
`Diag_Transport_ProcessReceived` is `{0}`, so its `data` is NULL, and the payload
is copied through it. That is undefined in C; `NullWrite` is what a platform may
make of it, a trap or bytes that go nowhere, and every result holds for both.

The UDS handler is a parameter with a state of its own.
-/
import Cant.Lib.Buf
import Cant.Lib.Run
import Cant.Lib.Word
import Cant.Diagnostic.Uds

namespace Cant.Diagnostic

open Word Run List Option

inductive TransportState where
  | idle
  | receivingMultiFrame
  | sendingMultiFrame
  | waitingFlowControl
  | sendingFlowControl
  deriving DecidableEq

inductive TransportError where
  | none
  | timeout
  | sequence
  | overflow
  | invalidFrame
  | busy
  deriving DecidableEq

/-- `UdsMessage`; `data` is NULL or points to some bytes. -/
structure UdsMessage where
  serviceId : Nat
  subFunction : Nat
  data : Option (List UInt8)
  length : Nat
  deriving DecidableEq

def UdsMessage.zero : UdsMessage := ⟨0, 0, none, 0⟩

/-- What becomes of a write through NULL. -/
inductive NullWrite where
  | traps
  | passes

/-- `memcpy(dst, src, n)`, `src` being the `n` bytes; the object pointed to
afterwards. -/
def memcpy (platform : NullWrite) (dst : Option (List UInt8)) (src : List UInt8) :
    Option (Option (List UInt8)) :=
  match dst, platform with
  | some bytes, _ =>
    if src.length ≤ bytes.length then some (some (Buf.blitList bytes 0 src)) else none
  | none, .traps => none
  | none, .passes => some none

structure RxSide where
  state : TransportState
  buffer : Buf UInt8 4096
  bufferIndex : Nat
  expectedLength : Nat
  sequenceNumber : Nat
  blockCounter : Nat
  initialized : Bool
  lastError : TransportError

structure TxSide where
  state : TransportState
  buffer : Buf UInt8 4096
  bufferLength : Nat
  bufferIndex : Nat
  sequenceNumber : Nat
  blockCounter : Nat

/-- The static `transport`; of its configuration only `block_size` is read. -/
structure DiagTransport where
  blockSize : Nat
  rx : RxSide
  tx : TxSide

/-- `UDS_Handler_ProcessRequest` on a handler with state `σ`, given a zeroed
response: the answer and the response. -/
abbrev UdsHandler (σ : Type) : Type := σ → UdsMessage → σ × UdsResponseCode × UdsMessage

namespace DiagTransport

variable {σ : Type}

def resetRxState (s : DiagTransport) : DiagTransport :=
  { s with rx := { s.rx with
      state := .idle, bufferIndex := 0, expectedLength := 0, sequenceNumber := 0,
      blockCounter := 0, lastError := .none } }

def resetTxState (s : DiagTransport) : DiagTransport :=
  { s with tx := { s.tx with
      state := .idle, bufferLength := 0, bufferIndex := 0, sequenceNumber := 0,
      blockCounter := 0 } }

def init (s : DiagTransport) (blockSize : Nat) : DiagTransport :=
  let s := ({ s with blockSize := blockSize }).resetRxState.resetTxState
  { s with rx := { s.rx with initialized := true } }

/-- `n` bytes behind a pointer, from index `off` on. -/
def readBytes (data : List UInt8) (off n : Nat) : Option (List UInt8) :=
  if off + n ≤ data.length then some ((data.drop off).take n) else none

def sendResponse (s : DiagTransport) (data : Option (List UInt8)) (length : Nat) :
    Option (DiagTransport × Bool) :=
  match data with
  | none => some (s, false)
  | some data =>
    if ¬ s.rx.initialized ∨ length = 0 then some (s, false)
    else if s.tx.state ≠ .idle then
      some ({ s with rx := { s.rx with lastError := .busy } }, false)
    else do
      let bytes ← readBytes data 0 length
      if length ≤ 7 then some (s, true)
      else do
        let buffer ← s.tx.buffer.blit 0 bytes
        some ({ s with tx := { s.tx with
          buffer := buffer, bufferLength := length, bufferIndex := 6, sequenceNumber := 1,
          state := .waitingFlowControl } }, true)

/-- What `Diag_Transport_ProcessReceived` does with a payload it has complete:
the request is made and handed over, and the response goes out. A negative
response does not touch the transport. -/
def dispatch (platform : NullWrite) (handler : UdsHandler σ) (s : DiagTransport) (uds : σ)
    (payload : List UInt8) : Option ((DiagTransport × σ) × List UdsMessage) := do
  let request := UdsMessage.zero
  let data ← memcpy platform request.data payload
  let request := { request with data := data, length := payload.length }
  let (uds, result, response) := handler uds request
  if result = .positive then do
    let (s, _) ← s.sendResponse response.data response.length
    some ((s, uds), [request])
  else some ((s, uds), [request])

def processFirst (s : DiagTransport) (data : List UInt8) : Option DiagTransport := do
  let head ← data[0]?
  let next ← data[1]?
  let totalLength := ((head.toNat &&& 0x0F) <<< 8) ||| next.toNat
  if totalLength > 4096 then
    some ({ s with rx := { s.rx with lastError := .overflow } }).resetRxState
  else do
    let bytes ← readBytes data 2 6
    let buffer ← s.rx.buffer.blit 0 bytes
    some { s with rx := { s.rx with
      buffer := buffer, bufferIndex := 6, expectedLength := totalLength, sequenceNumber := 1,
      state := .receivingMultiFrame } }

def processConsecutive (platform : NullWrite) (handler : UdsHandler σ) (s : DiagTransport)
    (uds : σ) (data : List UInt8) : Option ((DiagTransport × σ) × List UdsMessage) :=
  if s.rx.state ≠ .receivingMultiFrame then
    some (((({ s with rx := { s.rx with lastError := .sequence } }).resetRxState), uds), [])
  else do
    let sequence := (← data[0]?).toNat &&& 0x0F
    if sequence ≠ s.rx.sequenceNumber then
      some (((({ s with rx := { s.rx with lastError := .sequence } }).resetRxState), uds), [])
    else do
      let remaining := u16 (s.rx.expectedLength - s.rx.bufferIndex)
      let copyLength := if remaining > 7 then 7 else remaining
      let bytes ← readBytes data 1 copyLength
      let buffer ← s.rx.buffer.blit s.rx.bufferIndex bytes
      let s := { s with rx := { s.rx with
        buffer := buffer, bufferIndex := u16 (s.rx.bufferIndex + copyLength) } }
      if s.rx.bufferIndex ≥ s.rx.expectedLength then do
        let payload ← s.rx.buffer.slice 0 s.rx.expectedLength
        let ((s, uds), requests) ← dispatch platform handler s uds payload
        some ((s.resetRxState, uds), requests)
      else
        let blockCounter := u8 (s.rx.blockCounter + 1)
        some (({ s with rx := { s.rx with
          sequenceNumber := (s.rx.sequenceNumber + 1) &&& 0x0F,
          blockCounter := if blockCounter ≥ s.blockSize then 0 else blockCounter } }, uds), [])

def processFlowControl (s : DiagTransport) (data : List UInt8) : Option DiagTransport :=
  if s.tx.state ≠ .waitingFlowControl then some s
  else do
    let head ← data[0]?
    let _ ← data[1]?
    let _ ← data[2]?
    match head.toNat &&& 0x0F with
    | 0 => some { s with tx := { s.tx with state := .sendingMultiFrame } }
    | 2 => some ({ s with rx := { s.rx with lastError := .overflow } }).resetTxState
    | _ => some s

/-- `Diag_Transport_ProcessReceived`, with the requests handed to the UDS handler. -/
def processReceived (platform : NullWrite) (handler : UdsHandler σ) :
    DiagTransport × σ → List UInt8 → Option ((DiagTransport × σ) × List UdsMessage)
  | (s, uds), data =>
    if ¬ s.rx.initialized ∨ data.length = 0 then some ((s, uds), [])
    else do
      let head ← data[0]?
      match (head.toNat >>> 4) &&& 0x0F with
      | 0 =>
        let dataLength := head.toNat &&& 0x0F
        if dataLength > 0 ∧ dataLength ≤ 7 then do
          let payload ← readBytes data 1 dataLength
          dispatch platform handler s uds payload
        else some ((s, uds), [])
      | 1 => (s.processFirst data).map fun s => ((s, uds), [])
      | 2 => processConsecutive platform handler s uds data
      | 3 => (s.processFlowControl data).map fun s => ((s, uds), [])
      | _ => some ((s, uds), [])

end DiagTransport

/-! ## A payload in frames -/

/-- The bytes `rest` in consecutive frames, the first of them numbered `n`; the
last may be padded. -/
inductive Consecutive : Nat → List UInt8 → List (List UInt8) → Prop
  | last {n : Nat} {seg pad : List UInt8} : 0 < seg.length → seg.length ≤ 7 →
      Consecutive n seg [UInt8.ofNat ((2 <<< 4) ||| (n % 16)) :: (seg ++ pad)]
  | more {n : Nat} {seg rest : List UInt8} {frames : List (List UInt8)} : seg.length = 7 →
      Consecutive (n + 1) rest frames →
      Consecutive n (seg ++ rest) ((UInt8.ofNat ((2 <<< 4) ||| (n % 16)) :: seg) :: frames)

/-- A payload split into ISO-TP frames: a single frame, which may be padded, or a
first frame and consecutive frames in order. -/
inductive Segmented : List UInt8 → List (List UInt8) → Prop
  | single {payload pad : List UInt8} : 0 < payload.length → payload.length ≤ 7 →
      Segmented payload [UInt8.ofNat ((0 <<< 4) ||| payload.length) :: (payload ++ pad)]
  | multi {six rest : List UInt8} {frames : List (List UInt8)} : six.length = 6 →
      7 < six.length + rest.length → six.length + rest.length ≤ 4095 →
      Consecutive 1 rest frames →
      Segmented (six ++ rest)
        ((UInt8.ofNat ((1 <<< 4) ||| (((six.length + rest.length) >>> 8) &&& 0x0F)) ::
          UInt8.ofNat ((six.length + rest.length) &&& 0xFF) :: six) :: frames)

/-! ## The request that is made

Whatever the payload, the request has a NULL `data` and a zero `service_id`. -/

namespace DiagTransport

variable {n total : Nat} {frame : List UInt8} {t : DiagTransport} {frames : List (List UInt8)}
variable {σ : Type} {platform : NullWrite} {handler : UdsHandler σ} {s : DiagTransport} {uds : σ}

theorem dispatch_passes (payload : List UInt8) :
    dispatch .passes handler s uds payload =
      let request : UdsMessage := ⟨0, 0, none, payload.length⟩
      if (handler uds request).2.1 = .positive then
        (s.sendResponse (handler uds request).2.2.data (handler uds request).2.2.length).bind
          fun r => some ((r.1, (handler uds request).1), [request])
      else some ((s, (handler uds request).1), [request]) := rfl

variable {payload : List UInt8}

theorem dispatch_requests {t : DiagTransport × σ} {requests : List UdsMessage}
    (h : dispatch platform handler s uds payload = some (t, requests)) :
    requests = [⟨0, 0, none, payload.length⟩] := by
  cases platform with
  | traps => cases h
  | passes =>
    rw [dispatch_passes] at h
    dsimp only at h
    split at h
    · obtain ⟨_, -, h⟩ := bind_eq_some_iff.mp h
      exact (Prod.mk.inj (Option.some.inj h)).2.symm
    · exact (Prod.mk.inj (Option.some.inj h)).2.symm

/-! ## Reassembly -/

/-- A request under way: `done` is in the buffer, `total` bytes are expected, and
the next frame is number `n`. -/
structure Gathering (s : DiagTransport) (done : List UInt8) (n total : Nat) : Prop where
  init : s.rx.initialized = true
  state : s.rx.state = .receivingMultiFrame
  index : s.rx.bufferIndex = done.length
  held : s.rx.buffer.elems.take done.length = done
  expected : s.rx.expectedLength = total
  sequence : s.rx.sequenceNumber = n % 16

theorem readBytes_cons_append (b : UInt8) (seg pad : List UInt8) :
    readBytes (b :: (seg ++ pad)) 1 seg.length = some seg := by
  rw [readBytes, if_pos (by simp only [length_cons, length_append]; omega),
    drop_succ_cons, drop_zero, take_left']
  rfl

/-- What a consecutive frame with the right number is worth, up to the question
whether it was the last. -/
theorem Gathering.processReceived_eq {done : List UInt8}
    (h : s.Gathering done n total) (platform : NullWrite) (handler : UdsHandler σ) (uds : σ)
    (seg pad : List UInt8) (htotal : total ≤ 4095)
    (hseg : seg.length = min 7 (total - done.length)) (hle : done.length ≤ total) :
    ∃ buffer : Buf UInt8 4096, buffer.elems.take (done.length + seg.length) = done ++ seg ∧
      processReceived platform handler (s, uds)
          (UInt8.ofNat ((2 <<< 4) ||| (n % 16)) :: (seg ++ pad)) =
        if done.length + seg.length ≥ total then
          (dispatch platform handler { s with rx := { s.rx with
            buffer := buffer, bufferIndex := done.length + seg.length } } uds
            (buffer.elems.take total)).map fun r => ((r.1.1.resetRxState, r.1.2), r.2)
        else some (({ s with rx := { s.rx with
          buffer := buffer, bufferIndex := done.length + seg.length,
          sequenceNumber := (s.rx.sequenceNumber + 1) &&& 0x0F,
          blockCounter := if u8 (s.rx.blockCounter + 1) ≥ s.blockSize then 0
            else u8 (s.rx.blockCounter + 1) } }, uds), []) := by
  have hmod : n % 16 < 16 := Nat.mod_lt _ (by omega)
  obtain ⟨buffer, hblit, -⟩ := s.rx.buffer.blit_eq_some done.length seg (by omega)
  have hheld := Buf.take_of_blit hblit
  rw [h.held] at hheld
  refine ⟨buffer, hheld, ?_⟩
  have hrem : u16 (total - done.length) = total - done.length := by unfold u16; omega
  have hcopy : (if total - done.length > 7 then 7 else total - done.length) = seg.length := by
    split <;> omega
  have hindex : u16 (done.length + seg.length) = done.length + seg.length :=
    u16_of_lt (n := done.length + seg.length) (by omega)
  have hguard : ¬ (¬ s.rx.initialized = true ∨
      (UInt8.ofNat ((2 <<< 4) ||| (n % 16)) :: (seg ++ pad)).length = 0) := by
    simp [h.init]
  have htype : ((UInt8.ofNat ((2 <<< 4) ||| (n % 16))).toNat >>> 4) &&& 0x0F = 2 := by
    rw [nibbles_shr (by omega) hmod]
    rfl
  have hseq : (UInt8.ofNat ((2 <<< 4) ||| (n % 16))).toNat &&& 0x0F = n % 16 :=
    nibbles_and (by omega) hmod
  simp only [processReceived, if_neg hguard, getElem?_cons_zero, htype, bind_eq_bind,
    bind_some, processConsecutive, h.state, ne_eq, not_true, if_false, hseq, h.sequence,
    h.expected, h.index, hrem, hcopy, readBytes_cons_append, hblit, hindex]
  split
  · rw [Buf.slice_eq_some (by omega), drop_zero, bind_some]
    cases dispatch platform handler _ uds (List.take total buffer.elems) with
    | none | some r => rfl
  · rfl

/-- The outcome of a run, when the payload is complete and goes to the handler:
a trap, or one request that has lost it. -/
def Lost (platform : NullWrite) (payload : List UInt8)
    (result : Option ((DiagTransport × σ) × List (List UdsMessage))) : Prop :=
  (platform = .traps → result = none) ∧
    ∀ t outs, result = some (t, outs) → outs.flatten = [⟨0, 0, none, payload.length⟩]

theorem lost_of_dispatch
    {f : (DiagTransport × σ) × List UdsMessage → (DiagTransport × σ) × List UdsMessage}
    (h : processReceived platform handler (s, uds) frame
      = (dispatch platform handler t uds payload).map f) (hf : ∀ r, (f r).2 = r.2) :
    Lost platform payload (run (processReceived platform handler) (s, uds) [frame]) := by
  constructor
  · rintro rfl
    have htraps : dispatch .traps handler t uds payload = none := rfl
    simp [run, h, htraps]
  · intro u outs hrun
    obtain ⟨s', o, os, hs, hnil, rfl⟩ := run_cons.mp hrun
    obtain ⟨-, rfl⟩ := hnil
    obtain ⟨r, hr, hfr⟩ := map_eq_some_iff.mp (h.symm.trans hs)
    have hreq := dispatch_requests hr
    have ho : o = r.2 := by rw [← hf r, hfr]
    simp [ho, hreq]

theorem Lost.cons
    (h : Lost platform payload (run (processReceived platform handler) (t, uds) frames))
    (hstep : processReceived platform handler (s, uds) frame = some ((t, uds), [])) :
    Lost platform payload (run (processReceived platform handler) (s, uds) (frame :: frames)) := by
  constructor
  · intro hp
    simp only [run, hstep, h.1 hp]
  · intro u outs hrun
    obtain ⟨s', o, os, hs, hrest, rfl⟩ := run_cons.mp hrun
    cases mem_unique hstep hs
    exact h.2 u os hrest

/-- **The consecutive frames of a request.** Every segment but the last is put
behind the others, and the last one completes the request. -/
theorem Gathering.run {rest : List UInt8}
    (hc : Consecutive n rest frames) : ∀ {s : DiagTransport} {done : List UInt8},
    s.Gathering done n (done.length + rest.length) → done.length + rest.length ≤ 4095 →
    Lost platform (done ++ rest) (Run.run (processReceived platform handler) (s, uds) frames) := by
  induction hc with
  | @last n seg pad hpos hle =>
    intro s done h htotal
    obtain ⟨buffer, hbuf, hstep⟩ := h.processReceived_eq platform handler uds
      seg pad htotal (by omega) (by omega)
    rw [if_pos .refl, hbuf] at hstep
    exact lost_of_dispatch hstep fun _ => rfl
  | @more n seg rest frames hseven hrest ih =>
    intro s done h htotal
    have hpos : 0 < rest.length := by
      cases hrest with
      | last hpos => exact hpos
      | more hseven => rw [length_append]; omega
    rw [length_append] at h htotal
    obtain ⟨buffer, hbuf, hstep⟩ := h.processReceived_eq platform handler uds
      seg [] htotal (by omega) (by omega)
    rw [if_neg (by omega), append_nil] at hstep
    have hseq : (s.rx.sequenceNumber + 1) &&& 0x0F = (n + 1) % 16 := by
      rw [and_0x0F, h.sequence]
      omega
    have hsum : (done ++ seg).length = done.length + seg.length := length_append
    have hnext : Gathering { s with rx := { s.rx with
        buffer := buffer, bufferIndex := done.length + seg.length,
        sequenceNumber := (s.rx.sequenceNumber + 1) &&& 0x0F,
        blockCounter := if u8 (s.rx.blockCounter + 1) ≥ s.blockSize then 0
          else u8 (s.rx.blockCounter + 1) } }
        (done ++ seg) (n + 1) ((done ++ seg).length + rest.length) :=
      ⟨h.init, h.state, hsum.symm, by rw [hsum]; exact hbuf,
        by rw [hsum, Nat.add_assoc]; exact h.expected, hseq⟩
    have hlost := ih hnext (by omega)
    rw [append_assoc] at hlost
    exact hlost.cons hstep

theorem processReceived_first (platform : NullWrite) (handler : UdsHandler σ) (uds : σ)
    (hinit : s.rx.initialized = true) {six : List UInt8} (hsix : six.length = 6)
    (htotal : total ≤ 4095) :
    ∃ t, processReceived platform handler (s, uds)
        (UInt8.ofNat ((1 <<< 4) ||| ((total >>> 8) &&& 0x0F)) ::
          UInt8.ofNat (total &&& 0xFF) :: six) = some ((t, uds), []) ∧ t.Gathering six 1 total := by
  have hhigh : (total >>> 8) &&& 0x0F = total / 256 := by
    rw [and_0x0F]
    omega
  obtain ⟨buffer, hblit, -⟩ := s.rx.buffer.blit_eq_some 0 six (by omega)
  have hheld := Buf.take_of_blit hblit
  rw [Nat.zero_add] at hheld
  have htype : ((UInt8.ofNat ((1 <<< 4) ||| (total / 256))).toNat >>> 4) &&& 0x0F = 1 := by
    rw [nibbles_shr (by omega) (by omega)]
    rfl
  have hlow : (UInt8.ofNat ((1 <<< 4) ||| (total / 256))).toNat &&& 0x0F = total / 256 :=
    nibbles_and (by omega) (by omega)
  have hlen : ((total / 256) <<< 8) ||| (UInt8.ofNat (total &&& 0xFF)).toNat = total := by
    rw [and_0xFF, UInt8.toNat_ofNat', ← Nat.shiftLeft_add_eq_or_of_lt (by omega)]
    omega
  have hread : readBytes (UInt8.ofNat ((1 <<< 4) ||| (total / 256)) ::
      UInt8.ofNat (total &&& 0xFF) :: six) 2 6 = some six := by
    rw [readBytes, if_pos (by simp only [length_cons]; omega), drop_succ_cons,
      drop_succ_cons, drop_zero, take_of_length_le (by omega)]
  refine ⟨{ s with rx := { s.rx with
    buffer := buffer, bufferIndex := 6, expectedLength := total, sequenceNumber := 1,
    state := .receivingMultiFrame } }, ?_, hinit, rfl, hsix.symm, hheld, rfl, rfl⟩
  rw [hhigh]
  simp only [processReceived, hinit, not_true, false_or, length_cons, Nat.add_eq_zero_iff,
    Nat.succ_ne_self, and_false, if_false, getElem?_cons_zero, getElem?_cons_succ, htype,
    processFirst, hlow, hlen, hread, hblit, if_neg (by omega : ¬ total > 4096),
    bind_eq_bind, bind_some, map_some]

/-- What should come of a payload: the handler is called exactly once, for the
service of the first byte, with a pointer to the payload and its length. -/
def HandedOver (payload : List UInt8)
    (result : Option ((DiagTransport × σ) × List (List UdsMessage))) : Prop :=
  ∃ t outs request, result = some (t, outs) ∧ outs.flatten = [request] ∧
    some request.serviceId = payload.head?.map UInt8.toNat ∧ request.data = some payload ∧
    request.length = payload.length

theorem Lost.not_handedOver {result : Option ((DiagTransport × σ) × List (List UdsMessage))}
    (h : Lost platform payload result) : ¬ HandedOver payload result := by
  rintro ⟨t, outs, request, hrun, hone, -, hdata, -⟩
  have hreq := h.2 t outs hrun
  rw [hone, List.cons.injEq] at hreq
  rw [hreq.1] at hdata
  cases hdata

theorem lost_single (platform : NullWrite) (handler : UdsHandler σ) (uds : σ)
    (hinit : s.rx.initialized = true) (payload pad : List UInt8)
    (hpos : 0 < payload.length) (hle : payload.length ≤ 7) :
    Lost platform payload (Run.run (processReceived platform handler) (s, uds)
      [UInt8.ofNat ((0 <<< 4) ||| payload.length) :: (payload ++ pad)]) := by
  have htype : ((UInt8.ofNat ((0 <<< 4) ||| payload.length)).toNat >>> 4) &&& 0x0F = 0 := by
    rw [nibbles_shr (by omega) (by omega)]
    rfl
  have hlen : (UInt8.ofNat ((0 <<< 4) ||| payload.length)).toNat &&& 0x0F = payload.length :=
    nibbles_and (by omega) (by omega)
  refine lost_of_dispatch (f := id) (t := s) ?_ fun _ => rfl
  rw [Option.map_id]
  simp only [processReceived, getElem?_cons_zero, htype, hlen, bind_eq_bind,
    bind_some, readBytes_cons_append]
  rw [if_neg (by simp [hinit]), if_pos ⟨hpos, hle⟩]
  rfl

end DiagTransport

/-- **No request of 1 to 4095 bytes reaches the handler with its payload.** Where a write through
NULL traps, the run ends in it; where it passes, the handler is called once, but with a NULL `data`
and `service_id` zero. -/
theorem request_never_handed_over {σ : Type} (platform : NullWrite) (handler : UdsHandler σ)
    (s : DiagTransport) (blockSize : Nat) (uds : σ) (payload : List UInt8)
    (frames : List (List UInt8)) (h : Segmented payload frames) :
    (platform = .traps →
      run (DiagTransport.processReceived platform handler) (s.init blockSize, uds) frames = none) ∧
    (∀ t outs,
      run (DiagTransport.processReceived platform handler) (s.init blockSize, uds) frames
        = some (t, outs) → outs.flatten = [⟨0, 0, none, payload.length⟩]) ∧
    ¬ DiagTransport.HandedOver payload
      (run (DiagTransport.processReceived platform handler) (s.init blockSize, uds) frames) := by
  have hlost : DiagTransport.Lost platform payload
      (run (DiagTransport.processReceived platform handler) (s.init blockSize, uds) frames) := by
    cases h with
    | @single _ pad hpos hle =>
      exact DiagTransport.lost_single platform handler uds rfl payload pad hpos hle
    | @multi six rest frames hsix hlong htotal hrest =>
      obtain ⟨t, ht, hgather⟩ := DiagTransport.processReceived_first platform handler uds
        (s := s.init blockSize) rfl hsix htotal
      exact (hgather.run hrest htotal).cons ht
  exact ⟨hlost.1, hlost.2, hlost.not_handedOver⟩

def blank : DiagTransport :=
  ⟨0, ⟨.idle, Buf.fill 4096 0, 0, 0, 0, 0, false, .none⟩, ⟨.idle, Buf.fill 4096 0, 0, 0, 0, 0⟩⟩

def unknownService : UdsHandler Unit := fun _ _ => ((), .serviceNotSupported, UdsMessage.zero)

/-- Tester present, with a padded single frame. -/
theorem request_never_handed_over_tester_present :
    Segmented [0x3E, 0x00] [[0x02, 0x3E, 0x00, 0xCC]] ∧
    ∀ t outs, run (DiagTransport.processReceived .passes unknownService) (blank.init 8, ())
        [[0x02, 0x3E, 0x00, 0xCC]] = some (t, outs) → outs.flatten = [⟨0, 0, none, 2⟩] :=
  have h : Segmented [0x3E, 0x00] [[0x02, 0x3E, 0x00, 0xCC]] :=
    @Segmented.single [0x3E, 0x00] [0xCC] (by decide) (by decide)
  ⟨h, (request_never_handed_over .passes unknownService blank 8 () _ _ h).2.1⟩

/-- Tester present again: the handler is asked for service zero with a NULL
pointer, or not at all. -/
theorem tester_present_lost :
    (run (DiagTransport.processReceived .passes unknownService) (blank.init 8, ())
      [[0x02, 0x3E, 0x00]]).map Prod.snd = some [[⟨0, 0, none, 2⟩]] ∧
    ∀ platform, ¬ DiagTransport.HandedOver [0x3E, 0x00]
      (run (DiagTransport.processReceived platform unknownService) (blank.init 8, ())
        [[0x02, 0x3E, 0x00]]) := by
  refine ⟨by decide +kernel, fun platform => ?_⟩
  exact (DiagTransport.lost_single platform unknownService () (s := blank.init 8)
    rfl [0x3E, 0x00] [] (by decide) (by decide)).not_handedOver

end Cant.Diagnostic
