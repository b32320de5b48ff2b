/-
# `IsotpLink` — sender and receiver together

The frames a sender builds for a payload are put together again by a receiver
(`isotp_round_trip`): sender and receiver keep the same offset and the same
sequence number (`InSync`), one consecutive frame moves both on by one segment,
and the last one leaves the payload in the receiver's buffer.

Left to themselves, two endpoints never get that far (`peer_never_receives`).
`isotp_process` drops the flow control that answers a first frame, and nothing else
calls `send_consecutive_frame`.
-/
import Cant.Protocols.IsotpReassembly

namespace Cant.Protocols

open Word Run List Option Buf

namespace Isotp

variable {can : CANFrame → Bool}

/-! ## The frames of a payload -/

/-- `send_consecutive_frame` until the transmit offset equals the length. -/
def sendRest : Nat → Isotp → Option (Isotp × List CANFrame)
  | 0, s => if s.tx.offset = s.tx.length then some (s, []) else none
  | fuel + 1, s =>
    if s.tx.offset = s.tx.length then some (s, [])
    else do
      let (s, frame) ← s.sendConsecutiveFrame
      let (s, frames) ← sendRest fuel s
      some (s, frame :: frames)

/-- All the frames of a payload: what `isotp_transmit` sends, and then, for a
payload that does not fit one frame, the consecutive frames. -/
def sendAll (s : Isotp) (now : Nat) (payload : List UInt8) : Option (Isotp × List CANFrame) := do
  let (s, sent, _) ← s.transmit (fun _ => true) now payload
  if payload.length ≤ 7 then some (s, sent)
  else do
    let (s, rest) ← sendRest payload.length s
    some (s, sent ++ rest)

/-! ## What the sender puts into a frame -/

variable {s r : Isotp}

theorem built_frame {c : UInt8} {src : List UInt8} {d₁ d₂ : Buf UInt8 64}
    (h₁ : (Buf.fill 64 0).blit 0 [c] = some d₁) (h₂ : d₁.blit 1 src = some d₂) :
    d₂.cell 0 = c ∧ (d₂.elems.drop 1).take src.length = src := by
  refine ⟨Option.some.inj ((d₂.get?_cell 0).symm.trans ?_), drop_take_of_blit h₂⟩
  exact (get?_blit_of_lt h₂ Nat.zero_lt_one).trans (get?_blit_self h₁)

theorem sendSingleFrame_eq (s : Isotp) (payload : List UInt8) (hle : payload.length ≤ 7) :
    ∃ f, s.sendSingleFrame payload = some f ∧ f.id = s.config.txId ∧ f.pci = 0 ∧
      f.low = payload.length ∧ f.bytes 1 payload.length = payload := by
  obtain ⟨d₁, h₁, -⟩ := (Buf.fill 64 (0 : UInt8)).blit_eq_some 0
    [UInt8.ofNat ((0 <<< 4) ||| payload.length)] (by simp)
  obtain ⟨d₂, h₂, -⟩ := d₁.blit_eq_some 1 payload (by omega)
  obtain ⟨hcell, hbytes⟩ := built_frame h₁ h₂
  refine ⟨⟨s.config.txId, u8 (payload.length + 1), false, d₂⟩, ?_, rfl, ?_, ?_, hbytes⟩
  · simp only [sendSingleFrame, h₁, h₂, bind_eq_bind, bind_some]
  · rw [CANFrame.pci, hcell]
    exact nibbles_shr (by omega) (by omega)
  · rw [CANFrame.low, hcell]
    exact nibbles_and (by omega) (by omega)

theorem sendFirstFrame_eq (s : Isotp) (now : Nat) {payload : List UInt8} (hge : 6 ≤ payload.length)
    (hle : payload.length ≤ 4095) :
    ∃ f, s.sendFirstFrame now payload = some ({ s with tx := { s.tx with
        length := payload.length, offset := 6, sequence := 1, waitingFc := true,
        timer := .start now s.config.timeoutMs } }, f) ∧
      f.id = s.config.txId ∧ f.pci = 1 ∧ f.firstLength = payload.length ∧
      f.bytes 2 6 = payload.take 6 := by
  have hhigh : (payload.length >>> 8) &&& 0x0F = payload.length / 256 := by
    rw [and_0x0F]
    omega
  have hsix : (payload.take 6).length = 6 := by
    rw [length_take]
    omega
  obtain ⟨d₁, h₁, -⟩ := (Buf.fill 64 (0 : UInt8)).blit_eq_some 0
    [UInt8.ofNat ((1 <<< 4) ||| ((payload.length >>> 8) &&& 0x0F))] (by simp)
  obtain ⟨d₂, h₂, -⟩ := d₁.blit_eq_some 1 [UInt8.ofNat (payload.length &&& 0xFF)] (by simp)
  obtain ⟨d₃, h₃, -⟩ := d₂.blit_eq_some 2 (payload.take 6) (by omega)
  have hcell : d₃.cell 0 = UInt8.ofNat ((1 <<< 4) ||| (payload.length / 256)) := by
    rw [← hhigh]
    exact Option.some.inj ((d₃.get?_cell 0).symm.trans ((get?_blit_of_lt h₃ Nat.two_pos).trans
      ((get?_blit_of_lt h₂ Nat.one_pos).trans (get?_blit_self h₁))))
  have hcell' : d₃.cell 1 = UInt8.ofNat (payload.length &&& 0xFF) :=
    Option.some.inj ((d₃.get?_cell 1).symm.trans
      ((get?_blit_of_lt h₃ Nat.one_lt_two).trans (get?_blit_self h₂)))
  have hbytes := drop_take_of_blit h₃
  rw [hsix] at hbytes
  refine ⟨⟨s.config.txId, 8, false, d₃⟩, ?_, rfl, ?_, ?_, hbytes⟩
  · simp only [sendFirstFrame, h₁, h₂, h₃, bind_eq_bind, bind_some]
  · rw [CANFrame.pci, hcell]
    exact nibbles_shr (by omega) (by omega)
  · rw [CANFrame.firstLength, CANFrame.low, hcell, nibbles_and (by omega) (by omega), hcell',
      and_0xFF, UInt8.toNat_ofNat', ← Nat.shiftLeft_add_eq_or_of_lt (by omega)]
    omega

theorem sendConsecutiveFrame_eq (hoff : s.tx.offset ≤ s.tx.length) (hlen : s.tx.length ≤ 4095)
    (hseq : s.tx.sequence < 16) :
    ∃ f, s.sendConsecutiveFrame = some ({ s with tx := { s.tx with
        offset := s.tx.offset + min 7 (s.tx.length - s.tx.offset),
        sequence := (s.tx.sequence + 1) % 16 } }, f) ∧
      f.id = s.config.txId ∧ f.pci = 2 ∧ f.low = s.tx.sequence ∧
      f.bytes 1 (min 7 (s.tx.length - s.tx.offset))
        = (s.tx.buffer.elems.drop s.tx.offset).take (min 7 (s.tx.length - s.tx.offset)) := by
  have hrem : u64 (s.tx.length - s.tx.offset) = s.tx.length - s.tx.offset := u64_sub hoff (by omega)
  have hmin : (if s.tx.length - s.tx.offset > 7 then 7 else s.tx.length - s.tx.offset)
      = min 7 (s.tx.length - s.tx.offset) := by
    split <;> omega
  have hsum : u64 (s.tx.offset + (min 7 (s.tx.length - s.tx.offset) : Nat))
      = s.tx.offset + min 7 (s.tx.length - s.tx.offset) :=
    u64_of_lt (n := s.tx.offset + min 7 (s.tx.length - s.tx.offset)) (by omega)
  have hslice : s.tx.buffer.slice s.tx.offset (min 7 (s.tx.length - s.tx.offset)) = some _ :=
    slice_eq_some (by omega)
  have hseg := length_of_slice hslice
  obtain ⟨d₁, h₁, -⟩ := (Buf.fill 64 (0 : UInt8)).blit_eq_some 0
    [UInt8.ofNat ((2 <<< 4) ||| s.tx.sequence)] (by simp)
  obtain ⟨d₂, h₂, -⟩ := d₁.blit_eq_some 1
    ((s.tx.buffer.elems.drop s.tx.offset).take (min 7 (s.tx.length - s.tx.offset))) (by omega)
  obtain ⟨hcell, hbytes⟩ := built_frame h₁ h₂
  rw [hseg] at hbytes
  refine ⟨⟨s.config.txId, u8 ((min 7 (s.tx.length - s.tx.offset) : Nat) + 1), false, d₂⟩,
    ?_, rfl, ?_, ?_, hbytes⟩
  · simp only [sendConsecutiveFrame, hrem, hmin, h₁, hslice, h₂, hsum, and_0x0F,
      bind_eq_bind, bind_some]
  · rw [CANFrame.pci, hcell]
    exact nibbles_shr (by omega) hseq
  · rw [CANFrame.low, hcell]
    exact nibbles_and (by omega) hseq

/-! ## In step

The sender's next segment is the receiver's next segment. -/

/-- Sender and receiver have the same bytes behind them and the same ahead. -/
structure InSync (payload : List UInt8) (tx : TxState) (rx : RxState) : Prop where
  length_le : payload.length ≤ 4095
  txLength : tx.length = payload.length
  txBuffer : tx.buffer.elems.take payload.length = payload
  offset_le : 6 ≤ tx.offset
  offset_lt : tx.offset < payload.length
  sequence_lt : tx.sequence < 16
  rxLength : rx.length = payload.length
  offset : rx.offset = tx.offset
  sequence : rx.sequence = tx.sequence
  receiving : rx.receivingMulti = true
  rxBuffer : rx.buffer.elems.take tx.offset = payload.take tx.offset

structure Received (payload : List UInt8) (rx : RxState) : Prop where
  done : rx.receivingMulti = false
  length : rx.length = payload.length
  buffer : rx.buffer.elems.take payload.length = payload

variable {payload : List UInt8}

theorem InSync.inRange {tx : TxState} {rx : RxState} (h : InSync payload tx rx) : rx.InRange :=
  ⟨h.rxLength ▸ h.length_le, fun _ => ⟨h.offset ▸ h.offset_le,
    .inl (by rw [h.offset, h.rxLength]; exact h.offset_lt)⟩⟩

/-- **One consecutive frame**, sent and received: both ends move on by one
segment, or the payload is there. -/
theorem InSync.step (h : InSync payload s.tx r.rx) (hid : r.config.rxId = s.config.txId)
    (can : CANFrame → Bool) :
    ∃ tx f rx, s.sendConsecutiveFrame = some ({ s with tx := tx }, f) ∧
      r.handleFrame can f = some ({ r with rx := rx }, []) ∧ s.tx.offset < tx.offset ∧
      (InSync payload tx rx ∨
        (tx.offset = tx.length ∧ tx.length = payload.length ∧ Received payload rx)) := by
  have hle := h.length_le
  have hlt := h.offset_lt
  obtain ⟨f, hf, hfid, hpci, hlow, hbytes⟩ := s.sendConsecutiveFrame_eq
    (by rw [h.txLength]; omega) (by rw [h.txLength]; exact hle) h.sequence_lt
  rw [h.txLength] at hf hbytes
  obtain ⟨rx, hrx, he⟩ := processConsecutiveFrame_effect h.inRange (hfid.trans hid.symm) hpci
  have hhandle : r.handleFrame can f = some ({ r with rx := rx }, []) := by
    have hcell := f.get?_zero
    have hshift : (f.data.cell 0).toNat >>> 4 = 2 := hpci
    simp [handleFrame, if_pos (hfid.trans hid.symm), hcell, hshift, hrx]
  refine ⟨_, f, rx, hf, hhandle, ?_, ?_⟩
  · show s.tx.offset < s.tx.offset + min 7 (payload.length - s.tx.offset)
    omega
  cases he with
  | ignored _ _ hc => exact absurd (hc ⟨hfid.trans hid.symm, hpci⟩) (by rw [h.receiving]; decide)
  | single hs => exact absurd hs.2.1 (by omega)
  | first hf => exact absurd hf.2.1 (by omega)
  | sequenceError _ _ hne => exact absurd (hlow.trans h.sequence.symm) hne
  | @segment buffer _ _ _ hbuf =>
    have hseg : r.rx.segment = min 7 (payload.length - s.tx.offset) := by
      rw [r.rx.segment_eq (by rw [h.offset, h.rxLength]; omega) (by rw [h.rxLength]; exact hle),
        h.offset, h.rxLength]
    -- the segment is the payload's, because the sender's buffer is
    have hpayload : (s.tx.buffer.elems.drop s.tx.offset).take (min 7 (payload.length - s.tx.offset))
        = (payload.drop s.tx.offset).take (min 7 (payload.length - s.tx.offset)) := by
      have hcut := congrArg (fun l => (l.drop s.tx.offset).take
        (min 7 (payload.length - s.tx.offset))) h.txBuffer
      rwa [drop_take, take_take, Nat.min_eq_left (by omega)] at hcut
    rw [hseg, h.offset, h.rxBuffer, hbytes, hpayload, ← take_add] at hbuf
    simp only [h.offset, hseg, h.rxLength]
    rcases Nat.lt_or_ge (s.tx.offset + 7) payload.length with hmore | hlast
    · have hmin : min 7 (payload.length - s.tx.offset) = 7 := by omega
      rw [hmin] at hbuf ⊢
      refine .inl ⟨hle, h.txLength, h.txBuffer, ?_, hmore, Nat.mod_lt _ (by omega),
        rfl, rfl, ?_, ?_, hbuf⟩
      · show 6 ≤ s.tx.offset + 7
        omega
      · rw [h.sequence]
      · rw [decide_eq_false (by omega)]
        rfl
    · have hmin : s.tx.offset + min 7 (payload.length - s.tx.offset) = payload.length := by omega
      rw [hmin, take_of_length_le .refl] at hbuf
      refine .inr ⟨hmin.trans h.txLength.symm, h.txLength, ?_, rfl, hbuf⟩
      rw [hmin, decide_eq_true .refl]
      rfl

/-- **The whole of a long payload.** From a common offset, sending on until the
offset is the length ends, and the receiver that gets the frames holds the
payload. -/
theorem InSync.run (can : CANFrame → Bool) : ∀ (fuel : Nat) {s r : Isotp},
    InSync payload s.tx r.rx → r.config.rxId = s.config.txId →
    payload.length - s.tx.offset ≤ fuel →
    ∃ s' frames, sendRest fuel s = some (s', frames) ∧ s'.tx.offset = s'.tx.length ∧
      ∃ rx, r.handleFrames can frames = some ({ r with rx := rx }, []) ∧ Received payload rx
  | 0, s, r, h, _, hfuel => absurd h.offset_lt (by omega)
  | fuel + 1, s, r, h, hid, hfuel => by
    obtain ⟨tx, f, rx, hf, hr, hmove, hnext⟩ := h.step hid can
    have hne : s.tx.offset ≠ s.tx.length := by
      rw [h.txLength]
      exact Nat.ne_of_lt h.offset_lt
    rcases hnext with hsync | ⟨hdone, -, hrec⟩
    · obtain ⟨s', frames, hs', hend, rx', hr', hrec⟩ :=
        InSync.run can fuel (s := { s with tx := tx }) (r := { r with rx := rx }) hsync hid
          (by show payload.length - tx.offset ≤ fuel; omega)
      refine ⟨s', f :: frames, ?_, hend, rx', ?_, hrec⟩
      · simp [sendRest, if_neg hne, hf, hs']
      · simp [handleFrames, hr, hr']
    · have hrest : sendRest fuel { s with tx := tx } = some ({ s with tx := tx }, []) := by
        cases fuel with
        | zero | succ fuel => exact if_pos hdone
      refine ⟨{ s with tx := tx }, [f], ?_, hdone, rx, ?_, hrec⟩
      · simp [sendRest, if_neg hne, hf, hrest]
      · simp [handleFrames, hr]

/-- What a call of `isotp_transmit` on a long payload does: the first frame is on
the bus and the sender stands at offset six. -/
theorem transmit_long (s : Isotp) (now : Nat) (payload : List UInt8) (hge : 8 ≤ payload.length)
    (hle : payload.length ≤ 4095) :
    ∃ s' f, s.transmit (fun _ => true) now payload = some (s', [f], true) ∧
      s'.config = s.config ∧ s'.rx = s.rx ∧ f.id = s.config.txId ∧ f.pci = 1 ∧
      f.firstLength = payload.length ∧ f.bytes 2 6 = payload.take 6 ∧
      s'.tx.length = payload.length ∧ s'.tx.offset = 6 ∧ s'.tx.sequence = 1 ∧
      s'.tx.buffer.elems.take payload.length = payload := by
  obtain ⟨buffer, hblit, -⟩ := s.tx.buffer.blit_eq_some 0 payload (by omega)
  have hbuf := take_of_blit hblit
  rw [Nat.zero_add] at hbuf
  obtain ⟨f, hf, hid, hpci, hlen, hbytes⟩ :=
    sendFirstFrame_eq { s with tx := { s.tx with buffer := buffer } } now (by omega) hle
  refine ⟨{ s with tx := { s.tx with
      buffer := buffer, length := payload.length, offset := 6, sequence := 1, waitingFc := true,
      timer := .start now s.config.timeoutMs } },
    f, ?_, rfl, rfl, hid, hpci, hlen, hbytes, rfl, rfl, rfl, hbuf⟩
  rw [transmit, if_neg (by omega), if_neg (by omega), hblit]
  show (sendFirstFrame { s with tx := { s.tx with buffer := buffer } } now payload).bind _ = _
  rw [hf]
  rfl

/-- The frames of a payload, received by an endpoint that listens to the sender,
leave the payload in its buffer. -/
theorem sendAll_received (s : Isotp) (now : Nat) (hpos : 1 ≤ payload.length)
    (hle : payload.length ≤ 4095) (hrange : r.rx.InRange) (hid : r.config.rxId = s.config.txId)
    (can : CANFrame → Bool) :
    ∃ s' frames, s.sendAll now payload = some (s', frames) ∧
      (7 < payload.length → s'.tx.offset = s'.tx.length) ∧
      ∃ rx sent, r.handleFrames can frames = some ({ r with rx := rx }, sent) ∧
        Received payload rx := by
  rcases Nat.lt_or_ge payload.length 8 with hshort | hlong
  · obtain ⟨f, hf, hfid, hpci, hlow, hbytes⟩ := s.sendSingleFrame_eq payload (by omega)
    have hsingle : f.IsSingle r.config.rxId := ⟨hfid.trans hid.symm, hpci, by omega, by omega⟩
    obtain ⟨rx, sent, hr, he, -⟩ := handleFrame_effect hrange can f
    refine ⟨s, [f], ?_, fun h => absurd h (by omega), rx, sent ++ [], ?_, ?_⟩
    · simp only [sendAll, transmit,
        if_neg (by omega : ¬ (payload.length = 0 ∨ payload.length > 4095)),
        if_pos (by omega : payload.length ≤ 7), hf, canTransmit, if_true, bind_eq_bind, bind_some]
    · simp [handleFrames, hr]
    · cases he with
      | ignored hs => exact absurd hsingle hs
      | single _ hbuf =>
        rw [hlow] at hbuf
        exact ⟨rfl, hlow, hbuf.trans hbytes⟩
      | first hf => exact absurd hf.2.1 (by omega)
      | sequenceError hc | segment hc => exact absurd hc.2 (by omega)
  · obtain ⟨s₁, f, hs₁, hcfg, -, hfid, hpci, hlen, hbytes, htxl, htxo, htxs, htxb⟩ :=
      s.transmit_long now payload hlong hle
    have hfirst : f.IsFirst r.config.rxId := ⟨hfid.trans hid.symm, hpci, by omega⟩
    obtain ⟨rx, sent, hr, he, -⟩ := handleFrame_effect hrange can f
    have hsync : InSync payload s₁.tx rx := by
      cases he with
      | ignored _ hf => exact absurd hfirst hf
      | single hs => exact absurd hs.2.1 (by omega)
      | first _ hbuf =>
        refine ⟨hle, htxl, htxb, by omega, by omega, by omega, hlen, htxo.symm, htxs.symm, rfl, ?_⟩
        rw [htxo]
        exact hbuf.trans hbytes
      | sequenceError hc | segment hc => exact absurd hc.2 (by omega)
    obtain ⟨s', frames, hs', hend, rx', hr', hrec⟩ :=
      InSync.run can payload.length (s := s₁) (r := { r with rx := rx }) hsync
        (by rw [hcfg]; exact hid) (Nat.sub_le _ _)
    refine ⟨s', f :: frames, ?_, fun _ => hend, rx', sent ++ [], ?_, hrec⟩
    · simp [sendAll, hs₁, hs', if_neg (by omega : ¬ payload.length ≤ 7)]
    · simp [handleFrames, hr, hr']

theorem Received.receive (h : Received payload r.rx) (hpos : 1 ≤ payload.length)
    (hle : payload.length ≤ 4095) : ∃ t, r.receive = some (t, some payload) := by
  have hrange : r.rx.InRange :=
    ⟨h.length ▸ hle, fun hm => absurd (h.done.symm.trans hm) (by decide)⟩
  rcases receive_eq hrange with ⟨-, -, hr⟩ | ⟨hno, -⟩
  · rw [h.length, h.buffer] at hr
    exact ⟨_, hr⟩
  · exact absurd ⟨h.done, h.length ▸ hpos⟩ hno

/-! ## In any number of calls -/

theorem handleFrame_fst (s : Isotp) (can can' : CANFrame → Bool) (f : CANFrame) :
    (s.handleFrame can f).map Prod.fst = (s.handleFrame can' f).map Prod.fst := by
  have hfirst : (s.processFirstFrame can f).map Prod.fst
      = (s.processFirstFrame can' f).map Prod.fst := by
    have hcell := f.get?_zero
    have hcell' := f.get?_one
    simp only [processFirstFrame, hcell, hcell', bind_eq_bind, bind_some]
    split
    · simp
    · rfl
  unfold handleFrame
  split
  · have hcell := f.get?_zero
    simp only [some_bind hcell]
    split
    · rfl
    · exact hfirst
    · rfl
    · rfl
  · rfl

theorem handleFrames_of_can (can' : CANFrame → Bool) :
    ∀ (frames : List CANFrame) {s t : Isotp} {sent : List CANFrame},
      s.handleFrames can frames = some (t, sent) →
      ∃ sent', s.handleFrames can' frames = some (t, sent')
  | [], s, t, sent, h => by
    simp only [handleFrames, Option.some.injEq, Prod.mk.injEq] at h
    exact ⟨[], by rw [h.1]; rfl⟩
  | f :: fs, s, t, sent, h => by
    simp only [handleFrames, bind_eq_bind, bind_eq_some_iff, Option.some.injEq, Prod.mk.injEq] at h
    obtain ⟨⟨s₁, out₁⟩, h₁, ⟨s₂, out₂⟩, h₂, rfl, rfl⟩ := h
    have hfst := s.handleFrame_fst can' can f
    rw [h₁] at hfst
    obtain ⟨⟨s₁', out₁'⟩, h₁', rfl⟩ := map_eq_some_iff.mp hfst
    obtain ⟨out₂', h₂'⟩ := handleFrames_of_can can' fs h₂
    exact ⟨out₁' ++ out₂', by simp [handleFrames, h₁', h₂']⟩

/-- Calls of `isotp_process` at an endpoint that is not sending, however the
frames are spread over them, do what one pass over all the frames does. -/
theorem run_process_eq : ∀ (events : List RxEvent) {r t : Isotp}
    {sent : List CANFrame}, r.rx.InRange → r.tx.waitingFc = false →
    (∀ e ∈ events, e ≠ .receive) →
    r.handleFrames can (events.flatMap RxEvent.frames) = some (t, sent) →
    ∃ outs, run rxStep r events = some (t, outs)
  | [], r, t, sent, _, _, _, h => by
    simp only [flatMap_nil, handleFrames, Option.some.injEq, Prod.mk.injEq] at h
    exact ⟨[], by rw [← h.1]; rfl⟩
  | .receive :: _, _, _, _, _, _, hp, _ => absurd rfl (hp _ mem_cons_self)
  | .process can' now frames :: events, r, t, sent, hrange, hfc, hp, h => by
    obtain ⟨rx, sent₁, h₁, hrange₁, -⟩ := handleFrames_total can' frames hrange
    obtain ⟨sent₁', h₁'⟩ := handleFrames_of_can can frames h₁
    obtain ⟨rx₂, sent₂, h₂, -⟩ := handleFrames_total can (events.flatMap RxEvent.frames)
      (s := { r with rx := rx }) hrange₁
    have hall := handleFrames_append can frames _ h₁' h₂
    rw [show (RxEvent.process can' now frames :: events).flatMap RxEvent.frames
      = frames ++ events.flatMap RxEvent.frames from rfl, hall] at h
    cases Option.some.inj h
    obtain ⟨outs, hrun⟩ := run_process_eq events (r := { r with rx := rx }) hrange₁ hfc
      (fun e he => hp e (.tail _ he)) h₂
    refine ⟨none :: outs, run_cons.mpr ⟨{ r with rx := rx }, none, outs, ?_, hrun, rfl⟩⟩
    simp [rxStep, process_of_not_waiting h₁ hfc now]

end Isotp

/-- **Round trip.** For every payload of 1 to 4095 bytes, whatever the sender has
done before: the frames it builds, received in order by a fresh endpoint that
listens to it, in however many calls of `isotp_process`, make the next
`isotp_receive` return exactly the payload. -/
theorem isotp_round_trip (s : Isotp) (now : Nat) (payload : List UInt8)
    (hpos : 1 ≤ payload.length) (hle : payload.length ≤ 4095) (config : ISOTPConfig)
    (hid : config.rxId = s.config.txId) :
    ∃ s' frames, s.sendAll now payload = some (s', frames) ∧
      (7 < payload.length → s'.tx.offset = s'.tx.length) ∧
      ∀ events : List RxEvent, (∀ e ∈ events, e ≠ .receive) →
        events.flatMap RxEvent.frames = frames →
        ∃ r outs, run Isotp.rxStep (Isotp.create config) events = some (r, outs) ∧
          ∃ t, r.receive = some (t, some payload) := by
  have hrange := Isotp.create_inRange config
  obtain ⟨s', frames, hs', hend, rx, sent, hr, hrec⟩ :=
    Isotp.sendAll_received (r := Isotp.create config) s now hpos hle hrange hid (fun _ => true)
  refine ⟨s', frames, hs', hend, fun events hp hflat => ?_⟩
  obtain ⟨outs, hrun⟩ := Isotp.run_process_eq events hrange rfl hp (hflat ▸ hr)
  exact ⟨_, outs, hrun, Isotp.Received.receive (r := { Isotp.create config with rx := rx }) hrec
    hpos hle⟩

/-- A payload of twenty bytes takes a first frame and two consecutive ones. -/
theorem isotp_round_trip_twenty :
    ∃ s' frames, (Isotp.create ⟨0x7E8, 0x7E0, 0, 0, 1000⟩).sendAll 0 (List.replicate 20 0xA5)
        = some (s', frames) ∧ frames.length = 3 ∧
      ∃ r outs, run Isotp.rxStep (Isotp.create listener) [.process (fun _ => true) 0 frames]
          = some (r, outs) ∧
        ∃ t, r.receive = some (t, some (List.replicate 20 0xA5)) := by
  obtain ⟨s', frames, hs', -, hrecv⟩ := isotp_round_trip
    (Isotp.create ⟨0x7E8, 0x7E0, 0, 0, 1000⟩) 0 (List.replicate 20 0xA5) (by decide) (by decide)
    listener rfl
  have hlen : ((Isotp.create ⟨0x7E8, 0x7E0, 0, 0, 1000⟩).sendAll 0 (List.replicate 20 0xA5)).map
      (fun p => p.2.length) = some 3 := by
    decide +kernel
  rw [hs', map_some, Option.some.injEq] at hlen
  refine ⟨s', frames, hs', hlen, hrecv _ (fun e he => ?_) (by simp [RxEvent.frames])⟩
  rw [mem_singleton.mp he]
  exact RxEvent.noConfusion

/-- **One payload after another.** A receiver gets the frames of any payloads of 1 to 4095 bytes,
whatever their senders did before, and is asked for a message behind each: it answers with just
these payloads. -/
theorem payloads_received (can : CANFrame → Bool) (now : Nat) {config : ISOTPConfig}
    {l : List (Isotp × Nat × List UInt8)} {fs : List (List CANFrame)}
    (hsent : List.Forall₂ (fun t f => config.rxId = t.1.config.txId ∧ 1 ≤ t.2.2.length ∧
      t.2.2.length ≤ 4095 ∧ ∃ s, t.1.sendAll t.2.1 t.2.2 = some (s, f)) l fs)
    {r : Isotp} (hconfig : r.config = config) (hrange : r.rx.InRange)
    (hfc : r.tx.waitingFc = false) :
    ∃ r', run Isotp.rxStep r (fs.flatMap fun f => [.process can now f, .receive]) =
      some (r', l.flatMap fun t => [none, some t.2.2]) := by
  induction hsent generalizing r with
  | nil => exact ⟨r, rfl⟩
  | @cons t f l fs h _ ih =>
    subst hconfig
    obtain ⟨hid, hpos, hle, s, hs⟩ := h
    obtain ⟨s', f', hs', -, rx, sent, hr, hrec⟩ :=
      Isotp.sendAll_received t.1 t.2.1 hpos hle hrange hid can
    cases mem_unique hs hs'
    have hidle : ∀ n ≤ 4095, ({ rx with length := n } : RxState).InRange :=
      fun n hn => ⟨hn, fun hm => absurd (hrec.done.symm.trans hm) (by decide)⟩
    have hin : rx.InRange := hidle rx.length (hrec.length ▸ hle)
    rcases Isotp.receive_eq (s := { r with rx := rx }) hin with ⟨-, -, hreceive⟩ | ⟨hno, -⟩
    · rw [hrec.length, hrec.buffer] at hreceive
      obtain ⟨r', hrun⟩ := ih (r := { r with rx := { rx with length := 0 } }) rfl
        (hidle 0 (by decide)) hfc
      refine ⟨r', run_cons.mpr ⟨_, none, _, ?_, run_cons.mpr ⟨_, _, _, hreceive, hrun, rfl⟩, rfl⟩⟩
      simp [Isotp.rxStep, Isotp.process_of_not_waiting hr hfc now]
    · exact absurd ⟨hrec.done, hrec.length ▸ hpos⟩ hno

/-- One byte in a single frame, then twenty in a first frame and two consecutive ones. -/
theorem two_payloads_received : ∃ f g r, f.length = 1 ∧ g.length = 3 ∧
    run Isotp.rxStep (.create listener) [.process (fun _ => true) 0 f, .receive,
        .process (fun _ => true) 0 g, .receive] =
      some (r, [none, some [1], none, some (List.replicate 20 0xA5)]) := by
  let sender : Isotp := .create ⟨0x7E8, 0x7E0, 0, 0, 1000⟩
  have hone : (sender.sendAll 0 [1]).map (·.2.length) = some 1 := by decide +kernel
  have hmany : (sender.sendAll 0 (List.replicate 20 0xA5)).map (·.2.length) = some 3 := by
    decide +kernel
  obtain ⟨⟨s, f⟩, hf, hflen⟩ := map_eq_some_iff.mp hone
  obtain ⟨⟨s', g⟩, hg, hglen⟩ := map_eq_some_iff.mp hmany
  obtain ⟨r, hr⟩ := payloads_received
    (l := [(sender, 0, [1]), (sender, 0, List.replicate 20 0xA5)]) (r := .create listener)
    (fun _ => true) 0
    (.cons ⟨rfl, by decide, by decide, s, hf⟩ (.cons ⟨rfl, by decide, by decide, s', hg⟩ .nil)) rfl
    (Isotp.create_inRange _) rfl
  exact ⟨f, g, r, hflen, hglen, hr⟩

/-! ## Two endpoints

A channel holds the frames on their way; a call of `isotp_process` finds some of
them arrived, in order, and puts what it sends at the end of the other channel. -/

/-- Two endpoints and the frames on their way between them. -/
structure Link where
  a : Isotp
  b : Isotp
  toA : List CANFrame
  toB : List CANFrame

/-- A call of `isotp_process` at one end, with the first `arrived` frames of its
channel delivered. -/
inductive LinkEvent where
  | processA (now arrived : Nat)
  | processB (now arrived : Nat)

def Link.step (l : Link) : LinkEvent → Option (Link × Unit)
  | .processA now arrived =>
    (l.a.process (fun _ => true) now (l.toA.take arrived)).map fun p =>
      ({ l with a := p.1, toA := l.toA.drop arrived, toB := l.toB ++ p.2 }, ())
  | .processB now arrived =>
    (l.b.process (fun _ => true) now (l.toB.take arrived)).map fun p =>
      ({ l with b := p.1, toB := l.toB.drop arrived, toA := l.toA ++ p.2 }, ())

/-- What stays true: nothing on its way to the peer carries a segment, and the
peer has no finished message. -/
structure Link.Stuck (l : Link) : Prop where
  rangeA : l.a.rx.InRange
  rangeB : l.b.rx.InRange
  toB : ∀ f ∈ l.toB, f.pci = 1 ∨ f.pci = 3
  unfinished : ¬ (l.b.rx.receivingMulti = false ∧ 0 < l.b.rx.length)

theorem Isotp.handleFrames_unfinished (can : CANFrame → Bool) (frames : List CANFrame)
    {s : Isotp} (h : s.rx.InRange) (hpci : ∀ f ∈ frames, f.pci = 1 ∨ f.pci = 3)
    (hun : ¬ (s.rx.receivingMulti = false ∧ 0 < s.rx.length)) :
    ∃ rx sent, s.handleFrames can frames = some ({ s with rx := rx }, sent) ∧ rx.InRange ∧
      (∀ g ∈ sent, g.pci = 3) ∧ ¬ (rx.receivingMulti = false ∧ 0 < rx.length) := by
  refine handleFrames_keeps can (fun rx => ¬ (rx.receivingMulti = false ∧ 0 < rx.length)) frames h
    (fun f hf rx rx' he hun => ?_) hun
  have hf := hpci f hf
  cases he with
  | ignored => exact hun
  | single hs => exact absurd hs.2.1 (by omega)
  | first => exact fun hm => by cases hm.1
  | sequenceError hc | segment hc => exact absurd hc.2 (by omega)

theorem Link.Stuck.step {l : Link} (h : l.Stuck) (e : LinkEvent) :
    ∃ l', l.step e = some (l', ()) ∧ l'.Stuck := by
  cases e with
  | processA now arrived =>
    obtain ⟨rx, sent, h₁, hrange, hsent⟩ :=
      Isotp.handleFrames_total (fun _ => true) (l.toA.take arrived) h.rangeA
    obtain ⟨t, ht, hrx, -⟩ := Isotp.process_of_handleFrames h₁ now
    refine ⟨{ l with a := t, toA := l.toA.drop arrived, toB := l.toB ++ sent }, ?_, ?_⟩
    · simp [Link.step, ht]
    · refine ⟨?_, h.rangeB, fun f hf => ?_, h.unfinished⟩
      · rw [hrx]
        exact hrange
      · rcases mem_append.mp hf with hf | hf
        · exact h.toB f hf
        · exact .inr (hsent f hf)
  | processB now arrived =>
    obtain ⟨rx, sent, h₁, hrange, -, hun⟩ :=
      Isotp.handleFrames_unfinished (fun _ => true) (l.toB.take arrived) h.rangeB
        (fun f hf => h.toB f (mem_of_mem_take hf)) h.unfinished
    obtain ⟨t, ht, hrx, -⟩ := Isotp.process_of_handleFrames h₁ now
    refine ⟨{ l with b := t, toB := l.toB.drop arrived, toA := l.toA ++ sent }, ?_, ?_⟩
    · simp [Link.step, ht]
    · refine ⟨h.rangeA, ?_, fun f hf => h.toB f (mem_of_mem_drop hf), ?_⟩
      · rw [hrx]
        exact hrange
      · rw [hrx]
        exact hun

theorem Link.Stuck.run {l : Link} (h : l.Stuck) (schedule : List LinkEvent) :
    ∃ l' outs, Run.run Link.step l schedule = some (l', outs) ∧
      l'.b.receive = some (l'.b, none) := by
  obtain ⟨l', outs, hrun, hstuck⟩ := run_total Link.Stuck
    (fun l e hl => (hl.step e).elim fun l' hl' => ⟨l', (), hl'⟩) schedule h
  refine ⟨l', outs, hrun, ?_⟩
  rcases Isotp.receive_eq hstuck.rangeB with ⟨hm, hpos, -⟩ | ⟨-, hr⟩
  · exact absurd ⟨hm, hpos⟩ hstuck.unfinished
  · exact hr

/-- **A multi-frame message never arrives.** Let the peer hold no finished message, and no frame be
on its way to it. For any payload of 8 to 4095 bytes `isotp_transmit` answers true, and after any
calls of `isotp_process` at both ends, with any delays of the channel, `isotp_receive` at the peer
returns nothing. -/
theorem peer_never_receives (a b : Isotp) (toA : List CANFrame) (now : Nat) (payload : List UInt8)
    (hge : 8 ≤ payload.length) (hle : payload.length ≤ 4095) (ha : a.rx.InRange)
    (hb : b.rx.InRange) (hidle : ¬ (b.rx.receivingMulti = false ∧ 0 < b.rx.length)) :
    ∃ a' f, a.transmit (fun _ => true) now payload = some (a', [f], true) ∧
      ∀ schedule, ∃ l outs, run Link.step ⟨a', b, toA, [f]⟩ schedule = some (l, outs) ∧
        l.b.receive = some (l.b, none) := by
  obtain ⟨a', f, ht, -, hrx, -, hpci, -⟩ := a.transmit_long now payload hge hle
  refine ⟨a', f, ht, fun schedule => Link.Stuck.run ⟨?_, hb, fun g hg => ?_, hidle⟩ schedule⟩
  · rw [hrx]
    exact ha
  · rw [mem_singleton.mp hg]
    exact .inl hpci

/-- Two fresh endpoints with matching identifiers, and eight bytes. -/
theorem peer_never_receives_eight :
    ∃ a' f, (Isotp.create ⟨0x7E8, 0x7E0, 0, 0, 1000⟩).transmit (fun _ => true) 0
        [1, 2, 3, 4, 5, 6, 7, 8] = some (a', [f], true) ∧
      ∀ schedule, ∃ l outs,
        run Link.step ⟨a', Isotp.create listener, [], [f]⟩ schedule = some (l, outs) ∧
        l.b.receive = some (l.b, none) :=
  peer_never_receives _ _ [] 0 [1, 2, 3, 4, 5, 6, 7, 8] (by decide) (by decide)
    (Isotp.create_inRange _) (Isotp.create_inRange _) fun h => absurd h.2 (Nat.lt_irrefl 0)

/-- The same two endpoints and nine bytes: no schedule makes the peer return
them. -/
theorem nine_bytes_lost :
    ∃ a' f, (Isotp.create ⟨0x7E8, 0x7E0, 0, 0, 1000⟩).transmit (fun _ => true) 0
        (List.replicate 9 0x11) = some (a', [f], true) ∧
      ¬ ∃ schedule l outs t,
        run Link.step ⟨a', Isotp.create listener, [], [f]⟩ schedule = some (l, outs) ∧
        l.b.receive = some (t, some (List.replicate 9 0x11)) := by
  obtain ⟨a', f, ht, -, hrx, -, hpci, -⟩ := (Isotp.create ⟨0x7E8, 0x7E0, 0, 0, 1000⟩).transmit_long
    0 (List.replicate 9 0x11) (by decide) (by decide)
  refine ⟨a', f, ht, ?_⟩
  rintro ⟨schedule, l, outs, t, hrun, hr⟩
  have hstuck : Link.Stuck ⟨a', Isotp.create listener, [], [f]⟩ := by
    refine ⟨?_, Isotp.create_inRange _, fun g hg => ?_, fun h => absurd h.2 (Nat.lt_irrefl 0)⟩
    · rw [hrx]
      exact Isotp.create_inRange _
    · rw [mem_singleton.mp hg]
      exact .inl hpci
  obtain ⟨l', outs', hrun', hnone⟩ := hstuck.run schedule
  cases mem_unique hrun hrun'
  cases hr.symm.trans hnone

end Cant.Protocols
