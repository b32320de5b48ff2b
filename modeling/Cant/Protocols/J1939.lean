/-
# `J1939` — the J1939 node (`j1939.c`)

The CAN driver is outside, as for ISO-TP: `can` says whether `can_transmit` takes a frame,
and a call returns the frames it took. The transport buffer is never written and left out.

An identifier is the priority, the group and the source address side by side, each shifted
to its place and none of them cut to its width: `composeCanId_toNat` needs both bounds that
`single_frame_delivered_iff` names.
-/
import Cant.Protocols.Isotp

namespace Cant.Protocols

open List Buf

def pgnAddressClaimed : UInt32 := 0x00EE00

def pgnRequest : UInt32 := 0x00EA00

structure J1939Config where
  address : UInt8
  name : Buf UInt8 8
  supportAddressClaim : Bool
  requestTimeoutMs : UInt32

structure J1939Message where
  pgn : UInt32
  priority : UInt8
  sourceAddress : UInt8
  destinationAddress : UInt8
  data : Buf UInt8 1785
  length : Nat

/-- `transport`, without its buffer. -/
structure Transport where
  length : Nat
  offset : Nat
  pgn : UInt32
  source : UInt8
  timeout : Timer
  inProgress : Bool

/-- `struct J1939Handler`; of the callback only whether it is set. -/
structure J1939Handler where
  config : J1939Config
  currentAddress : UInt8
  addressClaimed : Bool
  claimTimer : Timer
  addressChangedCallback : Bool
  transport : Transport

def composeCanId (priority : UInt8) (pgn : UInt32) (source : UInt8) : UInt32 :=
  (priority.toUInt32 <<< 26) ||| (pgn <<< 8) ||| source.toUInt32

def decomposeCanId (canId : UInt32) : UInt8 × UInt32 × UInt8 :=
  (((canId >>> 26) &&& 0x07).toUInt8, (canId >>> 8) &&& 0x3FFFF, (canId &&& 0xFF).toUInt8)

abbrev controlByte : Fin 64 := ⟨0, by decide⟩

namespace J1939Handler

def create (config : J1939Config) : J1939Handler :=
  ⟨config, config.address, false, .idle, false, ⟨0, 0, 0, 0, .idle, false⟩⟩

def startTransportSession (h : J1939Handler) (now : Nat) (message : J1939Message) :
    J1939Handler × Bool :=
  if h.transport.inProgress then (h, false)
  else
    ({ h with transport :=
        ⟨message.length, 0, message.pgn, message.sourceAddress,
          .start (Timer.ticks now) h.config.requestTimeoutMs.toNat, true⟩ }, true)

/-- `j1939_transmit`, at clock `now`: the new state, what reached the bus, the answer. -/
def transmit (h : J1939Handler) (can : CANFrame → Bool) (now : Nat) (message : J1939Message) :
    Option (J1939Handler × List CANFrame × Bool) :=
  if message.length ≤ 8 then do
    let bytes ← message.data.slice 0 message.length
    let data ← (Buf.fill 64 0).blit 0 bytes
    let id := composeCanId message.priority message.pgn h.currentAddress
    some (h, Isotp.canTransmit can ⟨id.toNat, message.length, true, data⟩)
  else
    let (h', ok) := h.startTransportSession now message
    some (h', [], ok)

def sendAddressClaim (h : J1939Handler) (can : CANFrame → Bool) (now : Nat) :
    Option (J1939Handler × List CANFrame × Bool) := do
  let data ← (Buf.fill 1785 0).blit 0 h.config.name.elems
  h.transmit can now ⟨pgnAddressClaimed, 6, h.currentAddress, 255, data, 8⟩

def claimAddress (h : J1939Handler) (can : CANFrame → Bool) (now : Nat) :
    Option (J1939Handler × List CANFrame × Bool) := do
  let (h, sent, ok) ← sendAddressClaim { h with addressClaimed := false } can now
  some ({ h with claimTimer := .start (Timer.ticks now) 1250 }, sent, ok)

def requestPgn (h : J1939Handler) (can : CANFrame → Bool) (now : Nat) (pgn : UInt32)
    (destination : UInt8) : Option (J1939Handler × List CANFrame × Bool) := do
  let data ← (Buf.fill 1785 0).blit 0
    [(pgn &&& 0xFF).toUInt8, ((pgn >>> 8) &&& 0xFF).toUInt8, ((pgn >>> 16) &&& 0xFF).toUInt8]
  h.transmit can now ⟨pgnRequest, 6, h.currentAddress, destination, data, 3⟩

def processTransportPacket (h : J1939Handler) (frame : CANFrame) : J1939Handler :=
  if frame.data.cell controlByte = 0xFF then
    { h with transport := { h.transport with inProgress := false } }
  else h

/-- One round of the loop of `j1939_process`, with what the callback is told. -/
def processFrame (h : J1939Handler) (frame : CANFrame) : J1939Handler × List UInt8 :=
  if frame.id >>> 8 = pgnAddressClaimed.toNat then
    if frame.data.cell ⟨7, by decide⟩ < h.currentAddress then
      ({ h with currentAddress := h.currentAddress + 1, addressClaimed := false },
        if h.addressChangedCallback then [h.currentAddress + 1] else [])
    else (h, [])
  else if frame.dlc = 8 then (h.processTransportPacket frame, [])
  else (h, [])

/-- The loop of `j1939_process` over the frames that `can_receive` hands over. -/
def processFrames (h : J1939Handler) : List CANFrame → J1939Handler × List UInt8
  | [] => (h, [])
  | frame :: frames =>
    let (h₁, told) := h.processFrame frame
    let (h₂, later) := h₁.processFrames frames
    (h₂, told ++ later)

/-- The first part of `j1939_process`: a claim that is due is sent again. -/
def processClaim (h : J1939Handler) (can : CANFrame → Bool) (now : Nat) :
    Option (J1939Handler × List CANFrame) :=
  if h.config.supportAddressClaim && !h.addressClaimed then
    if h.claimTimer.expired (Timer.ticks now) then do
      let (h, sent, _) ← h.sendAddressClaim can now
      some ({ h with claimTimer := .start (Timer.ticks now) 1250 }, sent)
    else some (h, [])
  else some (h, [])

/-- `j1939_process`: the new state, what reached the bus, what the callback was told. -/
def process (h : J1939Handler) (can : CANFrame → Bool) (now : Nat) (received : List CANFrame) :
    Option (J1939Handler × List CANFrame × List UInt8) := do
  let (h, sent) ← h.processClaim can now
  let (h, told) := h.processFrames received
  some (h, sent, told)

end J1939Handler

/-- `j1939_receive` into `message`; `none` is an empty receive queue. -/
def receive (message : J1939Message) : Option CANFrame → Option (J1939Message × Bool)
  | none => some (message, false)
  | some frame => do
    let (priority, pgn, source) := decomposeCanId (UInt32.ofNat frame.id)
    let bytes ← frame.data.slice 0 frame.dlc
    let data ← message.data.blit 0 bytes
    some ({ message with
      priority, pgn, sourceAddress := source, length := frame.dlc, data }, true)

/-! ## Identifiers -/

section

variable {priority : UInt8} {pgn : UInt32}

theorem composeCanId_toNat (source : UInt8) (hpriority : priority.toNat < 8)
    (hpgn : pgn.toNat < 262144) : (composeCanId priority pgn source).toNat
      = (priority.toNat * 262144 + pgn.toNat) * 256 + source.toNat := by
  have hsource := source.toNat_lt
  have hhigh : (priority.toNat <<< 26) ||| (pgn.toNat <<< 8)
      = (priority.toNat * 262144 + pgn.toNat) <<< 8 := by
    rw [← Nat.shiftLeft_add_eq_or_of_lt (by omega)]
    omega
  have hshift : (priority.toUInt32 <<< 26).toNat = priority.toNat <<< 26 := by
    rw [UInt32.toNat_shiftLeft, UInt8.toNat_toUInt32]
    simp only [Nat.shiftLeft_eq, UInt32.toNat_ofNat, Nat.reduceMod, Nat.reducePow]
    omega
  have hshift' : (pgn <<< 8).toNat = pgn.toNat <<< 8 := by
    rw [UInt32.toNat_shiftLeft]
    simp only [Nat.shiftLeft_eq, UInt32.toNat_ofNat, Nat.reduceMod, Nat.reducePow]
    omega
  rw [composeCanId, UInt32.toNat_or, UInt32.toNat_or, hshift, hshift', hhigh,
    UInt8.toNat_toUInt32, ← Nat.shiftLeft_add_eq_or_of_lt (by omega), Nat.shiftLeft_eq]

theorem decomposeCanId_lt (canId : UInt32) :
    (decomposeCanId canId).1.toNat < 8 ∧ (decomposeCanId canId).2.1.toNat < 262144 := by
  constructor
  · exact (Nat.mod_le _ _).trans_lt (Nat.and_lt_two_pow _ (by decide : 7 < 2 ^ 3))
  · exact Nat.and_lt_two_pow _ (by decide : 0x3FFFF < 2 ^ 18)

theorem decompose_compose (source : UInt8) (hpriority : priority.toNat < 8)
    (hpgn : pgn.toNat < 262144) :
    decomposeCanId (composeCanId priority pgn source) = (priority, pgn, source) := by
  have hid := composeCanId_toNat source hpriority hpgn
  have hsource := source.toNat_lt
  have h₁ : ((composeCanId priority pgn source >>> 26) &&& 0x07).toUInt8 = priority := by
    apply UInt8.toNat_inj.mp
    rw [UInt32.toNat_toUInt8, UInt32.toNat_and, UInt32.toNat_shiftRight]
    show ((_ >>> 26) &&& (2 ^ 3 - 1)) % 2 ^ 8 = _
    rw [Nat.and_two_pow_sub_one_eq_mod]
    omega
  have h₂ : (composeCanId priority pgn source >>> 8) &&& 0x3FFFF = pgn := by
    apply UInt32.toNat_inj.mp
    rw [UInt32.toNat_and, UInt32.toNat_shiftRight]
    show (_ >>> 8) &&& (2 ^ 18 - 1) = _
    rw [Nat.and_two_pow_sub_one_eq_mod]
    omega
  have h₃ : (composeCanId priority pgn source &&& 0xFF).toUInt8 = source := by
    apply UInt8.toNat_inj.mp
    rw [UInt32.toNat_toUInt8, UInt32.toNat_and]
    show (_ &&& (2 ^ 8 - 1)) % 2 ^ 8 = _
    rw [Nat.and_two_pow_sub_one_eq_mod]
    omega
  rw [decomposeCanId, h₁, h₂, h₃]

end

/-! ## One frame -/

section

variable {h h' : J1939Handler} {can : CANFrame → Bool} {now : Nat} {message : J1939Message}
  {frame : CANFrame}

variable (h can now message) in
theorem J1939Handler.transmit_short (hlength : message.length ≤ 8) :
    ∃ data : Buf UInt8 64, data.elems.take message.length = message.data.elems.take message.length ∧
      h.transmit can now message = some (h, Isotp.canTransmit can
        ⟨(composeCanId message.priority message.pgn h.currentAddress).toNat, message.length, true,
          data⟩) := by
  have hslice : message.data.slice 0 message.length
      = some (message.data.elems.take message.length) := by
    rw [slice_eq_some (by omega), drop_zero]
  have hbytes := length_of_slice hslice
  obtain ⟨data, hblit, -⟩ := (Buf.fill 64 (0 : UInt8)).blit_eq_some 0
    (message.data.elems.take message.length) (by omega)
  have hfront := take_of_blit hblit
  rw [hbytes, take_zero, nil_append, Nat.zero_add] at hfront
  refine ⟨data, hfront, ?_⟩
  rw [transmit, if_pos hlength, hslice]
  simp [hblit]

theorem J1939Handler.frame_of_transmit (hlength : message.length ≤ 8)
    (hsent : h.transmit can now message = some (h', [frame], true)) :
    frame.id = (composeCanId message.priority message.pgn h.currentAddress).toNat ∧
      frame.dlc = message.length ∧
      frame.data.elems.take message.length = message.data.elems.take message.length := by
  obtain ⟨data, hdata, hsend⟩ := transmit_short h can now message hlength
  rw [hsend] at hsent
  unfold Isotp.canTransmit at hsent
  split at hsent
  · cases hsent
    exact ⟨rfl, rfl, hdata⟩
  · cases hsent

theorem receive_short (old : J1939Message) (hlength : frame.dlc ≤ 8) :
    ∃ message', receive old (some frame) = some (message', true) ∧
      (message'.priority, message'.pgn, message'.sourceAddress)
        = decomposeCanId (UInt32.ofNat frame.id) ∧
      message'.length = frame.dlc ∧
      message'.data.elems.take frame.dlc = frame.data.elems.take frame.dlc := by
  have hslice : frame.data.slice 0 frame.dlc = some (frame.data.elems.take frame.dlc) := by
    rw [slice_eq_some (by omega), drop_zero]
  have hbytes := length_of_slice hslice
  obtain ⟨data, hblit, -⟩ := old.data.blit_eq_some 0 (frame.data.elems.take frame.dlc) (by omega)
  have hfront := take_of_blit hblit
  rw [hbytes, Nat.zero_add] at hfront
  let fields := decomposeCanId (UInt32.ofNat frame.id)
  refine ⟨{ old with
    priority := fields.1, pgn := fields.2.1, sourceAddress := fields.2.2,
    length := frame.dlc, data }, ?_, rfl, rfl, hfront⟩
  simp only [receive, hslice, hblit, Option.bind_eq_bind, Option.bind_some]
  rfl

/-- What the receiver is to find: the message, and the sender's address. -/
structure Delivered (h : J1939Handler) (message message' : J1939Message) : Prop where
  priority : message'.priority = message.priority
  pgn : message'.pgn = message.pgn
  length : message'.length = message.length
  data : message'.data.elems.take message.length = message.data.elems.take message.length
  source : message'.sourceAddress = h.currentAddress

/-- **One frame from node to node.** What was sent is received, and its identifier has 29
bits, exactly when the priority and the group fit their places in the identifier. -/
theorem single_frame_delivered_iff (old : J1939Message) (hlength : message.length ≤ 8)
    (hsent : h.transmit can now message = some (h', [frame], true)) :
    ((∃ message', receive old (some frame) = some (message', true) ∧
        Delivered h message message') ∧ frame.id < 536870912) ↔
      message.priority.toNat < 8 ∧ message.pgn.toNat < 262144 := by
  obtain ⟨hid, hdlc, hdata⟩ := J1939Handler.frame_of_transmit hlength hsent
  obtain ⟨received, hreceive, hfields, hlen, hbytes⟩ :=
    receive_short old (hdlc.symm ▸ hlength)
  rw [hid, UInt32.ofNat_toNat] at hfields
  constructor
  · rintro ⟨⟨message', hreceive', hdelivered⟩, -⟩
    cases Option.mem_unique hreceive hreceive'
    have hcut := decomposeCanId_lt (composeCanId message.priority message.pgn h.currentAddress)
    rw [← hfields] at hcut
    rw [← hdelivered.priority, ← hdelivered.pgn]
    exact hcut
  · rintro ⟨hpriority, hpgn⟩
    rw [decompose_compose _ hpriority hpgn, Prod.mk.injEq, Prod.mk.injEq] at hfields
    refine ⟨⟨received, hreceive, hfields.1, hfields.2.1, hlen.trans hdlc, ?_, hfields.2.2⟩, ?_⟩
    · rw [← hdlc, hbytes, hdlc, hdata]
    · have hsource := h.currentAddress.toNat_lt
      rw [hid, composeCanId_toNat _ hpriority hpgn]
      omega

end

/-- A node without a name at address `0x80`. -/
def engine : J1939Handler := .create ⟨0x80, Buf.fill 8 0, false, 1000⟩

def ping (priority : UInt8) (pgn : UInt32) : J1939Message :=
  ⟨pgn, priority, 0, 0,
    ⟨[0xA1, 0xA2] ++ List.replicate 1783 0, by rw [length_append, length_replicate]; rfl⟩, 2⟩

def pingFrame (priority : UInt8) (pgn : UInt32) : CANFrame :=
  ⟨(composeCanId priority pgn 0x80).toNat, 2, true, ⟨[0xA1, 0xA2] ++ List.replicate 62 0, by simp⟩⟩

theorem ping_delivered :
    engine.transmit (fun _ => true) 0 (ping 6 0xFEF1) = some (engine, [pingFrame 6 0xFEF1], true) ∧
      (∃ message', receive (ping 0 0) (some (pingFrame 6 0xFEF1)) = some (message', true) ∧
        Delivered engine (ping 6 0xFEF1) message') ∧ (pingFrame 6 0xFEF1).id < 536870912 := by
  have hsent : engine.transmit (fun _ => true) 0 (ping 6 0xFEF1)
      = some (engine, [pingFrame 6 0xFEF1], true) := rfl
  exact ⟨hsent, (single_frame_delivered_iff (ping 0 0) (by decide) hsent).mpr (by decide)⟩

/-- Priority 8 is accepted, makes an identifier of 30 bits, and arrives as priority 0. -/
theorem priority_eight_lost :
    engine.transmit (fun _ => true) 0 (ping 8 0xFEF1) = some (engine, [pingFrame 8 0xFEF1], true) ∧
      (pingFrame 8 0xFEF1).id = 0x20FEF180 ∧
      ¬ ∃ message', receive (ping 0 0) (some (pingFrame 8 0xFEF1)) = some (message', true) ∧
        Delivered engine (ping 8 0xFEF1) message' := by
  refine ⟨rfl, by decide, ?_⟩
  rintro ⟨message', hreceive, hdelivered⟩
  cases hreceive
  cases hdelivered.priority

end Cant.Protocols
