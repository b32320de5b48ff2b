/-
# `J1939Claim` — two nodes and one address

Two nodes on a bus that loses nothing. A frame that a node sends is in flight until the other one's
`can_receive` hands it over; a call of `j1939_process` finds any number of them arrived.

A claim is sent with priority 6, so its identifier shifted by eight is `0x18EE00`, and
`j1939_process` compares that with `0xEE00`. No claim is ever recognised: the addresses stay
what they were (`Unrecognised`), however the calls are interleaved.
-/
import Cant.Lib.Run
import Cant.Protocols.J1939

namespace Cant.Protocols

open Function

inductive Side where
  | left | right
  deriving DecidableEq

def Side.other : Side → Side
  | left => right
  | right => left

/-- The nodes, and the frames on their way to each of them. -/
structure Network where
  node : Side → J1939Handler
  inbox : Side → List CANFrame

/-- What happens: a node claims its address, or runs `j1939_process` when `arrived` of the
frames to it have arrived. -/
inductive Event where
  | claim (side : Side) (now : Nat)
  | process (side : Side) (now arrived : Nat)

def lossless : CANFrame → Bool := fun _ => true

namespace Network

def create (config : Side → J1939Config) : Network :=
  ⟨fun side => .create (config side), fun _ => []⟩

def acted (net : Network) (side : Side) (h : J1939Handler) (rest sent : List CANFrame) : Network :=
  let inbox := update net.inbox side rest
  ⟨update net.node side h, update inbox side.other (inbox side.other ++ sent)⟩

def step (net : Network) : Event → Option (Network × List UInt8)
  | .claim side now => do
    let (h, sent, _) ← (net.node side).claimAddress lossless now
    some (net.acted side h (net.inbox side) sent, [])
  | .process side now arrived => do
    let (h, sent, told) ←
      (net.node side).process lossless now ((net.inbox side).take arrived)
    some (net.acted side h ((net.inbox side).drop arrived) sent, told)

end Network

def nameValue (name : Buf UInt8 8) : Nat := name.elems.foldr (fun b n => b.toNat + 256 * n) 0

/-- The addresses differ, and the node that has changed its own is the one with the higher
name. -/
def Settled (config : Side → J1939Config) (net : Network) : Prop :=
  (net.node .left).currentAddress ≠ (net.node .right).currentAddress ∧
    ∀ side, (net.node side).currentAddress ≠ (config side).address ↔
      nameValue (config side.other).name < nameValue (config side).name

/-! ## Claims on the bus -/

/-- The identifier of a claim, as `j1939_process` looks at it. -/
def IsClaim (frame : CANFrame) : Prop := frame.id >>> 8 = 0x18EE00

section

variable {h : J1939Handler} {can : CANFrame → Bool} {now : Nat} {frame : CANFrame}

theorem mem_canTransmit {f : CANFrame} (hf : f ∈ (Isotp.canTransmit can frame).1) : f = frame := by
  unfold Isotp.canTransmit at hf
  split at hf
  · exact List.mem_singleton.mp hf
  · cases hf

theorem composeCanId_claim (source : UInt8) :
    (composeCanId 6 pgnAddressClaimed source).toNat >>> 8 = 0x18EE00 := by
  have hid : (composeCanId 6 pgnAddressClaimed source).toNat
      = (6 * 262144 + 0xEE00) * 256 + source.toNat :=
    composeCanId_toNat source (by decide) (by decide)
  have hsource := source.toNat_lt
  omega

variable (h can now) in
theorem J1939Handler.sendAddressClaim_spec :
    ∃ sent ok, h.sendAddressClaim can now = some (h, sent, ok) ∧ ∀ f ∈ sent, IsClaim f := by
  obtain ⟨data, hblit, -⟩ := (Buf.fill 1785 (0 : UInt8)).blit_eq_some 0 h.config.name.elems
    (by rw [h.config.name.size_eq]; decide)
  obtain ⟨data', -, hsend⟩ := transmit_short h can now
    ⟨pgnAddressClaimed, 6, h.currentAddress, 255, data, 8⟩ (Nat.le_refl 8)
  let frame : CANFrame :=
    ⟨(composeCanId 6 pgnAddressClaimed h.currentAddress).toNat, 8, true, data'⟩
  refine ⟨(Isotp.canTransmit can frame).1, (Isotp.canTransmit can frame).2, ?_, ?_⟩
  · rw [sendAddressClaim, hblit]
    exact hsend
  · intro f hf
    rw [mem_canTransmit hf]
    exact composeCanId_claim h.currentAddress

def J1939Handler.SameAddress (h h' : J1939Handler) : Prop :=
  h'.config = h.config ∧ h'.currentAddress = h.currentAddress

theorem J1939Handler.processFrame_claim (h : J1939Handler) (hclaim : IsClaim frame) :
    h.SameAddress (h.processFrame frame).1 := by
  have hother : frame.id >>> 8 ≠ pgnAddressClaimed.toNat := by
    rw [hclaim]
    decide
  rw [processFrame, if_neg hother]
  split
  · unfold processTransportPacket
    split
    · exact ⟨rfl, rfl⟩
    · exact ⟨rfl, rfl⟩
  · exact ⟨rfl, rfl⟩

theorem J1939Handler.processFrames_claims {frames : List CANFrame} (h : J1939Handler)
    (hclaims : ∀ f ∈ frames, IsClaim f) : h.SameAddress (h.processFrames frames).1 := by
  induction frames generalizing h with
  | nil => exact ⟨rfl, rfl⟩
  | cons f frames ih =>
    have hnow := h.processFrame_claim (hclaims f List.mem_cons_self)
    have hlater := ih (h.processFrame f).1 fun g hg => hclaims g (.tail _ hg)
    exact ⟨hlater.1.trans hnow.1, hlater.2.trans hnow.2⟩

theorem J1939Handler.claimAddress_spec (h : J1939Handler) (can : CANFrame → Bool) (now : Nat) :
    ∃ timer sent ok, h.claimAddress can now =
        some ({ h with addressClaimed := false, claimTimer := timer }, sent, ok) ∧
      ∀ f ∈ sent, IsClaim f := by
  obtain ⟨sent, ok, hsend, hclaims⟩ :=
    sendAddressClaim_spec { h with addressClaimed := false } can now
  refine ⟨.start (Timer.ticks now) 1250, sent, ok, ?_, hclaims⟩
  rw [claimAddress, hsend]
  rfl

theorem J1939Handler.processClaim_spec (h : J1939Handler) (can : CANFrame → Bool) (now : Nat) :
    ∃ timer sent, h.processClaim can now = some ({ h with claimTimer := timer }, sent) ∧
      ∀ f ∈ sent, IsClaim f := by
  unfold processClaim
  split
  · split
    · obtain ⟨sent, ok, hsend, hclaims⟩ := h.sendAddressClaim_spec can now
      refine ⟨.start (Timer.ticks now) 1250, sent, ?_, hclaims⟩
      rw [hsend]
      rfl
    · exact ⟨h.claimTimer, [], rfl, nofun⟩
  · exact ⟨h.claimTimer, [], rfl, nofun⟩

theorem J1939Handler.process_spec {received : List CANFrame} (h : J1939Handler)
    (can : CANFrame → Bool) (now : Nat) (hclaims : ∀ f ∈ received, IsClaim f) :
    ∃ h' sent told, h.process can now received = some (h', sent, told) ∧ h.SameAddress h' ∧
      ∀ f ∈ sent, IsClaim f := by
  obtain ⟨timer, sent, hfirst, hsent⟩ := h.processClaim_spec can now
  let h₁ : J1939Handler := { h with claimTimer := timer }
  have hloop := h₁.processFrames_claims hclaims
  refine ⟨(h₁.processFrames received).1, sent, (h₁.processFrames received).2, ?_, hloop, hsent⟩
  rw [process, hfirst]
  rfl

end

/-- Each node has its first address, and only claims are in flight. -/
structure Unrecognised (config : Side → J1939Config) (net : Network) : Prop where
  address : ∀ side, (net.node side).currentAddress = (config side).address
  claims : ∀ side, ∀ f ∈ net.inbox side, IsClaim f

namespace Unrecognised

variable {config : Side → J1939Config} {net : Network}

theorem acted (hinv : Unrecognised config net) {side : Side} {h : J1939Handler}
    {rest sent : List CANFrame} (hsame : (net.node side).SameAddress h)
    (hrest : ∀ f ∈ rest, IsClaim f) (hsent : ∀ f ∈ sent, IsClaim f) :
    Unrecognised config (net.acted side h rest sent) := by
  have hinbox : ∀ s, ∀ f ∈ update net.inbox side rest s, IsClaim f := by
    intro s f hf
    by_cases hs : s = side
    · rw [hs, update_self] at hf
      exact hrest f hf
    · rw [update_of_ne hs] at hf
      exact hinv.claims s f hf
  constructor
  · intro s
    show (update net.node side h s).currentAddress = _
    by_cases hs : s = side
    · rw [hs, update_self]
      exact hsame.2.trans (hinv.address side)
    · rw [update_of_ne hs]
      exact hinv.address s
  · intro s f hf
    by_cases hs : s = side.other
    · have hf' : f ∈ update net.inbox side rest side.other ++ sent := by
        rw [hs] at hf
        simpa [Network.acted] using hf
      rcases List.mem_append.mp hf' with hold | hnew
      · exact hinbox _ f hold
      · exact hsent f hnew
    · have hf' : f ∈ update net.inbox side rest s := by
        simpa only [Network.acted, update_of_ne hs] using hf
      exact hinbox s f hf'

theorem step (hinv : Unrecognised config net) (event : Event) :
    ∃ net' told, net.step event = some (net', told) ∧ Unrecognised config net' := by
  cases event with
  | claim side now =>
    obtain ⟨timer, sent, ok, hcall, hsent⟩ := (net.node side).claimAddress_spec lossless now
    have hsame : (net.node side).SameAddress
        { net.node side with addressClaimed := false, claimTimer := timer } := ⟨rfl, rfl⟩
    refine ⟨_, [], ?_, hinv.acted hsame (hinv.claims side) hsent⟩
    rw [Network.step, hcall]
    rfl
  | process side now arrived =>
    obtain ⟨h, sent, told, hcall, hsame, hsent⟩ := (net.node side).process_spec lossless now
      fun f hf => hinv.claims side f (List.mem_of_mem_take hf)
    have hrest : ∀ f ∈ (net.inbox side).drop arrived, IsClaim f :=
      fun f hf => hinv.claims side f (List.mem_of_mem_drop hf)
    refine ⟨_, told, ?_, hinv.acted hsame hrest hsent⟩
    rw [Network.step, hcall]
    rfl

end Unrecognised

/-- **Two claims of one address.** However the calls of the two nodes and the arrival of
their frames are interleaved, the nodes never come to different addresses. -/
theorem claim_never_settles {config : Side → J1939Config}
    (hsame : (config .left).address = (config .right).address) (events : List Event) :
    Run.Throughout Network.step (fun net => ¬ Settled config net) (.create config) events :=
  Run.throughout_of_inv (Unrecognised config)
    (fun _ hinv hsettled => hsettled.1 (by rw [hinv.address, hinv.address, hsame]))
    (fun _ event hinv => hinv.step event) events
    ⟨fun _ => rfl, nofun⟩

/-- Names one and two, both at address `0x80`. -/
def twins : Side → J1939Config
  | .left => ⟨0x80, ⟨[1, 0, 0, 0, 0, 0, 0, 0], rfl⟩, true, 1000⟩
  | .right => ⟨0x80, ⟨[2, 0, 0, 0, 0, 0, 0, 0], rfl⟩, true, 1000⟩

def exchange : List Event :=
  [.claim .left 0, .claim .right 0, .process .left 1 1, .process .right 1 1]

theorem twins_never_settle :
    Run.Throughout Network.step (fun net => ¬ Settled twins net) (.create twins) exchange :=
  claim_never_settles rfl exchange

/-- The names differ, nothing is in flight any more, and the addresses are the same. -/
theorem twins_share_address : (twins .left).name ≠ (twins .right).name ∧
    ∃ net told, Run.run Network.step (.create twins) exchange = some (net, told) ∧
      net.inbox .left = [] ∧ net.inbox .right = [] ∧
      (net.node .left).currentAddress = (net.node .right).currentAddress :=
  ⟨by decide, _, _, rfl, rfl, rfl, rfl⟩

end Cant.Protocols
