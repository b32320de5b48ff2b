/-
# `IsotpReassembly` — what the ISO-TP receiver delivers

The frames received so far are the history; `Complete` says that a message is accounted for by it:

    the payload of one single frame, or
    one first frame, then its consecutive frames numbered 1, 2, … modulo 16 with
    no other message started in between, and all the bytes it announced,
    each within the `dlc` bytes of its frame

The receiver has two ways of going wrong. `process_consecutive_frame` answers a
sequence error by clearing `receiving_multi`, but leaves `length`, and
`isotp_receive` takes a positive `length` outside a reassembly for a finished
message (`sequence_error_delivers`). And nothing looks at `dlc`, so bytes that a
frame does not have are copied. In a run of `Regular` frames everything delivered
is complete (`delivered_complete`).
-/
import Cant.Lib.Run
import Cant.Protocols.Isotp

namespace Cant.Protocols

open Word Run List

/-! ## The runs -/

/-- A call at the receiver. The driver's answers and the clock are part of it. -/
inductive RxEvent where
  | process (can : CANFrame → Bool) (now : Nat) (frames : List CANFrame)
  | receive

def RxEvent.frames : RxEvent → List CANFrame
  | .process _ _ frames => frames
  | .receive => []

/-- One call; the output is what `isotp_receive` delivered. -/
def Isotp.rxStep (s : Isotp) : RxEvent → Option (Isotp × Option (List UInt8))
  | .process can now frames => (s.process can now frames).map fun r => (r.1, none)
  | .receive => s.receive

/-- The frame has the bytes that are copied out of it, by its `dlc`, and is no sequence error. -/
structure CANFrame.Regular (id : Nat) (rx : RxState) (f : CANFrame) : Prop where
  single : f.IsSingle id → f.low < f.dlc
  first : f.IsFirst id → min 6 f.firstLength + 1 < f.dlc
  consecutive : f.IsConsecutive id → rx.receivingMulti = true →
    f.low = rx.sequence ∧ rx.segment < f.dlc

/-- Every frame of the call is regular when its turn comes. -/
def Isotp.FramesRegular (can : CANFrame → Bool) : Isotp → List CANFrame → Prop
  | _, [] => True
  | s, f :: fs => f.Regular s.config.rxId s.rx ∧
      ∀ s' sent, s.handleFrame can f = some (s', sent) → s'.FramesRegular can fs

def Isotp.ReceivesRegular (s : Isotp) : RxEvent → Prop
  | .process can _ frames => s.FramesRegular can frames
  | .receive => True

/-! ## Complete messages -/

/-- `mid` holds `n` consecutive frames numbered from one on, each with its part of the `length`
bytes, and nothing that starts a message; their data bytes are `bytes`. -/
inductive Follows (id length : Nat) : Nat → List CANFrame → List UInt8 → Prop
  | nil : Follows id length 0 [] []
  | skip {n : Nat} {mid : List CANFrame} {bytes : List UInt8} {f : CANFrame} :
      Follows id length n mid bytes → ¬ f.IsSingle id → ¬ f.IsFirst id → ¬ f.IsConsecutive id →
      Follows id length n (mid ++ [f]) bytes
  | next {n : Nat} {mid : List CANFrame} {bytes : List UInt8} {f : CANFrame} :
      Follows id length n mid bytes → f.IsConsecutive id → f.low = (n + 1) % 16 →
      min 7 (length - (6 + 7 * n)) < f.dlc →
      Follows id length (n + 1) (mid ++ [f]) (bytes ++ f.bytes 1 7)

/-- Consecutive frames a message of `length` bytes takes. -/
def consecutiveCount (length : Nat) : Nat := (length - 6 + 6) / 7

/-- The history accounts for the message. -/
inductive Complete (id : Nat) : List CANFrame → List UInt8 → Prop
  | single {pre post : List CANFrame} {f : CANFrame} : f.IsSingle id → f.low < f.dlc →
      Complete id (pre ++ f :: post) (f.bytes 1 f.low)
  | multi {pre mid post : List CANFrame} {f : CANFrame} {bytes : List UInt8} : f.IsFirst id →
      min 6 f.firstLength + 1 < f.dlc →
      Follows id f.firstLength (consecutiveCount f.firstLength) mid bytes →
      f.firstLength ≤ 6 + bytes.length →
      Complete id (pre ++ f :: (mid ++ post)) ((f.bytes 2 6 ++ bytes).take f.firstLength)

variable {id length : Nat}

theorem Follows.length_bytes {n : Nat} {mid : List CANFrame} {bytes : List UInt8}
    (h : Follows id length n mid bytes) : bytes.length = 7 * n := by
  induction h with
  | nil => rfl
  | skip _ _ _ _ ih => exact ih
  | next _ _ _ _ ih =>
    rw [length_append, CANFrame.length_bytes _ _ _ (by omega)]
    omega

theorem Complete.append {hist : List CANFrame} {msg : List UInt8} (h : Complete id hist msg)
    (more : List CANFrame) : Complete id (hist ++ more) msg := by
  cases h with
  | single hf hdlc =>
    rw [append_assoc]
    exact .single hf hdlc
  | multi hf hdlc hfol hlen =>
    rw [append_assoc, cons_append, append_assoc]
    exact .multi hf hdlc hfol hlen

/-! ## The invariant -/

/-- A reassembly under way: after the first frame `f` the frames `mid` brought
`n` segments, and the buffer holds the bytes of all of them. -/
structure Assembling (id : Nat) (rx : RxState) (f : CANFrame) (mid : List CANFrame) (n : Nat)
    (bytes : List UInt8) : Prop where
  first : f.IsFirst id
  dlc : min 6 f.firstLength + 1 < f.dlc
  follows : Follows id f.firstLength n mid bytes
  length : rx.length = f.firstLength
  offset : rx.offset = 6 + 7 * n
  sequence : rx.sequence = (n + 1) % 16
  /-- Only a message that fits its first frame is awaited beyond its length. -/
  missing : 6 + 7 * n < f.firstLength ∨ n = 0
  held : rx.buffer.elems.take (6 + 7 * n) = f.bytes 2 6 ++ bytes

/-- What the receive side says about the history. -/
structure Accounted (id : Nat) (hist : List CANFrame) (rx : RxState) : Prop where
  inRange : rx.InRange
  assembling : rx.receivingMulti = true →
    ∃ pre f mid n bytes, hist = pre ++ f :: mid ∧ Assembling id rx f mid n bytes
  finished : rx.receivingMulti = false → 0 < rx.length →
    Complete id hist (rx.buffer.elems.take rx.length)

variable {rx rx' : RxState} {hist : List CANFrame} {f g : CANFrame} {mid : List CANFrame} {n : Nat}
  {bytes : List UInt8}

variable {buffer : Buf UInt8 4095}

section

variable (h : Assembling id rx f mid n bytes)
include h

/-- A message that fits its first frame is finished by the next segment,
whatever that brings. -/
theorem Assembling.finish_short (hshort : f.firstLength ≤ 6) {k : Nat} {tail : List UInt8}
    (hbuf : buffer.elems.take (rx.offset + k) = rx.buffer.elems.take rx.offset ++ tail)
    (pre : List CANFrame) :
    Complete id (pre ++ f :: (mid ++ [g])) (buffer.elems.take rx.length) := by
  obtain rfl : n = 0 := h.missing.resolve_left (by omega)
  have hheld := h.held
  have hnil : bytes = [] := length_eq_zero_iff.mp h.follows.length_bytes
  rw [hnil, append_nil] at hheld
  have hmsg : buffer.elems.take rx.length = (f.bytes 2 6 ++ []).take f.firstLength := by
    have htake := congrArg (List.take f.firstLength) hbuf
    rw [take_take, h.offset, Nat.min_eq_left (by omega), hheld,
      take_append_of_le_length (by rw [f.length_bytes 2 6 (by omega)]; exact hshort)] at htake
    rw [h.length, htake, append_nil]
  rw [hmsg]
  have hcount : consecutiveCount f.firstLength = 0 := by
    rw [consecutiveCount]
    omega
  show Complete id (pre ++ f :: ([] ++ (mid ++ [g]))) _
  exact .multi h.first h.dlc (hcount ▸ .nil) (by simpa using hshort)

theorem Assembling.finish_long
    (hmissing : 6 + 7 * n < f.firstLength) (hlast : f.firstLength ≤ 6 + 7 * (n + 1))
    (hg : g.IsConsecutive id) (hseq : g.low = rx.sequence) (hdlc : rx.segment < g.dlc)
    (hbuf : buffer.elems.take (rx.offset + rx.segment)
      = rx.buffer.elems.take rx.offset ++ g.bytes 1 rx.segment) (pre : List CANFrame) :
    Complete id (pre ++ f :: (mid ++ [g])) (buffer.elems.take rx.length) := by
  have hle := f.firstLength_le
  have hseg : rx.segment = f.firstLength - (6 + 7 * n) := by
    rw [rx.segment_eq (by rw [h.offset, h.length]; omega) (by rw [h.length]; exact hle),
      h.offset, h.length]
    omega
  have hfol : Follows id f.firstLength (n + 1) (mid ++ [g]) (bytes ++ g.bytes 1 7) :=
    .next h.follows hg (hseq.trans h.sequence) (by omega)
  have hcount : consecutiveCount f.firstLength = n + 1 := by
    rw [consecutiveCount]
    omega
  have hlen := h.follows.length_bytes
  have hsix := f.length_bytes 2 6 (by omega)
  have hmsg : buffer.elems.take rx.length
      = (f.bytes 2 6 ++ (bytes ++ g.bytes 1 7)).take f.firstLength := by
    rw [h.offset, hseg, h.held, show 6 + 7 * n + (f.firstLength - (6 + 7 * n)) = f.firstLength by
      omega] at hbuf
    rw [h.length, hbuf, ← append_assoc, take_append, take_of_length_le
      (by rw [length_append]; omega), length_append, hsix, hlen, CANFrame.bytes,
      CANFrame.bytes, CANFrame.bytes, take_take, Nat.min_eq_left (by omega)]
  rw [hmsg, show pre ++ f :: (mid ++ [g]) = pre ++ f :: (mid ++ [g] ++ []) by
    rw [append_nil]]
  refine .multi h.first h.dlc (hcount ▸ hfol) ?_
  rw [length_append, g.length_bytes 1 7 (by omega)]
  omega

theorem Assembling.next
    (hmissing : 6 + 7 * (n + 1) < f.firstLength) (hg : g.IsConsecutive id)
    (hseq : g.low = rx.sequence) (hdlc : rx.segment < g.dlc)
    (hbuf : buffer.elems.take (rx.offset + rx.segment)
      = rx.buffer.elems.take rx.offset ++ g.bytes 1 rx.segment) {multi : Bool} :
    Assembling id { rx with
        buffer := buffer, offset := rx.offset + rx.segment, sequence := (rx.sequence + 1) % 16,
        receivingMulti := multi }
      f (mid ++ [g]) (n + 1) (bytes ++ g.bytes 1 7) := by
  have hle := f.firstLength_le
  have hseg : rx.segment = 7 := by
    rw [rx.segment_eq (by rw [h.offset, h.length]; omega) (by rw [h.length]; exact hle),
      h.offset, h.length]
    omega
  refine ⟨h.first, h.dlc, .next h.follows hg (hseq.trans h.sequence) (by omega), h.length, ?_, ?_,
    .inl hmissing, ?_⟩
  · show rx.offset + rx.segment = 6 + 7 * (n + 1)
    rw [h.offset]
    omega
  · show (rx.sequence + 1) % 16 = (n + 1 + 1) % 16
    rw [h.sequence]
    omega
  · rw [h.offset, hseg, h.held, append_assoc] at hbuf
    exact hbuf

end

theorem Accounted.effect (h : Accounted id hist rx) (he : RxEffect id rx g rx')
    (hok : g.Regular id rx) : Accounted id (hist ++ [g]) rx' := by
  refine ⟨h.inRange.effect he, ?_, ?_⟩
  · intro hm
    cases he with
    | ignored hs hf hc =>
      obtain ⟨pre, f, mid, n, bytes, rfl, ha⟩ := h.assembling hm
      refine ⟨pre, f, mid ++ [g], n, bytes, by simp, ha.first, ha.dlc, .skip ha.follows hs hf ?_,
        ha.length, ha.offset, ha.sequence, ha.missing, ha.held⟩
      intro hcf
      rw [hc hcf] at hm
      cases hm
    | single | sequenceError => cases hm
    | first hf hbuf =>
      exact ⟨hist, g, [], 0, [], rfl, hf, hok.first hf, .nil, rfl, rfl, rfl, .inr rfl,
        by simpa using hbuf⟩
    | segment hg hmulti hseq hbuf =>
      obtain ⟨pre, f, mid, n, bytes, rfl, ha⟩ := h.assembling hmulti
      simp only [Bool.not_eq_true', decide_eq_false_iff_not, ge_iff_le, not_le] at hm
      have hlast : 6 + 7 * (n + 1) < f.firstLength := by
        have hle := f.firstLength_le
        have hseg := rx.segment_eq (by omega) (by rw [ha.length]; exact hle)
        rw [ha.offset, ha.length] at hm hseg
        omega
      have hdlc := (hok.consecutive hg hmulti).2
      exact ⟨pre, f, mid ++ [g], n + 1, _, by simp, ha.next hlast hg hseq hdlc hbuf⟩
  · intro hm hpos
    cases he with
    | ignored => exact (h.finished hm hpos).append [g]
    | single hs hbuf =>
      rw [hbuf]
      exact .single hs (hok.single hs)
    | first => cases hm
    | sequenceError hg hmulti hne => exact absurd (hok.consecutive hg hmulti).1 hne
    | segment hg hmulti hseq hbuf =>
      obtain ⟨pre, f, mid, n, bytes, rfl, ha⟩ := h.assembling hmulti
      simp only [Bool.not_eq_false', decide_eq_true_eq, ge_iff_le] at hm
      rw [append_assoc]
      rcases Nat.lt_or_ge (6 + 7 * n) f.firstLength with hlong | hshort
      · refine ha.finish_long hlong ?_ hg hseq (hok.consecutive hg hmulti).2 hbuf pre
        have := rx.segment_le
        rw [ha.length, ha.offset] at hm
        omega
      · have h6 : f.firstLength ≤ 6 := by
          have := ha.missing
          omega
        exact ha.finish_short h6 hbuf pre

/-! ## Whole runs -/

namespace Isotp

variable {s : Isotp}

theorem handleFrames_accounted (can : CANFrame → Bool) : ∀ (frames : List CANFrame) {s : Isotp}
    {hist : List CANFrame}, Accounted id hist s.rx → s.config.rxId = id →
    s.FramesRegular can frames →
    ∃ s' sent, s.handleFrames can frames = some (s', sent) ∧ s'.config = s.config ∧
      s'.tx = s.tx ∧ Accounted id (hist ++ frames) s'.rx
  | [], s, hist, h, _, _ => ⟨s, [], rfl, rfl, rfl, by rwa [append_nil]⟩
  | f :: fs, s, hist, h, hid, hok => by
    obtain ⟨rx, sent, h₁, he, -⟩ := handleFrame_effect h.inRange can f
    have hacc : Accounted id (hist ++ [f]) rx := by
      rw [hid] at he
      exact h.effect he (hid ▸ hok.1)
    obtain ⟨s', sent', h₂, hcfg, htx, hacc'⟩ :=
      handleFrames_accounted can fs (s := { s with rx := rx }) hacc hid (hok.2 _ _ h₁)
    refine ⟨s', sent ++ sent', ?_, hcfg, htx, ?_⟩
    · simp [handleFrames, h₁, h₂]
    · rwa [append_assoc] at hacc'

theorem rxStep_accounted {past : List RxEvent} (h : Accounted id (past.flatMap RxEvent.frames) s.rx)
    (hid : s.config.rxId = id) (e : RxEvent) (hok : s.ReceivesRegular e) :
    ∃ s' o, s.rxStep e = some (s', o) ∧
      (Accounted id ((past ++ [e]).flatMap RxEvent.frames) s'.rx ∧ s'.config.rxId = id) := by
  rw [flatMap_append, flatMap_singleton]
  cases e with
  | process can now frames =>
    obtain ⟨s', sent, h₁, hcfg, -, hacc⟩ := handleFrames_accounted can frames h hid hok
    obtain ⟨t, ht, hrx, hcfg'⟩ := process_of_handleFrames h₁ now
    refine ⟨t, none, ?_, hrx ▸ hacc, by rw [hcfg', hcfg]; exact hid⟩
    simp [rxStep, ht]
  | receive =>
    simp only [RxEvent.frames, append_nil]
    rcases receive_eq h.inRange with ⟨hm, -, hr⟩ | ⟨-, hr⟩
    · refine ⟨_, _, hr, ⟨⟨Nat.zero_le _, fun hm' => ?_⟩, fun hm' => ?_, fun _ hpos => ?_⟩, hid⟩
      · cases hm.symm.trans hm'
      · cases hm.symm.trans hm'
      · exact absurd hpos (Nat.lt_irrefl 0)
    · exact ⟨_, _, hr, h, hid⟩

theorem create_accounted (id : Nat) (config : ISOTPConfig) : Accounted id [] (create config).rx :=
  ⟨create_inRange config, nofun, fun _ h => absurd h (Nat.lt_irrefl 0)⟩

end Isotp

/-- **In a run of regular frames, only complete messages are delivered.** Every call returns
without an access outside an array, and what `isotp_receive` then hands out is accounted for by the
frames received before. -/
theorem delivered_complete (config : ISOTPConfig) (events : List RxEvent)
    (hok : Along Isotp.rxStep Isotp.ReceivesRegular (Isotp.create config) events) :
    ∃ s outs, run Isotp.rxStep (Isotp.create config) events = some (s, outs) ∧
      ∃ t out, s.receive = some (t, out) ∧
        ∀ msg, out = some msg → Complete config.rxId (events.flatMap RxEvent.frames) msg := by
  obtain ⟨s, outs, hrun, hacc, -⟩ := run_along
    (fun past s => Accounted config.rxId (past.flatMap RxEvent.frames) s.rx ∧
      s.config.rxId = config.rxId)
    (fun past s e h he => Isotp.rxStep_accounted h.1 h.2 e he) events []
    ⟨Isotp.create_accounted _ config, rfl⟩ hok
  refine ⟨s, outs, hrun, ?_⟩
  rcases Isotp.receive_eq hacc.inRange with ⟨hm, hpos, hr⟩ | ⟨-, hr⟩
  · refine ⟨_, _, hr, fun msg hmsg => ?_⟩
    cases hmsg
    exact hacc.finished hm hpos
  · exact ⟨_, _, hr, fun msg hmsg => by cases hmsg⟩

/-! ## The defect -/

/-- The eight bytes of a frame, the rest of `data` zero. -/
def CANFrame.ofBytes (id : Nat) (b₀ b₁ b₂ b₃ b₄ b₅ b₆ b₇ : UInt8) : CANFrame :=
  ⟨id, 8, false, ⟨[b₀, b₁, b₂, b₃, b₄, b₅, b₆, b₇] ++ List.replicate 56 0, rfl⟩⟩

def listener : ISOTPConfig := ⟨0x7E0, 0x7E8, 0, 0, 1000⟩

def firstOf8 : CANFrame := .ofBytes 0x7E0 0x10 0x08 1 2 3 4 5 6

def restOf8 : CANFrame := .ofBytes 0x7E0 0x21 7 8 0 0 0 0 0

theorem regular_of8 (can : CANFrame → Bool) :
    (Isotp.create listener).FramesRegular can [firstOf8, restOf8] := by
  refine ⟨⟨fun _ => by decide, fun _ => by decide, fun hc => absurd hc.2 (by decide)⟩,
    fun s' sent h => ⟨⟨fun _ => by decide, fun hf => absurd hf.2.1 (by decide), fun _ _ => ?_⟩,
      fun _ _ _ => trivial⟩⟩
  obtain ⟨rx, sent', h', he, -⟩ :=
    Isotp.handleFrame_effect (Isotp.create_inRange listener) can firstOf8
  cases Option.mem_unique h' h
  cases he with
  | ignored _ hf => exact absurd ⟨rfl, by decide, by decide⟩ hf
  | single hs => cases hs.2.1
  | first => exact ⟨rfl, Nat.lt_succ_of_le (RxState.segment_le _)⟩
  | sequenceError hc | segment hc => cases hc.2

/-- The eight-byte message, its two frames received in one call. -/
theorem delivered_complete_eight :
    ∃ s outs, run Isotp.rxStep (Isotp.create listener)
        [.process (fun _ => true) 0 [firstOf8, restOf8]] = some (s, outs) ∧
      ∃ t, s.receive = some (t, some [1, 2, 3, 4, 5, 6, 7, 8]) ∧
        Complete 0x7E0 [firstOf8, restOf8] [1, 2, 3, 4, 5, 6, 7, 8] := by
  obtain ⟨s, outs, hrun, t, out, hr, hmsg⟩ := delivered_complete listener
    [.process (fun _ => true) 0 [firstOf8, restOf8]] ⟨regular_of8 _, fun _ _ _ => trivial⟩
  cases hrun
  cases hr
  exact ⟨_, _, rfl, _, rfl, hmsg _ rfl⟩

def firstOf20 : CANFrame := .ofBytes 0x7E0 0x10 0x14 1 2 3 4 5 6

def secondFirst : CANFrame := .ofBytes 0x7E0 0x22 7 8 9 10 11 12 13

theorem Follows.le_length (h : Follows id length n mid bytes) : n ≤ mid.length := by
  induction h with
  | nil => exact Nat.le_refl 0
  | skip _ _ _ _ ih =>
    rw [length_append]
    exact Nat.le_add_right_of_le ih
  | next _ _ _ _ ih =>
    rw [length_append]
    exact Nat.succ_le_succ ih

theorem Complete.frames {msg : List UInt8} (h : Complete id hist msg) :
    (∃ f ∈ hist, f.IsSingle id) ∨
      ∃ f ∈ hist, f.IsFirst id ∧ consecutiveCount f.firstLength + 1 ≤ hist.length := by
  cases h with
  | @single pre post f hf => exact .inl ⟨f, by simp, hf⟩
  | @multi pre mid post f bytes hf _ hfol =>
    refine .inr ⟨f, by simp, hf, ?_⟩
    have hle := hfol.le_length
    simp only [length_append, length_cons]
    omega

/-- **A sequence error delivers the message it aborts.** After a first frame and
a consecutive frame with a wrong number, `isotp_receive` hands out twenty bytes,
of which six were received; the two frames do not account for them. -/
theorem sequence_error_delivers :
    ∃ s outs t msg, run Isotp.rxStep (Isotp.create listener)
        [.process (fun _ => true) 0 [firstOf20, secondFirst]] = some (s, outs) ∧
      s.receive = some (t, some msg) ∧ msg = [1, 2, 3, 4, 5, 6] ++ List.replicate 14 0 ∧
      ¬ Complete listener.rxId [firstOf20, secondFirst] msg := by
  refine ⟨_, _, _, _, rfl, rfl, by decide +kernel, fun hc => ?_⟩
  rcases hc.frames with ⟨f, hmem, hf⟩ | ⟨f, hmem, hf, hcount⟩
  · rcases mem_pair.mp hmem with rfl | rfl
    all_goals cases hf.2.1
  · rcases mem_pair.mp hmem with rfl | rfl
    · exact absurd hcount (by decide)
    · cases hf.2.1

end Cant.Protocols
