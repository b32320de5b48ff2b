/-
# `J1939Session` — the transport session of a node

A message of more than eight bytes opens the node's one transport session, and while it is open
`j1939_transmit` takes no other. `start_transport_session` starts a timer for it, and that is
the last the timer is heard of:

    reads transport.in_progress     start_transport_session
    sets it                         start_transport_session
    clears it                       process_transport_packet, at an abort
    reads transport.timeout         nobody

So a session is open just from the message that opened it to the next abort
(`session_released_iff`), and one whose time is over stays.
-/
import Cant.Lib.Past
import Cant.Protocols.J1939Claim

namespace Cant.Protocols

open Past Run List

/-! ## Frames and calls -/

def isTransport (frame : CANFrame) : Bool :=
  frame.id >>> 8 ≠ pgnAddressClaimed.toNat && frame.dlc = 8

def isAbort (frame : CANFrame) : Bool :=
  isTransport frame && frame.data.cell controlByte = 0xFF

namespace J1939Handler

/-- The calls; `can` is the driver, `received` what it hands over. -/
inductive Call where
  | process (can : CANFrame → Bool) (received : List CANFrame)
  | transmit (can : CANFrame → Bool) (message : J1939Message)
  | claimAddress (can : CANFrame → Bool)
  | requestPgn (can : CANFrame → Bool) (pgn : UInt32) (destination : UInt8)

/-- What reached the bus, what the callback was told, and the answer. -/
structure Outcome where
  sent : List CANFrame
  told : List UInt8
  accepted : Bool

def step (now : Nat) (h : J1939Handler) : Call → Option (J1939Handler × Outcome)
  | .process can received => (h.process can now received).map fun r => (r.1, ⟨r.2.1, r.2.2, true⟩)
  | .transmit can message => (h.transmit can now message).map fun r => (r.1, ⟨r.2.1, [], r.2.2⟩)
  | .claimAddress can => (h.claimAddress can now).map fun r => (r.1, ⟨r.2.1, [], r.2.2⟩)
  | .requestPgn can pgn destination =>
    (h.requestPgn can now pgn destination).map fun r => (r.1, ⟨r.2.1, [], r.2.2⟩)

namespace Call

def isProcess : Call → Bool
  | .process _ _ => true
  | _ => false

def received : Call → List CANFrame
  | .process _ received => received
  | _ => []

def isLong : Call → Bool
  | .transmit _ message => 8 < message.length
  | _ => false

theorem received_of_isLong {call : Call} (h : call.isLong = true) : call.received = [] := by
  cases call with
  | process => cases h
  | transmit | claimAddress | requestPgn => rfl

end Call

/-! ## What a log shows -/

abbrev Entry := Taken (Nat × J1939Handler) (Nat × Call) Outcome

variable {x : List Entry × (Nat × J1939Handler)}

def Opened (e : Entry) : Prop := e.input.2.isLong = true ∧ e.output.accepted = true
  deriving Decidable

def Transported (e : Entry) : Prop := ∃ f ∈ e.input.2.received, isTransport f = true
  deriving Decidable

def Aborted (e : Entry) : Prop := ∃ f ∈ e.input.2.received, isAbort f = true

def Open (log : List Entry) : Prop := Since (fun e => ¬ Aborted e) (fun e _ => Opened e) log

/-- When the last long message was accepted, if no transport frame has arrived since. -/
def waitingSince : List Entry → Option Nat
  | [] => none
  | e :: past =>
    if Opened e then some e.post.1 else if Transported e then none else waitingSince past

/-- A long message was accepted, no transport frame has arrived since, and `j1939_process` was
called when `timeout` had passed. -/
def Overdue (timeout : Nat) : List Entry → Prop
  | [] => False
  | e :: past => ¬ Opened e ∧ ¬ Transported e ∧
      (Overdue timeout past ∨
        e.input.2.isProcess = true ∧ ∃ t ∈ waitingSince past, t + timeout ≤ e.post.1)

/-- A session whose time is over has been released: the next long message is accepted. -/
def Released (timeout : Nat) (x : List Entry × (Nat × J1939Handler)) : Prop :=
  Overdue timeout x.1 → x.2.2.transport.inProgress = false ∧
    ∀ can now message, 8 < message.length →
      ∃ h', x.2.2.transmit can now message = some (h', [], true)

section

variable {h : J1939Handler} {can : CANFrame → Bool} {now : Nat} {message : J1939Message}

theorem inProgress_processFrame (h : J1939Handler) (frame : CANFrame) :
    (h.processFrame frame).1.transport.inProgress = (h.transport.inProgress && !isAbort frame) := by
  unfold processFrame isAbort isTransport
  by_cases hclaim : frame.id >>> 8 = pgnAddressClaimed.toNat
  · simp only [hclaim, if_true, ne_eq, not_true, decide_false, Bool.false_and, Bool.not_false,
      Bool.and_true]
    split <;> rfl
  · by_cases hdlc : frame.dlc = 8
    · simp only [hclaim, hdlc, if_false, if_true, processTransportPacket, ne_eq, not_false_eq_true,
        decide_true, Bool.true_and]
      split
      case isTrue hfirst => rw [decide_eq_true hfirst, Bool.not_true, Bool.and_false]
      case isFalse hfirst => rw [decide_eq_false hfirst, Bool.not_false, Bool.and_true]
    · simp [hclaim, hdlc]

theorem inProgress_processFrames (received : List CANFrame) (h : J1939Handler) :
    (h.processFrames received).1.transport.inProgress =
      (h.transport.inProgress && !received.any isAbort) := by
  induction received generalizing h with
  | nil => rw [any_nil, Bool.not_false, Bool.and_true]; rfl
  | cons frame received ih =>
    rw [any_cons, Bool.not_or, ← Bool.and_assoc, ← inProgress_processFrame]
    exact ih (h.processFrame frame).1

/-- `start_transport_session` leaves a session open, and its answer says whether it opened one. -/
theorem startTransportSession_spec (h : J1939Handler) (now : Nat) (message : J1939Message) :
    (h.startTransportSession now message).1.transport.inProgress = true ∧
      (h.startTransportSession now message).2 = !h.transport.inProgress := by
  unfold startTransportSession
  cases hopen : h.transport.inProgress with
  | true => exact ⟨hopen, rfl⟩
  | false => exact ⟨rfl, rfl⟩

theorem step_spec (now : Nat) (h : J1939Handler) (call : Call) :
    ∃ h' o, step now h call = some (h', o) ∧
      h'.transport.inProgress =
        (call.isLong || h.transport.inProgress && !call.received.any isAbort) ∧
      (call.isLong = true → o.accepted = !h.transport.inProgress) := by
  cases call with
  | process can received =>
    obtain ⟨timer, sent, hclaim, -⟩ := h.processClaim_spec can now
    let h₁ : J1939Handler := { h with claimTimer := timer }
    refine ⟨(h₁.processFrames received).1, ⟨sent, (h₁.processFrames received).2, true⟩, ?_,
      inProgress_processFrames received h₁, fun hlong => absurd hlong Bool.false_ne_true⟩
    rw [step, process, hclaim]
    rfl
  | transmit can message =>
    by_cases hlong : 8 < message.length
    · obtain ⟨hopen, hok⟩ := h.startTransportSession_spec now message
      refine ⟨(h.startTransportSession now message).1,
        ⟨[], [], (h.startTransportSession now message).2⟩, ?_, ?_, fun _ => hok⟩
      · rw [step, transmit, if_neg (Nat.not_le.mpr hlong)]
        rfl
      · rw [Call.isLong, decide_eq_true hlong]
        exact hopen
    · obtain ⟨data, -, hsend⟩ := h.transmit_short can now message (Nat.not_lt.mp hlong)
      generalize Isotp.canTransmit can _ = sent at hsend
      refine ⟨h, ⟨sent.1, [], sent.2⟩, ?_, ?_, fun htrue => absurd (of_decide_eq_true htrue) hlong⟩
      · rw [step, hsend]
        rfl
      · rw [Call.isLong, decide_eq_false hlong]
        exact (Bool.and_true _).symm
  | claimAddress can =>
    obtain ⟨timer, sent, ok, hclaim, -⟩ := h.claimAddress_spec can now
    refine ⟨{ h with addressClaimed := false, claimTimer := timer }, ⟨sent, [], ok⟩, ?_,
      (Bool.and_true _).symm, fun hlong => absurd hlong Bool.false_ne_true⟩
    rw [step, hclaim]
    rfl
  | requestPgn can pgn destination =>
    obtain ⟨data, hblit, -⟩ := (Buf.fill 1785 (0 : UInt8)).blit_eq_some 0
      [(pgn &&& 0xFF).toUInt8, ((pgn >>> 8) &&& 0xFF).toUInt8, ((pgn >>> 16) &&& 0xFF).toUInt8]
      (by simp only [length_cons, length_nil]; omega)
    obtain ⟨data', -, hsend⟩ := h.transmit_short can now
      ⟨pgnRequest, 6, h.currentAddress, destination, data, 3⟩ (by show 3 ≤ 8; decide)
    generalize Isotp.canTransmit can _ = sent at hsend
    refine ⟨h, ⟨sent.1, [], sent.2⟩, ?_, (Bool.and_true _).symm,
      fun hlong => absurd hlong Bool.false_ne_true⟩
    rw [step, requestPgn, some_bind hblit, hsend]
    rfl

end

section

variable {timeout : Nat} {log : List Entry}

theorem transported_of_aborted {e : Entry} (h : Aborted e) : Transported e := by
  obtain ⟨f, hf, habort⟩ := h
  rw [isAbort, Bool.and_eq_true] at habort
  exact ⟨f, hf, habort.1⟩

theorem open_of_waiting : ∀ {log : List Entry} {t : Nat}, waitingSince log = some t → Open log
  | e :: past, t, h => by
    rw [waitingSince] at h
    split at h
    case isTrue hopened => exact .inl hopened
    case isFalse =>
      split at h
      case isTrue => cases h
      case isFalse hquiet =>
        exact .inr ⟨fun habort => hquiet (transported_of_aborted habort), open_of_waiting h⟩

theorem open_of_overdue : ∀ {log : List Entry}, Overdue timeout log → Open log
  | e :: past, ⟨_, hquiet, hrest⟩ => by
    refine .inr ⟨fun habort => hquiet (transported_of_aborted habort), ?_⟩
    rcases hrest with hoverdue | ⟨-, t, ht, -⟩
    · exact open_of_overdue hoverdue
    · exact open_of_waiting ht

end

def Follows (x : List Entry × (Nat × J1939Handler)) : Prop :=
  x.2.2.transport.inProgress = true ↔ Open x.1

theorem Follows.step (hx : Follows x) (i : Nat × Call) :
    ∃ s' o, timed J1939Handler.step x.2 i = some (s', o) ∧
      Follows (⟨x.2, i, o, s'⟩ :: x.1, s') := by
  obtain ⟨h', o, hstep, hopen, hanswer⟩ := step_spec (x.2.1 + i.1) x.2.2 i.2
  refine ⟨_, o, timed_eq hstep, ?_⟩
  let e : Entry := ⟨x.2, i, o, (x.2.1 + i.1, h')⟩
  show h'.transport.inProgress = true ↔ Opened e ∨ ¬ Aborted e ∧ Open x.1
  have hlog : (x.2.2.transport.inProgress && !i.2.received.any isAbort) = true ↔
      ¬ Aborted e ∧ Open x.1 := by
    rw [Bool.and_eq_true, Bool.not_eq_true', Bool.eq_false_iff, and_comm]
    exact and_congr (not_congr any_eq_true) hx
  rw [hopen, Bool.or_eq_true, hlog]
  cases hlong : i.2.isLong with
  | false =>
    refine or_congr_left (iff_of_false Bool.false_ne_true fun hopened => ?_)
    cases hlong.symm.trans hopened.1
  | true =>
    -- a long message finds the session open, or opens it
    refine iff_of_true (.inl rfl) ?_
    cases hbefore : x.2.2.transport.inProgress with
    | false => exact .inl ⟨hlong, by rw [hanswer hlong, hbefore]; rfl⟩
    | true =>
      refine .inr (hlog.mp ?_)
      rw [hbefore, Call.received_of_isLong hlong]
      rfl

theorem Follows.released_iff (hx : Follows x)
    {timeout : Nat} : Released timeout x ↔ ¬ Overdue timeout x.1 := by
  constructor
  · intro hreleased hoverdue
    have hopen := hx.mpr (open_of_overdue hoverdue)
    rw [(hreleased hoverdue).1] at hopen
    cases hopen
  · intro hnever hoverdue
    exact absurd hoverdue hnever

/-- **The session, over every run.** It is open just when a long message was accepted and no
abort has arrived since. A session whose time is over is released exactly in the runs where
none ever is: time alone closes nothing. -/
theorem session_released_iff (config : J1939Config) (started : Nat) (calls : List (Nat × Call)) :
    Throughout (logged (timed step)) Follows ([], (started, create config)) calls ∧
      (Throughout (logged (timed step)) (Released config.requestTimeoutMs.toNat)
          ([], (started, create config)) calls ↔
        Throughout (logged (timed step)) (fun x => ¬ Overdue config.requestTimeoutMs.toNat x.1)
          ([], (started, create config)) calls) := by
  have hfollows : Follows ([], (started, create config)) := iff_of_false Bool.false_ne_true id
  constructor
  · refine throughout_of_inv Follows (fun _ hx => hx) ?_ calls hfollows
    intro x i hx
    obtain ⟨s', o, hs, hnext⟩ := hx.step i
    exact ⟨_, o, logged_eq hs, hnext⟩
  · have hany : Along (logged (timed step)) (fun _ _ => True)
      ([], (started, create config)) calls := along_of_forall fun _ _ => trivial
    refine throughout_congr Follows (fun x hx => hx.released_iff) ?_ calls hfollows hany
    intro x i x' o hx _ hx'
    obtain ⟨s', hs, rfl⟩ := logged_iff.mp hx'
    obtain ⟨s₁, o₁, hs₁, hnext⟩ := hx.step i
    cases hs₁.symm.trans hs
    exact hnext

def patient : J1939Config := ⟨0x20, Buf.fill 8 0, false, 100⟩

def nineBytes : J1939Message := ⟨0xFECA, 6, 0x20, 255, Buf.fill 1785 0, 9⟩

/-- A second after the first long message, with nothing received and `j1939_process` called all
the while, the second one is refused. -/
theorem session_stays_open :
    (∃ h₁ o₁ h₂ o₂ h₃ o₃, step 0 (create patient) (.transmit (fun _ => true) nineBytes) =
      some (h₁, o₁) ∧
        o₁.accepted = true ∧ step 500 h₁ (.process (fun _ => true) []) = some (h₂, o₂) ∧
        step 1000 h₂ (.transmit (fun _ => true) nineBytes) = some (h₃, o₃) ∧ o₃.accepted = false) ∧
    ¬ Throughout (logged (timed step)) (Released patient.requestTimeoutMs.toNat)
      ([], (0, create patient))
      [(0, .transmit (fun _ => true) nineBytes), (500, .process (fun _ => true) [])] := by
  refine ⟨⟨_, _, _, _, _, _, rfl, rfl, rfl, rfl, rfl⟩, fun h => ?_⟩
  have hlast := h.last rfl
  have hover : (∃ t ∈ some 0, t + 100 ≤ 500) := ⟨0, rfl, by decide⟩
  refine absurd (hlast ⟨?_, ?_, .inr ⟨rfl, hover⟩⟩).1 (by decide)
  · exact fun hopened => Bool.false_ne_true hopened.1
  · exact fun ⟨f, hf, _⟩ => absurd hf not_mem_nil

end J1939Handler

end Cant.Protocols
