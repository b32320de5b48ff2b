/-
# `FlowControl` — the pause a WAIT frame asks for

A flow-control frame with status WAIT sets `last_tx_time` to 100 ms from now, and
`NetworkHandler_Process` sends once `current_time - last_tx_time` has reached
`min_tx_interval`. The difference is unsigned:

    clock            t           t + 99      t + 100     t + 100 + min_tx_interval
    difference       2^32 - 100  2^32 - 1    0           min_tx_interval
    may send         yes         yes         no          yes

So the pause begins when it should end, and the 100 ms asked for are the one time at which
nothing is held back: `wait_pauses_iff` says that a run of calls in them transmits nothing exactly
if no call finds anything it could transmit.
-/
import Cant.Lib.Past
import Cant.Network.Transmit

namespace Cant.Network

open Past Word Run Option

/-- What happens in the 100 ms after a frame was received, each with the time since then: a call
of `NetworkHandler_Send` or `NetworkHandler_Process`, with what the CAN driver answers, or
another frame. -/
inductive WindowEvent where
  | send (data : List UInt8)
  | process (after : Fin 100) (initDone halOk : Bool)
  | rx (after : Fin 100) (data : Buf UInt8 8) (len : Fin 9)

namespace NetworkHandler

variable {data : Buf UInt8 8}

/-- One event in the 100 ms from `t` on; the output is the frame that was transmitted. -/
def windowStep (t : Nat) (s : NetworkHandler) :
    WindowEvent → Option (NetworkHandler × Option (Nat × List UInt8))
  | .send data => (s.send data).map fun r => (r.1, none)
  | .process after initDone halOk =>
    (s.process (u32 (t + after)) initDone halOk).map fun r => (r.1, r.2.sent)
  | .rx after data len => (s.handleCanRx (u32 (t + after)) data len).map fun s => (s, none)

def NothingToSend (s : NetworkHandler) (initDone halOk : Bool) : Prop :=
  s.txHead = s.txTail ∨ canTransmit initDone halOk (s.txLengths.cell s.txTail) = false

/-- A call of `NetworkHandler_Process` has nothing it could transmit. -/
def Idles (s : NetworkHandler) : WindowEvent → Prop
  | .send _ => True
  | .process _ initDone halOk => s.NothingToSend initDone halOk
  | .rx _ _ _ => True

/-- A WAIT was received at `t`, or after it within the 100 ms. -/
structure Paused (t : Nat) (s : NetworkHandler) : Prop where
  quiet : s.Quiet
  interval_lt : s.netConfig.minTxInterval < 2147483648
  resume : ∃ k, 100 ≤ k ∧ k < 200 ∧ s.lastTxTime = u32 ((t : Int) + k)

variable {s s' : NetworkHandler} {t : Nat}

/-- **The pause holds nothing back**: in the 100 ms the interval has always passed. -/
theorem Paused.overdue (h : Paused t s) (after : Fin 100) :
    s.netConfig.minTxInterval ≤ u32 ((u32 (t + after) : Int) - s.lastTxTime) := by
  obtain ⟨k, hk, hk', htime⟩ := h.resume
  have hmin := h.interval_lt
  rw [htime]
  unfold u32
  omega

theorem Paused.congr (h : Paused t s) (hrx : s'.Quiet) (hconfig : s'.netConfig = s.netConfig)
    (htime : s'.lastTxTime = s.lastTxTime) : Paused t s' :=
  ⟨hrx, hconfig ▸ h.interval_lt, htime.symm ▸ h.resume⟩

/-! ## One lemma per event -/

theorem Paused.send (h : Paused t s) (data : List UInt8) :
    ∃ s' ok, s.send data = some (s', ok) ∧ Paused t s' := by
  by_cases hrefused : data.length = 0 ∨ s.txHead + 1 = s.txTail
  · refine ⟨s, false, ?_, h⟩
    unfold NetworkHandler.send
    rcases hrefused with hzero | hfull
    · rw [if_pos (.inr hzero)]
    · rw [if_pos hfull, ite_self]
  · rw [not_or] at hrefused
    obtain ⟨s', hs', -⟩ := send_eq h.quiet.init hrefused.2 data (Nat.pos_of_ne_zero hrefused.1)
    refine ⟨s', true, hs', ?_⟩
    rw [NetworkHandler.send, if_neg (by simp [h.quiet.init, hrefused.1]), if_neg hrefused.2] at hs'
    simp only [bind_eq_bind, bind_eq_some_iff, Option.some.injEq, Prod.mk.injEq] at hs'
    obtain ⟨slot, -, slot', -, queue, -, lengths, -, rfl, -⟩ := hs'
    exact h.congr ⟨h.quiet.init, h.quiet.start, h.quiet.index_le⟩ rfl rfl

theorem processFlowControl_wait (h : s.Quiet) (hmin : s.netConfig.minTxInterval < 2147483648)
    {after : Nat} (hafter : after < 100) (hwait : (data.cell 1).toNat = 1) :
    ∃ s', s.processFlowControl (u32 (t + after)) data = some s' ∧ Paused t s' := by
  have hstatus : data.get? 1 = some (data.cell 1) := data.get?_cell 1
  have hblock : data.get? 2 = some (data.cell 2) := data.get?_cell 2
  have hst : data.get? 3 = some (data.cell 3) := data.get?_cell 3
  simp only [processFlowControl, hstatus, hblock, hst, bind_eq_bind, bind_some, hwait]
  refine ⟨_, rfl, ⟨h.init, h.start, h.index_le⟩, hmin, 100 + after, ?_, ?_, ?_⟩
  · omega
  · omega
  · show u32 (u32 (t + after) + 100) = _
    unfold u32
    omega

theorem Paused.flowControl (h : Paused t s) (after : Fin 100) (data : Buf UInt8 8) :
    ∃ s', s.processFlowControl (u32 (t + after)) data = some s' ∧ Paused t s' := by
  by_cases hwait : (data.cell 1).toNat = 1
  · exact processFlowControl_wait h.quiet h.interval_lt after.isLt hwait
  · have hstatus : data.get? 1 = some (data.cell 1) := data.get?_cell 1
    have hblock : data.get? 2 = some (data.cell 2) := data.get?_cell 2
    have hst : data.get? 3 = some (data.cell 3) := data.get?_cell 3
    have hquiet : ∀ s', SameRx s s' → s'.Quiet := fun s' hsame =>
      ⟨hsame.init.trans h.quiet.init, hsame.start.trans h.quiet.start,
        hsame.index.symm ▸ h.quiet.index_le⟩
    simp only [processFlowControl, hstatus, hblock, hst, bind_eq_bind, bind_some]
    generalize (data.cell 1).toNat = status at hwait
    rcases status with _ | _ | _ | n
    · exact ⟨_, rfl, hquiet _ ⟨rfl, rfl, rfl, rfl⟩, h.interval_lt, h.resume⟩
    · exact absurd rfl hwait
    · exact ⟨_, rfl, hquiet _ ⟨rfl, rfl, rfl, rfl⟩, h.interval_lt, h.resume⟩
    · exact ⟨_, rfl, h⟩

theorem Paused.rx (h : Paused t s) (after : Fin 100) (data : Buf UInt8 8) (len : Fin 9) :
    ∃ s', s.handleCanRx (u32 (t + after)) data len = some s' ∧ Paused t s' := by
  obtain ⟨r, hquiet, hsame, heq⟩ := handleCanRx_copied h.quiet (u32 (t + after)) data
    (Nat.le_of_lt_succ len.isLt)
  have hr : Paused t r := h.congr hquiet hsame.config hsame.time
  rw [heq]
  split
  · exact hr.flowControl after data
  · exact ⟨r, rfl, hr⟩

theorem transmitHead_overdue {now : Nat} (initDone halOk : Bool)
    (hdue : s.netConfig.minTxInterval ≤ u32 ((now : Int) - s.lastTxTime)) :
    ∃ s' sent, s.transmitHead now initDone halOk = some (s', sent) ∧ SameRx s s' ∧
      (s.NothingToSend initDone halOk → s' = s) ∧
        (s.NothingToSend initDone halOk ↔ sent = none) := by
  have hslot : s.txQueue.get? s.txTail = some (s.txQueue.cell s.txTail) := Buf.get?_cell _ _
  have hlen : s.txLengths.get? s.txTail = some (s.txLengths.cell s.txTail) := Buf.get?_cell _ _
  have hstay : SameRx s s := ⟨rfl, rfl, rfl, rfl⟩
  unfold transmitHead
  by_cases hempty : s.txHead = s.txTail
  · rw [if_neg fun hnow => hnow.1 hempty]
    exact ⟨s, none, rfl, hstay, fun _ => rfl, iff_of_true (.inl hempty) rfl⟩
  · rw [if_pos ⟨hempty, hdue⟩]
    simp only [hslot, hlen, bind_eq_bind, bind_some]
    cases htake : canTransmit initDone halOk (s.txLengths.cell s.txTail) with
    | false =>
      exact ⟨s, none, rfl, hstay, fun _ => rfl, iff_of_true (.inr htake) rfl⟩
    | true =>
      -- the driver takes at most eight bytes, so the slot is not overrun
      have hle : s.txLengths.cell s.txTail ≤ 8 := by
        simp only [canTransmit, Bool.and_eq_true, decide_eq_true_eq] at htake
        exact htake.1.2
      have hbusy : ¬ s.NothingToSend initDone halOk := by
        rintro (h | h)
        · exact hempty h
        · cases h.symm.trans htake
      rw [Buf.slice_eq_some (by omega)]
      exact ⟨_, _, rfl, ⟨rfl, rfl, rfl, rfl⟩, fun h => absurd h hbusy,
        iff_of_false hbusy (some_ne_none _)⟩

theorem Paused.process (h : Paused t s) (after : Fin 100) (initDone halOk : Bool) :
    ∃ s' out, s.process (u32 (t + after)) initDone halOk = some (s', out) ∧
      (s.NothingToSend initDone halOk → Paused t s') ∧
      (s.NothingToSend initDone halOk ↔ out.sent = none) := by
  obtain ⟨r, sent, hr, hsame, hstay, hsent⟩ :=
    transmitHead_overdue initDone halOk (h.overdue after)
  have hquiet : r.Quiet := ⟨hsame.init.trans h.quiet.init, hsame.start.trans h.quiet.start,
    hsame.index.symm ▸ h.quiet.index_le⟩
  obtain ⟨s', hs', -, hquiet', -⟩ := processRxBuffer_eq hquiet
  have htx := processRxBuffer_sameTx hs'
  refine ⟨s', ⟨sent, (networkScanner.scan r.pending).1⟩, ?_, fun hnothing => ?_, hsent⟩
  · simp [NetworkHandler.process, h.quiet.init, hr, hs']
  · obtain rfl := hstay hnothing
    exact h.congr hquiet' htx.config htx.time

/-- **Every event** in the 100 ms: nothing is transmitted exactly if there was nothing to transmit,
and then the pause goes on. -/
theorem Paused.step (h : Paused t s) (e : WindowEvent) :
    ∃ s' sent, s.windowStep t e = some (s', sent) ∧ (s.Idles e → Paused t s') ∧
      (s.Idles e ↔ sent = none) := by
  cases e with
  | send data =>
    obtain ⟨s', ok, hs', hpaused⟩ := h.send data
    refine ⟨s', none, ?_, fun _ => hpaused, iff_of_true trivial rfl⟩
    simp [windowStep, hs']
  | process after initDone halOk =>
    obtain ⟨s', out, hs', hpaused, hsent⟩ := h.process after initDone halOk
    refine ⟨s', out.sent, ?_, hpaused, hsent⟩
    simp [windowStep, hs']
  | rx after data len =>
    obtain ⟨s', hs', hpaused⟩ := h.rx after data len
    refine ⟨s', none, ?_, fun _ => hpaused, iff_of_true trivial rfl⟩
    simp [windowStep, hs']

theorem handleCanRx_wait (h : s.Quiet) (hmin : s.netConfig.minTxInterval < 2147483648)
    (hfc : data.cell 0 = 0x30) (hwait : data.cell 1 = 1) {len : Nat}
    (hlen : len ≤ 8) : ∃ s', s.handleCanRx (u32 t) data len = some s' ∧ Paused t s' := by
  obtain ⟨r, hquiet, hsame, heq⟩ := handleCanRx_copied h (u32 t) data hlen
  rw [heq, if_pos hfc]
  have hstatus : (data.cell 1).toNat = 1 := congrArg UInt8.toNat hwait
  obtain ⟨s', hs', hpaused⟩ := processFlowControl_wait (t := t) hquiet
    (hsame.config.symm ▸ hmin) (Nat.zero_lt_succ 99) hstatus
  exact ⟨s', hs', hpaused⟩

def Silent : List (Taken NetworkHandler WindowEvent (Option (Nat × List UInt8))) → Prop :=
  Historically fun e _ => e.output = none

end NetworkHandler

open NetworkHandler

/-- **A WAIT pauses only what has nothing to send.** After a WAIT at clock `t`, a run of calls
before `t + 100` transmits nothing exactly if every call of `NetworkHandler_Process` finds the queue
empty or the driver refusing. -/
theorem wait_pauses_iff (s : NetworkHandler) (hquiet : s.Quiet)
    (hmin : s.netConfig.minTxInterval < 2147483648) (t : Nat) (data : Buf UInt8 8)
    (hfc : data.cell 0 = 0x30) (hwait : data.cell 1 = 1) (len : Nat) (hlen : len ≤ 8)
    (events : List WindowEvent) :
    ∃ s', s.handleCanRx (u32 t) data len = some s' ∧
      (Throughout (logged (windowStep t)) (fun x => Silent x.1) ([], s') events ↔
        Along (logged (windowStep t)) (fun x e => x.2.Idles e) ([], s') events) := by
  obtain ⟨s', hs', hpaused⟩ := handleCanRx_wait (t := t) hquiet hmin hfc hwait hlen
  exact ⟨s', hs', historically_iff_of_total (fun x => Paused t x.2) (fun _ e h => h.step e) events
    hpaused trivial⟩

def waitFrame : Buf UInt8 8 := ⟨[0x30, 1, 0, 0, 0, 0, 0, 0], rfl⟩

/-- A string is queued, and the driver refuses it. -/
theorem wait_pauses_refused :
    ∃ s', idleHandler.handleCanRx (u32 1000) waitFrame 8 = some s' ∧
      Throughout (logged (windowStep 1000)) (fun x => Silent x.1) ([], s')
        [.send [1, 2, 3], .process 50 true false, .process 99 true false] := by
  have hrefused : ∀ (s : NetworkHandler) after, s.Idles (.process after true false) :=
    fun _ _ => .inr (Bool.and_false _)
  obtain ⟨s', hs', hiff⟩ := wait_pauses_iff idleHandler ⟨rfl, rfl, Nat.zero_le _⟩ (by decide) 1000
    waitFrame rfl rfl 8 (Nat.le_refl 8)
      [.send [1, 2, 3], .process 50 true false, .process 99 true false]
  exact ⟨s', hs', hiff.mpr ⟨trivial, fun _ _ _ => ⟨hrefused _ _, fun _ _ _ =>
    ⟨hrefused _ _, fun _ _ _ => trivial⟩⟩⟩⟩

/-- What `NetworkHandler_Process` transmits at `now`, with a string of three bytes queued and a WAIT
received at 1000. -/
def sentAfterWait (now : Nat) : Option (Option (Nat × List UInt8)) := do
  let (s, _) ← idleHandler.send [0x02, 0x3E, 0x00]
  let s ← s.handleCanRx 1000 waitFrame 8
  let (_, out) ← s.process now true true
  some out.sent

/-- The string goes out at once, and up to the last millisecond of the pause; it would be
held back when the pause is over. -/
theorem wait_transmits :
    sentAfterWait 1000 = some (some (0x7E8, [0x02, 0x3E, 0x00])) ∧
    sentAfterWait 1099 = some (some (0x7E8, [0x02, 0x3E, 0x00])) ∧
    sentAfterWait 1100 = some none := by
  decide +kernel

end Cant.Network
