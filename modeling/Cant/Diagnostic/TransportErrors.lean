/-
# `TransportErrors` — what a rejected frame leaves behind

Three places of `Diag_Transport_ProcessReceived` reject a frame, and each does the same
two things in the same order:

    frame          rejected if                          last_error
    first          it announces more than 4096 bytes    TP_ERROR_OVERFLOW, then reset_rx_state
    consecutive    no request is under way              TP_ERROR_SEQUENCE, then reset_rx_state
    consecutive    it has the wrong number              TP_ERROR_SEQUENCE, then reset_rx_state

`reset_rx_state` drops the request under way, and a request that is handed over was begun
after the last rejection. But it sets `last_error` back too, so the error is gone before
anybody can ask for it.
-/
import Cant.Lib.Past
import Cant.Diagnostic.Transport

namespace Cant.Diagnostic

open Past Run Word Option

namespace DiagTransport

variable {err : TransportError} {head : UInt8} {rest : List UInt8}

def getLastError (s : DiagTransport) : TransportError := s.rx.lastError

def frameType (head : UInt8) : Nat := (head.toNat >>> 4) &&& 0x0F

def announced (head next : UInt8) : Nat := ((head.toNat &&& 0x0F) <<< 8) ||| next.toNat

/-- The error a frame is rejected with, if it is. -/
def rejection (s : DiagTransport) (data : List UInt8) : Option TransportError :=
  if ¬ s.rx.initialized then none
  else
    match data with
    | [] => none
    | head :: rest =>
      match frameType head with
      | 1 =>
        match rest with
        | [] => none
        | next :: _ => if announced head next > 4096 then some .overflow else none
      | 2 =>
        if s.rx.state ≠ .receivingMultiFrame ∨ head.toNat &&& 0x0F ≠ s.rx.sequenceNumber then
          some .sequence
        else none
      | _ => none

def Begins (n : Nat) (data : List UInt8) : Prop :=
  ∃ head next rest, data = head :: next :: rest ∧ frameType head = 1 ∧ announced head next = n

def Continues (data : List UInt8) : Prop :=
  ∃ head rest, data = head :: rest ∧ frameType head = 2

theorem announced_le (head next : UInt8) : announced head next ≤ 4095 := by
  have hnext : next.toNat < 2 ^ 8 := next.toNat_lt
  unfold announced
  rw [and_0x0F, ← Nat.shiftLeft_add_eq_or_of_lt hnext]
  omega

variable {σ : Type} {platform : NullWrite} {handler : UdsHandler σ} {s s' : DiagTransport}
  {uds uds' : σ} {data : List UInt8} {out : List UdsMessage}

theorem rejection_iff :
    s.rejection data = some err ↔
      err = .sequence ∧ s.rx.initialized = true ∧ ∃ head rest, data = head :: rest ∧
        frameType head = 2 ∧
        (s.rx.state ≠ .receivingMultiFrame ∨ head.toNat &&& 0x0F ≠ s.rx.sequenceNumber) := by
  constructor
  · intro h
    unfold rejection at h
    split at h
    · cases h
    next hinit =>
      rw [not_not] at hinit
      split at h
      · cases h
      next head rest =>
        split at h
        · split at h
          · cases h
          next next _ =>
            have := announced_le head next
            rw [if_neg (by omega)] at h
            cases h
        next htype =>
          split at h
          next hwrong =>
            cases h
            exact ⟨rfl, hinit, head, rest, rfl, htype, hwrong⟩
          · cases h
        · cases h
  · rintro ⟨rfl, hinit, head, rest, rfl, htype, hwrong⟩
    simp [rejection, hinit, htype, if_pos hwrong]

/-! ## What a frame does -/

/-- What a call with `data` can do. -/
inductive Received (s : DiagTransport) (uds : σ) (data : List UInt8) :
    DiagTransport → σ → List UdsMessage → Prop
  | rejected {err : TransportError} : s.rejection data = some err →
      Received s uds data s.resetRxState uds []
  | begun {s' : DiagTransport} : s.rejection data = none → Begins s'.rx.expectedLength data →
      Received s uds data s' uds []
  | kept {s' : DiagTransport} {uds' : σ} {out : List UdsMessage} : s.rejection data = none →
      s'.rx.state = s.rx.state → s'.rx.expectedLength = s.rx.expectedLength →
      (Continues data → out = []) → Received s uds data s' uds' out
  | completed {s' : DiagTransport} {uds' : σ} : s.rejection data = none → Continues data →
      s.rx.state = .receivingMultiFrame → s'.rx.state = .idle →
      Received s uds data s' uds' [⟨0, 0, none, s.rx.expectedLength⟩]

theorem sendResponse_rx {reply : Option (List UInt8)} {n : Nat} {ok : Bool}
    (h : s.sendResponse reply n = some (s', ok)) :
    s'.rx.state = s.rx.state ∧ s'.rx.expectedLength = s.rx.expectedLength := by
  unfold sendResponse at h
  split at h
  · cases h
    exact ⟨rfl, rfl⟩
  · split at h
    · cases h
      exact ⟨rfl, rfl⟩
    · split at h
      · cases h
        exact ⟨rfl, rfl⟩
      · obtain ⟨bytes, -, h⟩ := bind_eq_some_iff.mp h
        split at h
        · cases h
          exact ⟨rfl, rfl⟩
        · obtain ⟨buffer, -, h⟩ := bind_eq_some_iff.mp h
          cases h
          exact ⟨rfl, rfl⟩

theorem dispatch_rx {payload : List UInt8}
    (h : dispatch platform handler s uds payload = some ((s', uds'), out)) :
    s'.rx.state = s.rx.state ∧ s'.rx.expectedLength = s.rx.expectedLength := by
  cases platform with
  | traps => cases h
  | passes =>
    rw [dispatch_passes] at h
    dsimp only at h
    split at h
    · obtain ⟨r, hsend, h⟩ := bind_eq_some_iff.mp h
      cases h
      exact sendResponse_rx hsend
    · cases h
      exact ⟨rfl, rfl⟩

theorem processFirst_begins (htype : frameType head = 1)
    (h : s.processFirst (head :: rest) = some s') :
    Begins s'.rx.expectedLength (head :: rest) := by
  cases rest with
  | nil => cases h
  | cons next rest =>
    have := announced_le head next
    change (if announced head next > 4096 then _ else _) = _ at h
    rw [if_neg (by omega)] at h
    obtain ⟨bytes, -, h⟩ := bind_eq_some_iff.mp h
    obtain ⟨buffer, -, h⟩ := bind_eq_some_iff.mp h
    cases h
    exact ⟨head, next, rest, rfl, htype, rfl⟩

theorem processFlowControl_rx (h : s.processFlowControl data = some s') :
    s'.rx.state = s.rx.state ∧ s'.rx.expectedLength = s.rx.expectedLength := by
  unfold processFlowControl at h
  split at h
  · cases h
    exact ⟨rfl, rfl⟩
  · obtain ⟨head, -, h⟩ := bind_eq_some_iff.mp h
    obtain ⟨_, -, h⟩ := bind_eq_some_iff.mp h
    obtain ⟨_, -, h⟩ := bind_eq_some_iff.mp h
    split at h
    all_goals
      cases h
      exact ⟨rfl, rfl⟩

theorem processConsecutive_received
    (hinit : s.rx.initialized = true) (htype : frameType head = 2)
    (h : processConsecutive platform handler s uds (head :: rest) = some ((s', uds'), out)) :
    Received s uds (head :: rest) s' uds' out := by
  have hcont : Continues (head :: rest) := ⟨head, rest, rfl, htype⟩
  have hreject : s.rx.state ≠ .receivingMultiFrame ∨ head.toNat &&& 0x0F ≠ s.rx.sequenceNumber →
      Received s uds (head :: rest) s.resetRxState uds [] := fun hwrong =>
    .rejected (rejection_iff.mpr ⟨rfl, hinit, head, rest, rfl, htype, hwrong⟩)
  unfold processConsecutive at h
  split at h
  next hidle =>
    cases h
    exact hreject (.inl hidle)
  next hstate =>
    obtain ⟨b, hb, h⟩ := bind_eq_some_iff.mp h
    obtain rfl : head = b := Option.some.inj hb
    dsimp only at h
    split at h
    next hnumber =>
      cases h
      exact hreject (.inr hnumber)
    next hnumber =>
      rw [not_not] at hstate hnumber
      have hnone : s.rejection (head :: rest) = none := by
        simp [rejection, htype, hstate, hnumber]
      obtain ⟨bytes, -, h⟩ := bind_eq_some_iff.mp h
      obtain ⟨buffer, -, h⟩ := bind_eq_some_iff.mp h
      generalize (if u16 (s.rx.expectedLength - s.rx.bufferIndex) > 7 then 7
        else u16 (s.rx.expectedLength - s.rx.bufferIndex)) = copyLength at h
      split at h
      · obtain ⟨payload, hpayload, h⟩ := bind_eq_some_iff.mp h
        obtain ⟨⟨⟨t, uds₁⟩, requests⟩, hdispatch, h⟩ := bind_eq_some_iff.mp h
        cases h
        rw [dispatch_requests hdispatch, Buf.length_of_slice hpayload]
        exact .completed hnone hcont hstate rfl
      · cases h
        exact .kept hnone rfl rfl fun _ => rfl

/-- **What a call does**: it rejects the frame, begins a request, hands one over, or leaves the one
under way as it is. -/
theorem processReceived_received
    (h : processReceived platform handler (s, uds) data = some ((s', uds'), out)) :
    Received s uds data s' uds' out := by
  simp only [processReceived] at h
  split at h
  next hguard =>
    cases h
    refine .kept ?_ rfl rfl fun _ => rfl
    rcases hguard with hinit | hlen
    · simp [rejection, hinit]
    · rw [List.length_eq_zero_iff.mp hlen]
      simp [rejection]
  next hguard =>
    rw [not_or, not_not] at hguard
    obtain ⟨hinit, hlen⟩ := hguard
    cases data with
    | nil => exact absurd rfl hlen
    | cons head rest =>
      obtain ⟨b, hb, h⟩ := bind_eq_some_iff.mp h
      obtain rfl : head = b := Option.some.inj hb
      have hnone : frameType head ≠ 2 → s.rejection (head :: rest) = none := by
        intro htype
        rw [eq_none_iff_forall_ne_some]
        intro err herr
        obtain ⟨-, -, head', rest', heq, htype', -⟩ := rejection_iff.mp herr
        cases heq
        exact htype htype'
      have hcont : frameType head ≠ 2 → Continues (head :: rest) → out = [] := by
        rintro htype ⟨head', rest', heq, htype'⟩
        cases heq
        exact absurd htype' htype
      have hshift : (head.toNat >>> 4) &&& 0x0F = frameType head := rfl
      rw [hshift] at h
      rcases htype : frameType head with _ | _ | _ | _ | n
      · have hother : frameType head ≠ 2 := by rw [htype]; decide
        rw [htype] at h
        change (if head.toNat &&& 0x0F > 0 ∧ head.toNat &&& 0x0F ≤ 7 then _ else _) = _ at h
        split at h
        · obtain ⟨payload, -, h⟩ := bind_eq_some_iff.mp h
          obtain ⟨hstate, hlength⟩ := dispatch_rx h
          exact .kept (hnone hother) hstate hlength (hcont hother)
        · cases h
          exact .kept (hnone hother) rfl rfl fun _ => rfl
      · have hother : frameType head ≠ 2 := by rw [htype]; decide
        rw [htype] at h
        obtain ⟨t, hfirst, heq⟩ := map_eq_some_iff.mp h
        cases heq
        exact .begun (hnone hother) (processFirst_begins htype hfirst)
      · rw [htype] at h
        exact processConsecutive_received hinit htype h
      · have hother : frameType head ≠ 2 := by rw [htype]; decide
        rw [htype] at h
        obtain ⟨t, hflow, heq⟩ := map_eq_some_iff.mp h
        cases heq
        obtain ⟨hstate, hlength⟩ := processFlowControl_rx hflow
        exact .kept (hnone hother) hstate hlength fun _ => rfl
      · have hother : frameType head ≠ 2 := by omega
        rw [htype] at h
        cases h
        exact .kept (hnone hother) rfl rfl fun _ => rfl

/-! ## The request under way -/

abbrev RxCall (σ : Type) := Taken (DiagTransport × σ) (List UInt8) (List UdsMessage)

def Rejects (err : TransportError) (e : RxCall σ) (_ : List (RxCall σ)) : Prop :=
  e.pre.1.rejection e.input = some err

def Takes (e : RxCall σ) : Prop := e.pre.1.rejection e.input = none

def Ignored (e : RxCall σ) : Prop := e.pre.1.rx.initialized = false ∨ e.input = []

/-- A first frame that announced `n` bytes came in, and nothing was rejected since. -/
def UnderWay (n : Nat) : List (RxCall σ) → Prop := Since Takes fun e _ => Begins n e.input

/-- What becomes of a request: a frame that is rejected drops it, and is not shown to the UDS
handler; what a consecutive frame hands over was begun after the last rejection. -/
structure Drops (e : RxCall σ) (past : List (RxCall σ)) : Prop where
  dropped : ∀ err, Rejects err e past → e.output = [] ∧ e.post.2 = e.pre.2 ∧
    e.post.1.rx.state = .idle ∧ e.post.1.rx.bufferIndex = 0 ∧ e.post.1.rx.expectedLength = 0
  handed : Continues e.input → ∀ request ∈ e.output, UnderWay request.length past

/-- After a rejection, and until a frame is processed, `Diag_Transport_GetLastError` gives the
error. -/
def Reports (x : List (RxCall σ) × (DiagTransport × σ)) : Prop :=
  ∀ err, Since Ignored (Rejects err) x.1 → x.2.1.getLastError = err

/-- The invariant: what is under way was begun, and not dropped. -/
structure Tracked (x : List (RxCall σ) × (DiagTransport × σ)) : Prop where
  past : Historically Drops x.1
  begun : x.2.1.rx.state = .receivingMultiFrame → UnderWay x.2.1.rx.expectedLength x.1

theorem Tracked.step {x x' : List (RxCall σ) × (DiagTransport × σ)} (h : Tracked x)
    (hstep : logged (processReceived platform handler) x data = some (x', out)) : Tracked x' := by
  obtain ⟨⟨s', uds'⟩, hs, rfl⟩ := logged_iff.mp hstep
  have hreceived := processReceived_received hs
  cases hreceived with
  | rejected hreject =>
    refine ⟨⟨⟨fun _ _ => ⟨rfl, rfl, rfl, rfl, rfl⟩, fun _ => ?_⟩, h.past⟩, fun hstate => ?_⟩
    · exact nofun
    · cases hstate
  | begun hnone hbegins =>
    refine ⟨⟨⟨fun err herr => ?_, fun _ => ?_⟩, h.past⟩, fun _ => .inl hbegins⟩
    · cases hnone.symm.trans herr
    · exact nofun
  | kept hnone hstate hlength hquiet =>
    refine ⟨⟨⟨fun err herr => ?_, fun hcont request hrequest => ?_⟩, h.past⟩, fun hrecv => ?_⟩
    · cases hnone.symm.trans herr
    · rw [hquiet hcont] at hrequest
      cases hrequest
    · refine .inr ⟨hnone, ?_⟩
      rw [hlength]
      exact h.begun (hstate.symm.trans hrecv)
  | completed hnone hcont hstate hidle =>
    refine ⟨⟨⟨fun err herr => ?_, fun _ request hrequest => ?_⟩, h.past⟩, fun hrecv => ?_⟩
    · cases hnone.symm.trans herr
    · rw [List.mem_singleton.mp hrequest]
      exact h.begun hstate
    · cases hidle.symm.trans hrecv

/-! ## The error -/

theorem rejected_forgets (hreject : s.rejection data = some err)
    (h : processReceived platform handler (s, uds) data = some ((s', uds'), out)) :
    s'.getLastError ≠ err := by
  have hseq := (rejection_iff.mp hreject).1
  cases processReceived_received h with
  | rejected => exact hseq ▸ TransportError.noConfusion
  | begun hnone | kept hnone | completed hnone =>
    cases hreject.symm.trans hnone

theorem reports_iff (platform : NullWrite) (handler : UdsHandler σ) (start : DiagTransport × σ)
    (frames : List (List UInt8)) :
    Throughout (logged (processReceived platform handler)) Reports ([], start) frames ↔
      Along (logged (processReceived platform handler))
        (fun x data => (processReceived platform handler x.2 data).isSome ∧
          x.2.1.rejection data = none) ([], start) frames := by
  refine throughout_logged_iff (fun x => ∀ err, ¬ Since Ignored (Rejects err) x.1)
    (fun x h err hsince => absurd hsince (h err)) ?_ ?_ frames fun err h => h
  · rintro x data h ⟨hdefined, hnone⟩
    obtain ⟨⟨s', out⟩, hs⟩ := isSome_iff_exists.mp hdefined
    refine ⟨s', out, hs, fun err hsince => ?_⟩
    rcases hsince with hreject | ⟨-, hsince⟩
    · cases hnone.symm.trans hreject
    · exact h err hsince
  · intro x data s' out h hs hreports
    refine ⟨isSome_iff_exists.mpr ⟨_, hs⟩, eq_none_iff_forall_ne_some.mpr ?_⟩
    intro err hreject
    exact rejected_forgets hreject hs (hreports err (.inl hreject))

end DiagTransport

open DiagTransport

/-- **Rejections drop the request (`Drops`), and hide the error.** `Diag_Transport_GetLastError`
gives the error of every rejection exactly if nothing is rejected. -/
theorem rejections_dropped_unreported {σ : Type} (platform : NullWrite) (handler : UdsHandler σ)
    (s : DiagTransport) (blockSize : Nat) (uds : σ) (frames : List (List UInt8))
    {x : List (RxCall σ) × (DiagTransport × σ)} {outs : List (List UdsMessage)}
    (h : run (logged (processReceived platform handler)) ([], (s.init blockSize, uds)) frames
      = some (x, outs)) :
    Historically Drops x.1 ∧
      (Throughout (logged (processReceived platform handler)) Reports
          ([], (s.init blockSize, uds)) frames ↔
        Along (logged (processReceived platform handler))
          (fun x data => x.2.1.rejection data = none) ([], (s.init blockSize, uds)) frames) := by
  have hstart : Tracked ([], (s.init blockSize, uds)) := ⟨trivial, fun hstate => by cases hstate⟩
  refine ⟨(run_inv Tracked (fun _ _ _ _ hx hs => hx.step hs) hstart h).past, ?_⟩
  rw [reports_iff]
  constructor
  · exact along_mono fun _ _ hok => hok.2
  · intro hnone
    have hdefined := along_isSome_of_run h
    exact along_and (along_mono (fun _ _ hsome => isSome_logged.mp hsome) hdefined) hnone

def lostFrame : List (List UInt8) :=
  [[0x10, 0x0F, 0x22, 0xF1, 0x90, 0xF1, 0x91, 0xF1], [0x22, 0xF1, 0x93, 0, 0, 0, 0, 0]]

/-- The frame is rejected and the request is dropped. -/
theorem rejections_dropped_unreported_lost_frame :
    ∃ x outs,
      run (logged (processReceived .traps unknownService)) ([], (blank.init 8, ())) lostFrame
        = some (x, outs) ∧
      (∃ e past, x.1 = e :: past ∧ Rejects .sequence e past) ∧ Historically Drops x.1 := by
  refine ⟨_, _, rfl, ⟨_, _, rfl, rfl⟩, ?_⟩
  exact (rejections_dropped_unreported .traps unknownService blank 8 () lostFrame rfl).1

/-- A consecutive frame while nothing is under way: it is rejected with `TP_ERROR_SEQUENCE`, and
`Diag_Transport_GetLastError` gives `TP_ERROR_NONE`; and so behind a frame with the wrong number. -/
theorem sequence_error_unreported :
    (blank.init 8).rejection [0x21, 1, 2, 3, 4, 5, 6, 7] = some .sequence ∧
    (processReceived .traps unknownService (blank.init 8, ()) [0x21, 1, 2, 3, 4, 5, 6, 7]).map
      (fun r => (r.1.1.getLastError, r.2)) = some (.none, []) ∧
    (run (processReceived .traps unknownService) (blank.init 8, ()) lostFrame).map
      (fun r => (r.1.1.getLastError, r.2)) = some (.none, [[], []]) ∧
    ¬ Throughout (logged (processReceived .traps unknownService)) Reports
      ([], (blank.init 8, ())) lostFrame := by
  rw [reports_iff]
  decide +kernel

end Cant.Diagnostic
