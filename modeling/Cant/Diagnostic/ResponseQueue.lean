/-
# `ResponseQueue` — responses that are waited for (`diag_response.c`)

A client that expects a response queues a callback under the id of its message, and a timer of 1000
ms is started beside it; the callback is called with the response, or with a negative one when the
timer expires. When the response comes, the entry is cleared, but its timer runs on; and if the id
is queued again before it expires, it is taken for the timer of the new entry. `responses_kept_iff`
says that this is all: a timeout that comes too early comes from a timer that is left over.

The callbacks do not call back into the two modules, so queueing and responses come outside of it.
-/
import Cant.Diagnostic.DiagTimer
import Cant.Diagnostic.ParserResponse

namespace Cant.Diagnostic.ResponseQueue

open Past Run Cant.Diagnostic.DiagTimer Function Option

inductive ResponseState where
  | idle | waiting | received | timeout | error

/-- `DiagResponse`, with the id that the parser does not read. -/
structure Response where
  id : UInt32
  body : DiagResponse

structure ResponseQueueEntry where
  msgId : UInt32
  timestamp : UInt32
  response : Response
  state : ResponseState
  callback : Nat
  context : Nat
  active : Bool

def ResponseQueueEntry.zero : ResponseQueueEntry :=
  ⟨0, 0, ⟨0, clearedResponse⟩, .idle, 0, 0, false⟩

structure ResponseHandler where
  queue : Fin 16 → ResponseQueueEntry
  queueCount : Nat
  initialized : Bool

/-- A callback that was called, with its context and the response it was given. -/
structure Called where
  callback : Nat
  context : Nat
  response : Response

def handleResponseTimeout : Nat := 1

namespace ResponseHandler

def init (r : ResponseHandler) : ResponseHandler × Bool :=
  if r.initialized then (r, false) else (⟨fun _ => .zero, 0, true⟩, true)

def findQueueEntry (r : ResponseHandler) (msgId : UInt32) : Option (Fin 16) :=
  (List.finRange 16).find? fun i =>
    i.val < r.queueCount && ((r.queue i).active && (r.queue i).msgId = msgId)

def cleanupQueueEntry (r : ResponseHandler) (i : Fin 16) : ResponseHandler :=
  let queue := update r.queue i .zero
  { r with queue, queueCount := Slots.trim (fun j => (queue j).active) r.queueCount }

def queueResponse (r : ResponseHandler) (timers : TimerManager) (now : Nat) (msgId : UInt32)
    (callback context : Nat) : (ResponseHandler × TimerManager) × Bool :=
  if !r.initialized || callback = 0 then ((r, timers), false)
  else if (r.findQueueEntry msgId).isSome then ((r, timers), false)
  else
    match Slots.firstFree fun i => (r.queue i).active with
    | none => ((r, timers), false)
    | some slot =>
      let entry := { r.queue slot with
        msgId, timestamp := .ofNat now, callback, context, state := .waiting, active := true }
      let (timers, timerId) :=
        timers.start now .request 1000 handleResponseTimeout msgId.toNat
      if timerId = 0 then
        (({ r with queue := update r.queue slot { entry with active := false } }, timers), false)
      else
        (({ r with
          queue := update r.queue slot entry
          queueCount := if slot.val ≥ r.queueCount then slot.val + 1 else r.queueCount },
          timers), true)

/-- `if (entry->callback) entry->callback(response, entry->context)`. -/
def call (entry : ResponseQueueEntry) (response : Response) : Option Called :=
  if entry.callback ≠ 0 then some ⟨entry.callback, entry.context, response⟩ else none

/-- `DiagResponse_HandleResponse`; the response may be NULL. -/
def handleResponse (r : ResponseHandler) (response : Option Response) :
    ResponseHandler × Option Called × Bool :=
  match response with
  | none => (r, none, false)
  | some response =>
    if !r.initialized then (r, none, false)
    else
      match r.findQueueEntry response.id with
      | none => (r, none, false)
      | some i =>
        let entry := { r.queue i with
          response, state := if response.body.success then .received else .error }
        (({ r with queue := update r.queue i entry }).cleanupQueueEntry i,
          call entry entry.response, true)

def handleTimeout (r : ResponseHandler) (now : Nat) (msgId : UInt32) :
    ResponseHandler × Option Called :=
  if !r.initialized then (r, none)
  else
    match r.findQueueEntry msgId with
    | none => (r, none)
    | some i =>
      let entry := { r.queue i with state := .timeout }
      let timestamp := UInt32.ofNat now
      let response : Response :=
        ⟨msgId, ⟨entry.response.body.serviceId, 0x10, 0, 0, timestamp.toNat, false⟩⟩
      (({ r with queue := update r.queue i entry }).cleanupQueueEntry i, call entry response)

end ResponseHandler

/-! ## Steps -/

/-- The two modules; `loop` is where `DiagTimer_Process` is, if it is called: the slot it comes to
next, and its snapshot of the clock. -/
structure System where
  handler : ResponseHandler
  timers : TimerManager
  loop : Option (Nat × Nat)

inductive Action where
  | queue (msgId : UInt32) (callback context : Nat)
  | respond (response : Option Response)
  | process
  | visit

inductive Event where
  | none
  | queued (msgId : UInt32) (callback context : Nat) (result : Bool)
  | responded (response : Response) (called : Option Called) (result : Bool)
  | timeout (msgId : UInt32) (called : Option Called)

/-- A step at clock `now`; what cannot happen does nothing. -/
def step (now : Nat) (s : System) : Action → Option (System × Event)
  | .queue msgId callback context =>
    match s.loop with
    | some _ => some (s, .none)
    | none =>
      let ((handler, timers), result) :=
        s.handler.queueResponse s.timers now msgId callback context
      some ({ s with handler, timers }, .queued msgId callback context result)
  | .respond response =>
    match s.loop, response with
    | some _, _ => some (s, .none)
    | none, none => some (s, .none)
    | none, some response =>
      let (handler, called, result) := s.handler.handleResponse (some response)
      some ({ s with handler }, .responded response called result)
  | .process =>
    match s.loop with
    | some _ => some (s, .none)
    | none =>
      match s.timers.begin now with
      | none => some (s, .none)
      | some timers => some ({ s with timers, loop := some (0, now) }, .none)
  | .visit =>
    match s.loop with
    | none => some (s, .none)
    | some (i, currentTime) =>
      if h : i < s.timers.timerCount ∧ i < 32 then
        match s.timers.visit ⟨i, h.2⟩ currentTime with
        | none => some ({ s with loop := some (i + 1, currentTime) }, .none)
        | some (timers, timer) =>
          -- `handle_response_timeout` takes the context for a message id
          let msgId := UInt32.ofNat timer.context
          let (handler, called) := s.handler.handleTimeout now msgId
          some (⟨handler, timers.stop (timers.timers ⟨i, h.2⟩).id,
            some (i + 1, currentTime)⟩, .timeout msgId called)
      else some ({ s with loop := none }, .none)

/-- The two modules after `DiagResponse_Init` and `DiagTimer_Init`, at clock `now`. -/
def start (now : Nat) : System :=
  ⟨(ResponseHandler.init ⟨fun _ => .zero, 0, false⟩).1, (unused.init now).1, none⟩

/-! ## What a log shows -/

abbrev Entry := Taken (Nat × System) (Nat × Action) Event

/-- Since when a message waits for its response, and the callback that waits for it. -/
structure Waiting where
  since : Nat
  callback : Nat
  context : Nat

/-- What waits under an id: it was queued with result true, and no callback was called for the id
since. -/
def waiting (msgId : UInt32) : List Entry → Option Waiting
  | [] => none
  | e :: past =>
    match e.output with
    | .queued k callback context true =>
      if k = msgId then some ⟨e.post.1, callback, context⟩ else waiting msgId past
    | .responded response (some _) _ => if response.id = msgId then none else waiting msgId past
    | .timeout k (some _) => if k = msgId then none else waiting msgId past
    | _ => waiting msgId past

/-- A response goes to the callback that waits for its id, and to none if none does; and a timeout
goes only to a callback that waits. -/
structure Kept (e : Entry) (past : List Entry) : Prop where
  responded : ∀ response called result, e.output = .responded response called result →
    called = (waiting response.id past).map (fun w => ⟨w.callback, w.context, response⟩) ∧
      result = called.isSome
  timeout : ∀ msgId called, e.output = .timeout msgId (some called) →
    ∃ w ∈ waiting msgId past, called.callback = w.callback ∧ called.context = w.context

def InTime (e : Entry) (past : List Entry) : Prop :=
  ∀ msgId called, e.output = .timeout msgId (some called) →
    ∀ w ∈ waiting msgId past, w.since + 1000 ≤ e.post.1

/-- The timer that the next visit takes to be expired. -/
def expiring (s : System) : Option Timer :=
  match s.loop with
  | none => none
  | some (i, currentTime) =>
    if h : i < s.timers.timerCount ∧ i < 32 then
      (s.timers.visit ⟨i, h.2⟩ currentTime).map Prod.snd
    else none

/-- A timer that expires for an id that waits was started when it was queued. That of an earlier
entry of the id does no harm either, if it is visited so late that 1000 ms have passed. -/
def OwnTimer (x : List Entry × (Nat × System)) (i : Nat × Action) : Prop :=
  i.2 = .visit → ∀ timer ∈ expiring x.2.2, ∀ w ∈ waiting (.ofNat timer.context) x.1,
    timer.startTime = .ofNat w.since ∨ w.since + 1000 ≤ x.2.1 + i.1

/-! ## The entries -/

def ResponseQueueEntry.pending (entry : ResponseQueueEntry) : Option (UInt32 × (Nat × Nat)) :=
  if entry.active then some (entry.msgId, entry.callback, entry.context) else none

def Waiting.caller (w : Waiting) : Nat × Nat := (w.callback, w.context)

/-- The entries are those that wait; `waits` is what the log has of each id. -/
structure Matches (waits : UInt32 → Option Waiting) (r : ResponseHandler) : Prop where
  initialized : r.initialized = true
  sound : ∀ i, (r.queue i).active = true → i.val < r.queueCount ∧ (r.queue i).callback ≠ 0
  maps : Slots.Maps (ResponseQueueEntry.pending ∘ r.queue) (Option.map Waiting.caller ∘ waits)

section

variable {entry : ResponseQueueEntry}

theorem pending_of_active (h : entry.active = true) :
    entry.pending = some (entry.msgId, entry.callback, entry.context) := if_pos h

theorem pending_of_inactive (h : entry.active = false) : entry.pending = none := by
  rw [ResponseQueueEntry.pending, h, if_neg Bool.false_ne_true]

theorem pending_some {k : UInt32} {caller : Nat × Nat} (h : entry.pending = some (k, caller)) :
    entry.active = true ∧ entry.msgId = k ∧ caller = (entry.callback, entry.context) := by
  cases hactive : entry.active with
  | false =>
    rw [pending_of_inactive hactive] at h
    cases h
  | true =>
    rw [pending_of_active hactive] at h
    cases h
    exact ⟨rfl, rfl, rfl⟩

end

namespace Matches

variable {waits : UInt32 → Option Waiting} {r : ResponseHandler} {k : UInt32} {i : Fin 16}

theorem ready (h : Matches waits r) : ¬ (!r.initialized) = true := by
  rw [h.initialized]
  exact Bool.false_ne_true

theorem find_some (h : r.findQueueEntry k = some i) :
    (r.queue i).active = true ∧ (r.queue i).msgId = k := by
  have hfound := List.find?_some h
  simp only [Bool.and_eq_true, decide_eq_true_eq] at hfound
  exact hfound.2

theorem find_none (h : Matches waits r) (hfind : r.findQueueEntry k = none) : waits k = none := by
  rw [eq_none_iff_forall_ne_some]
  intro w hw
  obtain ⟨i, hi⟩ := h.maps.slot k w.caller (congrArg (Option.map Waiting.caller) hw)
  obtain ⟨hactive, hid, -⟩ := pending_some hi
  rw [ResponseHandler.findQueueEntry, List.find?_eq_none] at hfind
  have hnot := hfind i (List.mem_finRange i)
  simp [(h.sound i hactive).1, hactive, hid] at hnot

theorem found (h : Matches waits r) (hfind : r.findQueueEntry k = some i) :
    (r.queue i).callback ≠ 0 ∧ ∃ w, waits k = some w ∧
      w.callback = (r.queue i).callback ∧ w.context = (r.queue i).context := by
  obtain ⟨hi, rfl⟩ := find_some hfind
  have hvalue := h.maps.value i _ _ (pending_of_active hi)
  obtain ⟨w, hw, hcaller⟩ := map_eq_some_iff.mp hvalue
  obtain ⟨hcallback, hcontext⟩ := Prod.mk.inj hcaller
  exact ⟨(h.sound i hi).2, w, hw, hcallback, hcontext⟩

variable {entry : ResponseQueueEntry}

variable (h : Matches waits r)
include h

theorem call_eq (hfind : r.findQueueEntry k = some i) (response : Response)
    (hcallback : entry.callback = (r.queue i).callback)
    (hcontext : entry.context = (r.queue i).context) :
    ResponseHandler.call entry response =
      (waits k).map fun w => ⟨w.callback, w.context, response⟩ := by
  obtain ⟨hne, w, hw, hcallback', hcontext'⟩ := h.found hfind
  rw [hw, ResponseHandler.call, hcallback, hcontext, if_pos hne, map_some, hcallback', hcontext']

theorem clear (hfind : r.findQueueEntry k = some i) (entry : ResponseQueueEntry) :
    Matches (update waits k none)
      (({ r with queue := update r.queue i entry }).cleanupQueueEntry i) := by
  obtain ⟨hi, rfl⟩ := find_some hfind
  have hqueue : (({ r with queue := update r.queue i entry } :
      ResponseHandler).cleanupQueueEntry i).queue = update r.queue i .zero :=
    update_idem ..
  refine ⟨h.initialized, fun j hj => ?_, ?_⟩
  · have hbound := hj
    rw [hqueue] at hj ⊢
    rcases eq_or_ne j i with rfl | hne
    · rw [update_self] at hj
      cases hj
    · rw [update_of_ne hne] at hj ⊢
      exact ⟨Slots.lt_trim (h.sound j hj).1 hbound, (h.sound j hj).2⟩
  · rw [hqueue, comp_update, comp_update]
    exact h.maps.erase (pending_of_active hi)

theorem place (hfree : (r.queue i).active = false) (hnew : waits k = none)
    (hactive : entry.active = true) (hid : entry.msgId = k) (hcallback : entry.callback ≠ 0)
    {w : Waiting} (hw : w.callback = entry.callback ∧ w.context = entry.context) :
    Matches (update waits k (some w))
      { r with
        queue := update r.queue i entry
        queueCount := if i.val ≥ r.queueCount then i.val + 1 else r.queueCount } := by
  refine ⟨h.initialized, fun j hj => ?_, ?_⟩
  · dsimp only at hj ⊢
    rcases eq_or_ne j i with rfl | hne
    · rw [update_self]
      refine ⟨?_, hcallback⟩
      split
      · exact Nat.lt_succ_self _
      case isFalse hlt => exact Nat.not_le.mp hlt
    · rw [update_of_ne hne] at hj ⊢
      obtain ⟨hlt, hne⟩ := h.sound j hj
      refine ⟨?_, hne⟩
      split
      case isTrue hge => exact Nat.lt_succ_of_lt (hlt.trans_le hge)
      case isFalse => exact hlt
  · have hcaller : Option.map Waiting.caller (some w) = some (entry.callback, entry.context) :=
      congrArg some (Prod.ext hw.1 hw.2)
    rw [comp_update, comp_update, hcaller, pending_of_active hactive, hid]
    exact h.maps.insert (pending_of_inactive hfree) (congrArg (Option.map Waiting.caller) hnew) _

theorem scribble (hfree : (r.queue i).active = false) (hinactive : entry.active = false) :
    Matches waits { r with queue := update r.queue i entry } := by
  refine ⟨h.initialized, fun j hj => ?_, ?_⟩
  · dsimp only at hj ⊢
    rcases eq_or_ne j i with rfl | hne
    · rw [update_self, hinactive] at hj
      cases hj
    · rw [update_of_ne hne] at hj ⊢
      exact h.sound j hj
  · have hsame : entry.pending = (ResponseQueueEntry.pending ∘ r.queue) i :=
      (pending_of_inactive hinactive).trans (pending_of_inactive hfree).symm
    rw [comp_update, hsame, update_eq_self]
    exact h.maps

end Matches

/-! ## The calls -/

section

variable {waits : UInt32 → Option Waiting} {r : ResponseHandler}

variable (h : Matches waits r)
include h

theorem Matches.handleResponse (response : Response) :
    (r.handleResponse (some response)).2.1 =
        (waits response.id).map (fun w => ⟨w.callback, w.context, response⟩) ∧
      (r.handleResponse (some response)).2.2 = (waits response.id).isSome ∧
      Matches (update waits response.id none) (r.handleResponse (some response)).1 := by
  simp only [ResponseHandler.handleResponse, if_neg h.ready]
  split
  case h_1 hfind =>
    have hnone := h.find_none hfind
    rw [← hnone, update_eq_self, hnone]
    exact ⟨rfl, rfl, h⟩
  case h_2 i hfind =>
    obtain ⟨-, w, hw, -⟩ := h.found hfind
    refine ⟨h.call_eq hfind response rfl rfl, ?_, h.clear hfind _⟩
    rw [hw]
    rfl

theorem Matches.handleTimeout (now : Nat) (msgId : UInt32) :
    (∃ response, (r.handleTimeout now msgId).2 =
        (waits msgId).map (fun w => ⟨w.callback, w.context, response⟩)) ∧
      Matches (update waits msgId none) (r.handleTimeout now msgId).1 := by
  simp only [ResponseHandler.handleTimeout, if_neg h.ready]
  split
  case h_1 hfind =>
    have hnone := h.find_none hfind
    rw [← hnone, update_eq_self, hnone]
    exact ⟨⟨⟨0, clearedResponse⟩, rfl⟩, h⟩
  case h_2 i hfind =>
    exact ⟨⟨_, h.call_eq hfind _ rfl rfl⟩, h.clear hfind _⟩

theorem Matches.queueResponse (timers : TimerManager) (now : Nat)
    (msgId : UInt32) (callback context : Nat) :
    Matches (if (r.queueResponse timers now msgId callback context).2 then
        update waits msgId (some ⟨now, callback, context⟩) else waits)
      (r.queueResponse timers now msgId callback context).1.1 := by
  unfold ResponseHandler.queueResponse
  split
  · exact h
  case isFalse hguard =>
    split
    · exact h
    case isFalse hfind =>
      have hnone : r.findQueueEntry msgId = none := by
        rw [Bool.not_eq_true, isSome_eq_false_iff, isNone_iff_eq_none] at hfind
        exact hfind
      split
      · exact h
      case h_2 slot hslot =>
        have hfree : (r.queue slot).active = false := Slots.firstFree_some hslot
        dsimp only
        split
        · exact h.scribble hfree rfl
        · refine h.place hfree (h.find_none hnone) ?_ ?_ (fun hzero => hguard ?_) ?_
          · rfl
          · rfl
          · rw [Bool.or_eq_true, decide_eq_true_iff]
            exact .inr hzero
          · exact ⟨rfl, rfl⟩

end

/-! ## The timers -/

def Thousand (m : TimerManager) : Prop :=
  ∀ i, (m.timers i).active = true → (m.timers i).timeoutMs = 1000

variable {m m' : TimerManager}

section

variable (h : Thousand m)
include h

theorem Thousand.update {i : Fin 32} {timer : Timer} (hm' : m'.timers = update m.timers i timer)
    (htimer : timer.active = true → timer.timeoutMs = 1000) : Thousand m' := by
  intro j hj
  rw [hm'] at hj ⊢
  rcases eq_or_ne j i with rfl | hne
  · rw [update_self] at hj ⊢
    exact htimer hj
  · rw [update_of_ne hne] at hj ⊢
    exact h j hj

theorem Thousand.stop (timerId : UInt32) : Thousand (m.stop timerId) := by
  unfold TimerManager.stop
  split
  · exact h
  · exact h.update rfl nofun

theorem Thousand.start (now callback context : Nat) :
    Thousand (m.start now .request 1000 callback context).1 := by
  unfold TimerManager.start
  split
  · exact h
  · dsimp only
    split
    · exact h
    · exact h.update rfl fun _ => rfl

theorem Thousand.queueResponse (r : ResponseHandler) (now : Nat) (msgId : UInt32)
    (callback context : Nat) : Thousand (r.queueResponse m now msgId callback context).1.2 := by
  unfold ResponseHandler.queueResponse
  split
  · exact h
  · split
    · exact h
    · split
      · exact h
      · dsimp only
        split
        all_goals exact h.start now handleResponseTimeout msgId.toNat

theorem Thousand.begin {now : Nat} (hbegin : m.begin now = some m') : Thousand m' := by
  unfold TimerManager.begin at hbegin
  split at hbegin
  · cases hbegin
  · split at hbegin
    · cases hbegin
    · cases hbegin
      exact h

/-- A timer that expires was started 1000 ms before the snapshot, if it was not started after it. -/
theorem Thousand.visit {i : Fin 32} {currentTime : Nat} {timer : Timer}
    (hvisit : m.visit i currentTime = some (m', timer)) :
    Thousand m' ∧ ∀ since, since ≤ currentTime → timer.startTime = .ofNat since →
      since + 1000 ≤ currentTime := by
  unfold TimerManager.visit at hvisit
  dsimp only at hvisit
  split at hvisit
  · cases hvisit
  case isFalse hrunning =>
    split at hvisit
    case isFalse => cases hvisit
    case isTrue hexpired =>
      cases hvisit
      have hi : (m.timers i).active = true := by
        rw [Bool.or_eq_true, not_or, Bool.not_eq_true', Bool.not_eq_false] at hrunning
        exact hrunning.1
      refine ⟨h.update rfl fun _ => h i hi, fun since hle hstart => ?_⟩
      rw [hstart, h i hi] at hexpired
      have hage : 1000 ≤ currentTime - since := Orderly.elapsed_le hle hexpired
      omega

end

/-! ## One step of the log -/

section

variable {e : Entry} {past : List Entry}

theorem waiting_queued {msgId : UInt32} {callback context : Nat} {result : Bool}
    (h : e.output = .queued msgId callback context result) :
    (waiting · (e :: past)) =
      if result then update (waiting · past) msgId (some ⟨e.post.1, callback, context⟩)
      else (waiting · past) := by
  funext k
  cases result with
  | false => rw [waiting, h, if_neg Bool.false_ne_true]
  | true =>
    rw [waiting, h, if_pos rfl]
    rw [update_apply]
    exact if_congr eq_comm rfl rfl

theorem waiting_called {msgId : UInt32} {called : Option Called}
    (h : (∃ response result, response.id = msgId ∧ e.output = .responded response called result) ∨
      e.output = .timeout msgId called)
    (hcalled : called = none → waiting msgId past = none) :
    (waiting · (e :: past)) = update (waiting · past) msgId none := by
  funext k
  cases called with
  | none =>
    rw [← hcalled rfl, update_eq_self]
    rcases h with ⟨response, result, -, h⟩ | h
    · rw [waiting, h]
    · rw [waiting, h]
  | some c =>
    rw [update_apply]
    rcases h with ⟨response, result, rfl, h⟩ | h
    all_goals
      rw [waiting, h]
      exact if_congr eq_comm rfl rfl

end

/-- The entries are what waits, and nothing was queued after the snapshot of `DiagTimer_Process`. -/
structure Inv (x : List Entry × (Nat × System)) : Prop where
  entries : Matches (waiting · x.1) x.2.2.handler
  since_le : ∀ k, ∀ w ∈ waiting k x.1, w.since ≤ x.2.1
  snapshot : ∀ p ∈ x.2.2.loop, p.2 ≤ x.2.1 ∧ ∀ k, ∀ w ∈ waiting k x.1, w.since ≤ p.2
  timers : Thousand x.2.2.timers

namespace Inv

variable {x : List Entry × (Nat × System)} {i : Nat × Action} {s' : System}

theorem quiet (h : Inv x) (hhandler : s'.handler = x.2.2.handler) (htimers : Thousand s'.timers)
    (hloop : ∀ p ∈ s'.loop, p.2 = x.2.1 + i.1 ∨ ∃ q ∈ x.2.2.loop, p.2 = q.2) :
    Inv (⟨x.2, i, .none, (x.2.1 + i.1, s')⟩ :: x.1, (x.2.1 + i.1, s')) := by
  have hlater : x.2.1 ≤ x.2.1 + i.1 := Nat.le_add_right ..
  refine ⟨?_, fun k w hw => (h.since_le k w hw).trans hlater, fun p hp => ?_, htimers⟩
  · rw [hhandler]
    exact h.entries
  · rcases hloop p hp with heq | ⟨q, hq, heq⟩
    · rw [heq]
      exact ⟨le_rfl, fun k w hw => (h.since_le k w hw).trans hlater⟩
    · rw [heq]
      exact ⟨(h.snapshot q hq).1.trans hlater, (h.snapshot q hq).2⟩

theorem clears (h : Inv x) {o : Event} {k : UInt32}
    (hwaits : (waiting · (⟨x.2, i, o, (x.2.1 + i.1, s')⟩ :: x.1)) = update (waiting · x.1) k none)
    (hentries : Matches (update (waiting · x.1) k none) s'.handler)
    (htimers : Thousand s'.timers) (hloop : ∀ p ∈ s'.loop, ∃ q ∈ x.2.2.loop, p.2 = q.2) :
    Inv (⟨x.2, i, o, (x.2.1 + i.1, s')⟩ :: x.1, (x.2.1 + i.1, s')) := by
  have hlater : x.2.1 ≤ x.2.1 + i.1 := Nat.le_add_right ..
  have hold : ∀ l, ∀ w ∈ waiting l (⟨x.2, i, o, (x.2.1 + i.1, s')⟩ :: x.1), w ∈ waiting l x.1 := by
    intro l w hw
    rw [congrFun hwaits l] at hw
    rcases eq_or_ne l k with rfl | hne
    · rw [update_self] at hw
      cases hw
    · rw [update_of_ne hne] at hw
      exact hw
  refine ⟨?_, fun l w hw => (h.since_le l w (hold l w hw)).trans hlater, fun p hp => ?_, htimers⟩
  · rw [hwaits]
    exact hentries
  · obtain ⟨q, hq, heq⟩ := hloop p hp
    rw [heq]
    exact ⟨(h.snapshot q hq).1.trans hlater, fun l w hw => (h.snapshot q hq).2 l w (hold l w hw)⟩

theorem inTime_iff (h : Inv x) {n currentTime : Nat} (hloop : x.2.2.loop = some (n, currentTime))
    (hn : n < x.2.2.timers.timerCount ∧ n < 32) {m : TimerManager} {timer : Timer}
    (hvisit : x.2.2.timers.visit ⟨n, hn.2⟩ currentTime = some (m, timer)) {d : Nat}
    {called : Option Called}
    (hcalled : called.isSome = (waiting (.ofNat timer.context) x.1).isSome) :
    OwnTimer x (d, .visit) ↔
      InTime ⟨x.2, (d, .visit), .timeout (.ofNat timer.context) called, (x.2.1 + d, s')⟩ x.1 := by
  have hexpiring : expiring x.2.2 = some timer := by
    rw [expiring, hloop]
    dsimp only
    rw [dif_pos hn, hvisit]
    rfl
  constructor
  · intro hown msgId c hout w hw
    cases hout
    rcases hown rfl timer (hexpiring ▸ rfl) w hw with hstart | hlate
    · obtain ⟨hnow, hbefore⟩ := h.snapshot (n, currentTime) hloop
      have hage := (h.timers.visit hvisit).2 w.since (hbefore _ w hw) hstart
      dsimp only at hnow ⊢
      omega
    · exact hlate
  · intro hin _ timer' htimer' w hw
    rw [hexpiring] at htimer'
    cases htimer'
    obtain ⟨c, rfl⟩ : ∃ c, called = some c := by
      rw [mem_def.mp hw] at hcalled
      exact isSome_iff_exists.mp hcalled
    exact .inr (hin _ c rfl w hw)

end Inv

/-- The step is taken, keeps the entries and delivers as it should; and it is in time exactly if a
timer that expires is the one of its entry. -/
def Advances (x : List Entry × (Nat × System)) (i : Nat × Action) : Prop :=
  ∃ s' o, step (x.2.1 + i.1) x.2.2 i.2 = some (s', o) ∧
    Inv (⟨x.2, i, o, (x.2.1 + i.1, s')⟩ :: x.1, (x.2.1 + i.1, s')) ∧
    Kept ⟨x.2, i, o, (x.2.1 + i.1, s')⟩ x.1 ∧
    (OwnTimer x i ↔ InTime ⟨x.2, i, o, (x.2.1 + i.1, s')⟩ x.1)

namespace Inv

variable {x : List Entry × (Nat × System)}

variable (h : Inv x)
include h

theorem advances_quiet {i : Nat × Action} {s' : System}
    (hstep : step (x.2.1 + i.1) x.2.2 i.2 = some (s', .none))
    (hhandler : s'.handler = x.2.2.handler) (htimers : Thousand s'.timers)
    (hloop : ∀ p ∈ s'.loop, p.2 = x.2.1 + i.1 ∨ ∃ q ∈ x.2.2.loop, p.2 = q.2) (hown : OwnTimer x i) :
    Advances x i := by
  refine ⟨s', .none, hstep, h.quiet hhandler htimers hloop, ⟨?_, ?_⟩, iff_of_true hown ?_⟩
  · intro response called result hout
    cases hout
  all_goals
    intro msgId called hout
    cases hout

theorem advances_same {i : Nat × Action}
    (hstep : step (x.2.1 + i.1) x.2.2 i.2 = some (x.2.2, .none)) (hown : OwnTimer x i) :
    Advances x i :=
  h.advances_quiet hstep rfl h.timers (fun p hp => .inr ⟨p, hp, rfl⟩) hown

theorem advances_queue (d : Nat) (msgId : UInt32) (callback context : Nat) :
    Advances x (d, .queue msgId callback context) := by
  have hown : OwnTimer x (d, .queue msgId callback context) := fun heq => by cases heq
  cases hloop : x.2.2.loop with
  | some p => exact h.advances_same (by simp only [step, hloop]) hown
  | none =>
    have hentries := h.entries.queueResponse x.2.2.timers (x.2.1 + d) msgId callback context
    refine ⟨_, _, by simp only [step, hloop]; rfl, ⟨?_, ?_, ?_, ?_⟩, ⟨?_, ?_⟩, iff_of_true hown ?_⟩
    · rw [waiting_queued rfl]
      exact hentries
    · intro k w hw
      have hlater := Nat.le_add_right x.2.1 d
      rw [congrFun (waiting_queued rfl) k] at hw
      split at hw
      · rw [update_apply] at hw
        split at hw
        · cases hw
          exact le_rfl
        · exact (h.since_le k w hw).trans hlater
      · exact (h.since_le k w hw).trans hlater
    · exact nofun
    · exact h.timers.queueResponse _ _ msgId callback context
    · intro response called result hout
      cases hout
    all_goals
      intro k called hout
      cases hout

theorem advances_respond (d : Nat) (response : Option Response) :
    Advances x (d, .respond response) := by
  have hown : OwnTimer x (d, .respond response) := fun heq => by cases heq
  cases hloop : x.2.2.loop with
  | some p => exact h.advances_same (by simp only [step, hloop]) hown
  | none =>
    cases response with
    | none => exact h.advances_same (by simp only [step, hloop]) hown
    | some response =>
      obtain ⟨hcalled, hresult, hentries⟩ := h.entries.handleResponse response
      refine ⟨_, _, by simp only [step, hloop]; rfl, ?_, ⟨?_, ?_⟩, iff_of_true hown ?_⟩
      · refine h.clears (waiting_called (.inl ⟨response, _, rfl, rfl⟩) fun hnone => ?_) hentries
          h.timers nofun
        rw [hcalled, map_eq_none_iff] at hnone
        exact hnone
      · intro response' called result hout
        cases hout
        rw [hcalled, isSome_map]
        exact ⟨rfl, hresult⟩
      all_goals
        intro k called hout
        cases hout

theorem advances_process (d : Nat) : Advances x (d, .process) := by
  have hown : OwnTimer x (d, .process) := fun heq => by cases heq
  cases hloop : x.2.2.loop with
  | some p => exact h.advances_same (by simp only [step, hloop]) hown
  | none =>
    cases hbegin : x.2.2.timers.begin (x.2.1 + d) with
    | none => exact h.advances_same (by simp only [step, hloop, hbegin]) hown
    | some timers =>
      have hstep : step (x.2.1 + d) x.2.2 .process =
          some ({ x.2.2 with timers, loop := some (0, x.2.1 + d) }, .none) := by
        simp only [step, hloop, hbegin]
      refine h.advances_quiet hstep rfl (h.timers.begin hbegin) (fun p hp => ?_) hown
      cases hp
      exact .inl rfl

theorem advances_visit (d : Nat) : Advances x (d, .visit) := by
  cases hloop : x.2.2.loop with
  | none =>
    refine h.advances_same (by simp only [step, hloop]) fun _ timer htimer => ?_
    simp [expiring, hloop] at htimer
  | some p =>
    obtain ⟨n, currentTime⟩ := p
    have hnext : ∀ q ∈ some (n + 1, currentTime), ∃ q' ∈ x.2.2.loop, q.2 = q'.2 := by
      intro q hq
      cases hq
      exact ⟨_, hloop, rfl⟩
    rcases em (n < x.2.2.timers.timerCount ∧ n < 32) with hn | hn
    · cases hvisit : x.2.2.timers.visit ⟨n, hn.2⟩ currentTime with
      | none =>
        have hstep : step (x.2.1 + d) x.2.2 .visit =
            some ({ x.2.2 with loop := some (n + 1, currentTime) }, .none) := by
          simp [step, hloop, hn, hvisit]
        refine h.advances_quiet hstep rfl h.timers (fun q hq => .inr (hnext q hq))
          fun _ timer htimer => ?_
        simp [expiring, hloop, hvisit] at htimer
      | some fired =>
        obtain ⟨m, timer⟩ := fired
        obtain ⟨⟨response, hcalled⟩, hentries⟩ :=
          h.entries.handleTimeout (x.2.1 + d) (.ofNat timer.context)
        refine ⟨_, _, by simp only [step, hloop, dif_pos hn, hvisit]; rfl, ?_, ⟨?_, ?_⟩, ?_⟩
        · refine h.clears (waiting_called (.inr rfl) fun hnone => ?_) hentries
            ((h.timers.visit hvisit).1.stop _) hnext
          rw [hcalled, map_eq_none_iff] at hnone
          exact hnone
        · intro response' called result hout
          cases hout
        · intro k called hout
          injection hout with hid hout
          subst hid
          obtain ⟨w, hw, rfl⟩ := map_eq_some_iff.mp (hcalled.symm.trans hout)
          exact ⟨w, hw, rfl, rfl⟩
        · refine h.inTime_iff hloop hn hvisit ?_
          rw [hcalled, isSome_map]
    · have hstep : step (x.2.1 + d) x.2.2 .visit = some ({ x.2.2 with loop := none }, .none) := by
        simp [step, hloop, hn]
      refine h.advances_quiet hstep rfl h.timers
        (nofun) fun _ timer htimer => ?_
      simp [expiring, hloop, dif_neg hn] at htimer

theorem advances : ∀ i : Nat × Action, Advances x i
  | (d, .queue msgId callback context) => h.advances_queue d msgId callback context
  | (d, .respond response) => h.advances_respond d response
  | (d, .process) => h.advances_process d
  | (d, .visit) => h.advances_visit d

end Inv

theorem inv_start (now : Nat) : Inv ([], (now, start now)) := by
  have hmaps : Slots.Maps (ResponseQueueEntry.pending ∘ (start now).handler.queue)
      (Option.map Waiting.caller ∘ (waiting · [])) := by
    refine ⟨fun i k v hi => ?_, fun k v hk => ?_, fun i j k v w hi => ?_⟩
    · cases hi
    · cases hk
    · cases hi
  refine ⟨⟨rfl, fun i hactive => ?_, hmaps⟩, fun k w hw => ?_, fun p hp => ?_, fun i hactive => ?_⟩
  · cases hactive
  · cases hw
  · cases hp
  · cases hactive

/-- **The responses, over every run.** Every entry gets its callback at most once, and a response
goes to the callback that waits for its id. No timeout comes before 1000 ms, exactly if no timer
expires that is left from an earlier entry of the id while a later one waits for less than that. -/
theorem responses_kept_iff (now : Nat) (actions : List (Nat × Action)) :
    Throughout (logged (timed step)) (fun x => Historically Kept x.1)
      ([], (now, start now)) actions ∧
      (Throughout (logged (timed step)) (fun x => Historically InTime x.1) ([], (now, start now))
          actions ↔
        Along (logged (timed step)) OwnTimer ([], (now, start now)) actions) := by
  constructor
  · refine throughout_of_inv (fun x => Inv x ∧ Historically Kept x.1) (fun _ h => h.2) ?_ actions
      ⟨inv_start now, trivial⟩
    intro x i h
    obtain ⟨s', o, hstep, hinv, hkept, -⟩ := h.1.advances i
    exact ⟨_, o, logged_timed hstep, hinv, hkept, h.2⟩
  · refine historically_iff_of_total Inv ?_ actions (inv_start now) trivial
    intro x i h
    obtain ⟨s', o, hstep, hinv, -, hiff⟩ := h.advances i
    exact ⟨_, o, timed_eq hstep, fun _ => hinv, hiff⟩

/-- A message is queued at 0 and answered at 10; its id is queued again at 500, and
`DiagTimer_Process` comes at 1000. -/
def requeued : List (Nat × Action) :=
  [(0, .queue 7 1 0), (10, .respond (some ⟨7, clearedResponse⟩)), (490, .queue 7 2 0),
    (500, .process), (0, .visit)]

/-- The timer of the first entry takes the second for its own, after 500 ms. -/
theorem timeout_too_early :
    (run (timed step) (0, start 0) requeued).map Prod.snd =
      some [.queued 7 1 0 true, .responded ⟨7, clearedResponse⟩
        (some ⟨1, 0, ⟨7, clearedResponse⟩⟩) true,
        .queued 7 2 0 true, .none, .timeout 7 (some ⟨2, 0, ⟨7, ⟨0, 0x10, 0, 0, 1000, false⟩⟩⟩)] ∧
    ¬ Throughout (logged (timed step)) (fun x => Historically InTime x.1) ([], (0, start 0))
      requeued := by
  refine ⟨rfl, ?_⟩
  rintro ⟨-, _, _, h₁, -, _, _, h₂, -, _, _, h₃, -, _, _, h₄, -, _, _, h₅, hlast⟩
  cases h₁
  cases h₂
  cases h₃
  cases h₄
  cases h₅
  exact absurd (hlast.1 7 _ rfl ⟨500, 2, 0⟩ rfl) (by decide)

end Cant.Diagnostic.ResponseQueue
