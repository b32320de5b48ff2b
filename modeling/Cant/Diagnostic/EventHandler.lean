/-
# `EventHandler` — reported events and their data (`event_handler.c`)

The array `events` is the list of its first `event_count` entries: a new event overwrites a
whole entry, so what stands behind them is never read. `data` of a stored event is null, or
the caller's own pointer, or an offset into `event_data_buffer`; a `memcpy` to anything but
the buffer has no result, and neither has a report whose freeze frame is written through NULL. The
clock is read once for each call, and the callback is taken not
to call back. The sums of sizes do not wrap: at most 1000 events of at most 65535 bytes.
-/
import Cant.Diagnostic.DtcManager
import Cant.Lib.Buf
import Cant.Lib.FinMap

namespace Cant.Diagnostic

open Keyed List

inductive DiagEventType where
  | error | warning | info | debug
  deriving DecidableEq

inductive DiagEventPriority where
  | high | medium | low
  deriving DecidableEq

structure DiagEventData (π : Type) where
  eventId : UInt32
  type : DiagEventType
  priority : DiagEventPriority
  timestamp : UInt32
  dtc : UInt32
  data : π
  dataSize : UInt16
  description : Buf UInt8 128
  deriving DecidableEq

/-- Where `data` of a stored event points. -/
inductive DataPtr where
  | null | caller | buffer (offset : Nat)
  deriving DecidableEq

abbrev StoredEvent := DiagEventData DataPtr

/-- An event as it is reported: a pointer that is not null has `data_size` bytes behind it. -/
structure Report extends DiagEventData (Option (List UInt8)) where
  readable : ∀ bytes ∈ data, bytes.length = dataSize.toNat

/-- The data that a report carries: `event->data && event->data_size > 0`. -/
def Report.payload (r : Report) : Option (List UInt8) := if r.dataSize > 0 then r.data else none

/-- `DiagEventConfig`, without the switch for logging, which does nothing, and the callback. -/
structure DiagEventConfig where
  maxEvents : UInt32
  maxEventDataSize : UInt32
  enableAutoDtc : Bool

structure EventStorage where
  events : List StoredEvent
  buffer : Mem
  bufferSize : Nat
  config : DiagEventConfig
  initialized : Bool
  dtcs : DtcStorage

/-- What `strncpy` writes: the text up to its end, and zeroes. -/
def strncpyCells (src : List UInt8) (size : Nat) : List UInt8 :=
  let text := (src.take size).takeWhile (· != 0)
  text ++ List.replicate (size - text.length) 0

theorem length_strncpyCells (src : List UInt8) (size : Nat) :
    (strncpyCells src size).length = size := by
  have htext : ((src.take size).takeWhile (· != 0)).length ≤ size :=
    Nat.le_trans (takeWhile_sublist _).length_le (length_take_le size src)
  rw [strncpyCells, length_append, length_replicate]
  omega

/-- `strncpy(old, new, sizeof(old) - 1)`: the last byte stays. -/
def describe (old new : Buf UInt8 128) : Buf UInt8 128 :=
  ⟨Buf.blitList old.elems 0 (strncpyCells new.elems 127), by
    rw [Buf.length_blitList, old.size_eq]
    rw [length_strncpyCells, old.size_eq]
    decide⟩

namespace DiagEventData

def touched (e : StoredEvent) (now : Nat) (r : Report) : StoredEvent :=
  { e with type := r.type, priority := r.priority, timestamp := systemTimeMs now }

def described (e : StoredEvent) (r : Report) : StoredEvent :=
  { e with description := describe e.description r.description }

/-- What `allocate_event_data` changes. -/
def placed (e : StoredEvent) (offset : Nat) (size : UInt16) : StoredEvent :=
  { e with data := .buffer offset, dataSize := size }

end DiagEventData

/-- The entry that a new event gets: a copy of the report, with its pointer. -/
def Report.copied (r : Report) (now : Nat) : StoredEvent :=
  { r.toDiagEventData with
    data := if r.data = none then .null else .caller
    timestamp := systemTimeMs now }

def isEventActive (events : List StoredEvent) (now : Nat) (eventId : UInt32) : Bool :=
  match lookup DiagEventData.eventId eventId events with
  | none => false
  | some event =>
    let age := systemTimeMs now - event.timestamp
    match event.type with
    | .error => true
    | .warning => age < 3600000
    | .info => age < 600000
    | .debug => age < 60000

/-- The second loop of `Event_Handler_ProcessAllEvents`: the events that stay so far, and
those that are left. -/
def cleanUp (now : Nat) : List StoredEvent → List StoredEvent → List StoredEvent
  | kept, [] => kept
  | kept, event :: rest =>
    if isEventActive (kept ++ event :: rest) now event.eventId then
      cleanUp now (kept ++ [event]) rest
    else cleanUp now kept rest

namespace EventStorage

/-- `Event_Handler_Init`; `none` is the answer false. -/
def init (config : DiagEventConfig) (dtcs : DtcStorage) : Option EventStorage :=
  if config.maxEvents = 0 || config.maxEvents > 1000 || config.maxEventDataSize > 512 then none
  else some
    { events := []
      buffer := fun _ => 0
      bufferSize := config.maxEvents.toNat * config.maxEventDataSize.toNat
      config
      initialized := true
      dtcs }

/-- `find_event`, and `validate_event_id`, which asks whether it finds one. -/
def findEvent (s : EventStorage) (eventId : UInt32) : Option StoredEvent :=
  lookup DiagEventData.eventId eventId s.events

/-- The loop of `allocate_event_data`: what the stored events take. -/
def usedBytes (s : EventStorage) : Nat := (s.events.map (·.dataSize.toNat)).sum

def allocateEventData (s : EventStorage) (size : UInt16) : Option Nat :=
  if size.toNat > s.config.maxEventDataSize.toNat then none
  else if s.usedBytes + size.toNat > s.bufferSize then none
  else some s.usedBytes

def setEvent (s : EventStorage) (eventId : UInt32) (f : StoredEvent → StoredEvent) : EventStorage :=
  { s with events := update DiagEventData.eventId eventId f s.events }

/-- The `memcpy` of data to where `p` points. -/
def copyTo (s : EventStorage) (bytes : List UInt8) : DataPtr → Option EventStorage
  | .buffer offset => some { s with buffer := s.buffer.store offset bytes }
  | _ => none

/-- The end of `Event_Handler_ReportEvent`, behind both branches: `enable_auto_dtc`. -/
def raiseDtc (s : EventStorage) (now : Nat) (r : Report) : Option (EventStorage × Bool) :=
  if s.config.enableAutoDtc && r.type = .error then
    let dtcs := (s.dtcs.setStatus now r.dtc 0x09).1
    match r.payload with
    | none => some ({ s with dtcs }, true)
    | some bytes => do
      let (dtcs, _) ← dtcs.addFreezeFrame now r.dtc bytes
      some ({ s with dtcs }, true)
  else some (s, true)

def updateEvent (s : EventStorage) (now : Nat) (existing : StoredEvent) (r : Report) :
    Option (EventStorage × Bool) :=
  match r.payload with
  | none =>
    (s.setEvent r.eventId fun e => (e.touched now r).described r).raiseDtc now r
  | some bytes =>
    if existing.dataSize ≥ r.dataSize then do
      -- `data_size` is left as it was.
      let s ← s.copyTo bytes existing.data
      (s.setEvent r.eventId fun e => (e.touched now r).described r).raiseDtc now r
    else
      match s.allocateEventData r.dataSize with
      | none => some (s.setEvent r.eventId (·.touched now r), false)
      | some offset =>
        let s := { s with buffer := s.buffer.store offset bytes }
        (s.setEvent r.eventId fun e =>
          ((e.touched now r).placed offset r.dataSize).described r).raiseDtc now r

def addEvent (s : EventStorage) (now : Nat) (r : Report) : Option (EventStorage × Bool) :=
  if s.events.length ≥ s.config.maxEvents.toNat then some (s, false)
  else
    match r.payload with
    | none => { s with events := s.events ++ [r.copied now] }.raiseDtc now r
    | some bytes =>
      match s.allocateEventData r.dataSize with
      | none => some (s, false)
      | some offset =>
        { s with
          events := s.events ++ [(r.copied now).placed offset r.dataSize]
          buffer := s.buffer.store offset bytes }.raiseDtc now r

/-- `Event_Handler_ReportEvent`; `none` is a null pointer. -/
def reportEvent (s : EventStorage) (now : Nat) (event : Option Report) :
    Option (EventStorage × Bool) :=
  if !s.initialized then some (s, false)
  else
    match event with
    | none => some (s, false)
    | some r =>
      match s.findEvent r.eventId with
      | some existing => s.updateEvent now existing r
      | none => s.addEvent now r

def getEvent (s : EventStorage) (eventId : UInt32) : Option StoredEvent :=
  if !s.initialized then none else s.findEvent eventId

def clearEvents (s : EventStorage) : EventStorage × Bool :=
  if !s.initialized then (s, false)
  else ({ s with events := [], buffer := s.buffer.fill 0 s.bufferSize 0 }, true)

def setEventPriority (s : EventStorage) (eventId : UInt32) (priority : DiagEventPriority) :
    EventStorage × Bool :=
  if !s.initialized || (s.findEvent eventId).isNone then (s, false)
  else (s.setEvent eventId fun e => { e with priority }, true)

def processEvent (s : EventStorage) (now : Nat) (eventId : UInt32) : EventStorage × Bool :=
  if !s.initialized then (s, false)
  else
    match s.findEvent eventId with
    | none => (s, false)
    | some event =>
      match event.type with
      | .error =>
        if s.config.enableAutoDtc then
          ({ s with dtcs := (s.dtcs.setStatus now event.dtc 0x09).1 }, true)
        else (s, true)
      | .warning =>
        if event.dtc ≠ 0 then
          ({ s with dtcs := (s.dtcs.setStatus now event.dtc 0x80).1 }, true)
        else (s, true)
      | .info | .debug => (s, true)

/-- The inner loop of `Event_Handler_ProcessAllEvents`, over the events that are left. -/
def processPriority (now : Nat) (priority : DiagEventPriority) :
    List StoredEvent → EventStorage → EventStorage
  | [], s => s
  | event :: rest, s =>
    if event.priority = priority then
      processPriority now priority rest (s.processEvent now event.eventId).1
    else processPriority now priority rest s

def processAllEvents (s : EventStorage) (now : Nat) : EventStorage × Bool :=
  if !s.initialized then (s, false)
  else
    let s := processPriority now .high s.events s
    let s := processPriority now .medium s.events s
    let s := processPriority now .low s.events s
    ({ s with events := cleanUp now [] s.events }, true)

end EventStorage

/-- The calls that change something; `none` is a null pointer. -/
inductive EventCall where
  | report (event : Option Report)
  | processAllEvents
  | processEvent (eventId : UInt32)
  | setEventPriority (eventId : UInt32) (priority : DiagEventPriority)
  | clearEvents

namespace EventStorage

/-- A call at clock `now`; what returns nothing answers true. -/
def call (s : EventStorage) (now : Nat) : EventCall → Option (EventStorage × Bool)
  | .report event => s.reportEvent now event
  | .processAllEvents => some (s.processAllEvents now)
  | .processEvent eventId => some (s.processEvent now eventId)
  | .setEventPriority eventId priority => some (s.setEventPriority eventId priority)
  | .clearEvents => some s.clearEvents

def step (s : EventStorage) (i : Nat × EventCall) : Option (EventStorage × Bool) :=
  s.call i.1 i.2

/-! ## Trouble codes -/

/-- `enable_auto_dtc` changes the trouble codes at most. -/
theorem of_raiseDtc {s s' : EventStorage} {now : Nat} {r : Report} {ok : Bool}
    (h : s.raiseDtc now r = some (s', ok)) : ∃ dtcs, s' = { s with dtcs } ∧ ok = true := by
  unfold raiseDtc at h
  split at h
  · cases hp : r.payload with
    | none =>
      rw [hp] at h
      cases h
      exact ⟨_, rfl, rfl⟩
    | some bytes =>
      rw [hp] at h
      obtain ⟨_, -, heq⟩ := Option.bind_eq_some_iff.mp h
      cases heq
      exact ⟨_, rfl, rfl⟩
  · cases h
    exact ⟨s.dtcs, rfl, rfl⟩

/-- Without a freeze frame to write, nothing is written through NULL. -/
theorem raiseDtc_defined {s : EventStorage} {r : Report}
    (h : s.config.enableAutoDtc = true → r.type = .error → r.payload = none) (now : Nat) :
    ∃ dtcs, s.raiseDtc now r = some ({ s with dtcs }, true) := by
  unfold raiseDtc
  split
  case isTrue hauto =>
    obtain ⟨hon, htype⟩ := Bool.and_eq_true_iff.mp hauto
    rw [h hon (of_decide_eq_true htype)]
    exact ⟨_, rfl⟩
  · exact ⟨s.dtcs, rfl⟩

theorem processEvent_eq (s : EventStorage) (now : Nat) (eventId : UInt32) :
    ∃ dtcs, (s.processEvent now eventId).1 = { s with dtcs } := by
  unfold processEvent
  split
  · exact ⟨s.dtcs, rfl⟩
  · cases s.findEvent eventId with
    | none => exact ⟨s.dtcs, rfl⟩
    | some event =>
      dsimp only
      split
      · split <;> exact ⟨_, rfl⟩
      · split <;> exact ⟨_, rfl⟩
      all_goals exact ⟨s.dtcs, rfl⟩

theorem processPriority_eq (now : Nat) (priority : DiagEventPriority) (rest : List StoredEvent)
    (s : EventStorage) : ∃ dtcs, processPriority now priority rest s = { s with dtcs } := by
  induction rest generalizing s with
  | nil => exact ⟨s.dtcs, rfl⟩
  | cons event rest ih =>
    rw [processPriority]
    split
    · obtain ⟨dtcs, hevent⟩ := s.processEvent_eq now event.eventId
      obtain ⟨dtcs', hrest⟩ := ih (s.processEvent now event.eventId).1
      exact ⟨dtcs', hrest.trans (by rw [hevent])⟩
    · exact ih s

/-! ## The cleanup -/

theorem cleanUp_sublist (now : Nat) (kept rest : List StoredEvent) :
    (cleanUp now kept rest).Sublist (kept ++ rest) := by
  induction rest generalizing kept with
  | nil =>
    rw [cleanUp, append_nil]
  | cons event rest ih =>
    rw [cleanUp]
    split
    · rw [append_cons kept event rest]
      exact ih (kept ++ [event])
    · exact (ih kept).trans ((sublist_cons_self event rest).append_left kept)

theorem processAllEvents_eq {s : EventStorage} (hinit : s.initialized = true) (now : Nat) :
    ∃ events dtcs, events.Sublist s.events ∧
      s.processAllEvents now = ({ s with events, dtcs }, true) := by
  obtain ⟨dtcs₁, h₁⟩ := processPriority_eq now .high s.events s
  obtain ⟨dtcs₂, h₂⟩ := processPriority_eq now .medium s.events { s with dtcs := dtcs₁ }
  obtain ⟨dtcs₃, h₃⟩ := processPriority_eq now .low s.events { s with dtcs := dtcs₂ }
  refine ⟨cleanUp now [] s.events, dtcs₃, cleanUp_sublist now [] s.events, ?_⟩
  have hnot : ¬ (!s.initialized) = true := by rw [hinit]; exact Bool.false_ne_true
  rw [processAllEvents, if_neg hnot, h₁]
  dsimp only
  rw [h₂]
  rw [h₃]

end EventStorage

end Cant.Diagnostic
