/-
# `EventData` — what an event carries

As long as an event is stored it is to carry the data of the last report that had any, and a
call that is refused is to change nothing.

Three things break this. Data that are no longer than the old ones go in their place, and
`data_size` stays as it was. Room that is handed out starts at the sum of the sizes, which
need not be free once an event has grown or is gone. And a report that gets no room has
changed the event by then. `data_kept` says that nothing else does, as long as no report asks for a
freeze frame: nothing in the program allocates `freeze_frames`.
-/
import Cant.Diagnostic.EventHandler
import Cant.Lib.Past

namespace Cant.Diagnostic

open Keyed Past Run Option

def DataPtr.offset : DataPtr → Option Nat
  | .buffer offset => some offset
  | _ => none

namespace EventStorage

abbrev Entry := Taken EventStorage (Nat × EventCall) Bool

/-- The data of an event, where they are in the buffer. -/
def dataIn (buffer : Mem) (e : StoredEvent) : Option (List UInt8) :=
  match e.data with
  | .buffer offset => some (buffer.load offset e.dataSize.toNat)
  | _ => none

def held (s : EventStorage) (eventId : UInt32) : Option (List UInt8) :=
  (s.findEvent eventId).bind (dataIn s.buffer)

/-- What `Event_Handler_GetEvent` shows of an event: the entry and what is behind its pointer. -/
def view (s : EventStorage) (eventId : UInt32) : Option (StoredEvent × Option (List UInt8)) :=
  (s.getEvent eventId).map fun e => (e, dataIn s.buffer e)

/-- The data that a successful report had for an event. -/
def delivered (eventId : UInt32) (e : Entry) : Option (List UInt8) :=
  match e.input.2 with
  | .report (some r) => if r.eventId = eventId ∧ e.output = true then r.payload else none
  | _ => none

/-- The last data that were reported for an event since it was stored. -/
def carried (eventId : UInt32) : List Entry → Option (List UInt8)
  | [] => none
  | e :: past =>
    if e.post.findEvent eventId = none then none
    else (delivered eventId e).or (carried eventId past)

def Untouched (e : Entry) (_ : List Entry) : Prop :=
  e.output = false → ∀ eventId, e.post.view eventId = e.pre.view eventId

/-- Every event carries what was last reported for it, in its size, and no refused call has
changed any. -/
structure Faithful (x : List Entry × EventStorage) : Prop where
  readBack : ∀ eventId bytes, carried eventId x.1 = some bytes →
    ∃ e, x.2.getEvent eventId = some e ∧ e.dataSize.toNat = bytes.length ∧
      dataIn x.2.buffer e = some bytes
  refused : Historically Untouched x.1

/-! ## What makes a call safe -/

/-- Bytes that are stored at an offset change the data of no other event. -/
def Spares (s : EventStorage) (eventId : UInt32) (offset : Nat) (bytes : List UInt8) : Prop :=
  ∀ e ∈ s.events, e.eventId ≠ eventId →
    dataIn (s.buffer.store offset bytes) e = dataIn s.buffer e
  deriving Decidable

/-- There is room behind what the stored events take. -/
def HasRoom (s : EventStorage) (size : UInt16) : Prop :=
  size.toNat ≤ s.config.maxEventDataSize.toNat ∧ s.usedBytes + size.toNat ≤ s.bufferSize
  deriving Decidable

/-- A report with data is none that sets a trouble code. Data that fit where the old ones are have
their size; a report that gets no room for an event leaves its type, priority and time; and nothing
else is overwritten. -/
def Fits (s : EventStorage) (now : Nat) : EventCall → Prop
  | .report (some r) => ∀ bytes ∈ r.payload,
      ¬ (s.config.enableAutoDtc = true ∧ r.type = .error) ∧
      (∀ existing ∈ s.findEvent r.eventId,
        if existing.dataSize ≥ r.dataSize then
          existing.dataSize = r.dataSize ∧
            ∃ offset ∈ existing.data.offset, s.Spares r.eventId offset bytes
        else if s.HasRoom r.dataSize then s.Spares r.eventId s.usedBytes bytes
        else existing.touched now r = existing) ∧
      (s.findEvent r.eventId = none → s.events.length < s.config.maxEvents.toNat →
        s.HasRoom r.dataSize → s.Spares r.eventId s.usedBytes bytes)
  | _ => True

instance (s : EventStorage) (now : Nat) (c : EventCall) : Decidable (s.Fits now c) := by
  cases c <;> unfold Fits <;> first | infer_instance | (split <;> infer_instance)

/-! ## Finding events -/

structure Sound (config : DiagEventConfig) (s : EventStorage) : Prop where
  same : s.config = config
  initialized : s.initialized = true
  unique : Unique DiagEventData.eventId s.events

variable {config : DiagEventConfig} {s s' : EventStorage} {f : StoredEvent → StoredEvent}
  {eventId : UInt32} {e : StoredEvent} {bytes : List UInt8} {offset : Nat}

section

variable (h : Sound config s)
include h

theorem Sound.setEvent (hf : ∀ e, (f e).eventId = e.eventId)
    (eventId : UInt32) : Sound config (s.setEvent eventId f) :=
  ⟨h.same, h.initialized, h.unique.update hf⟩

theorem Sound.withBuffer (buffer : Mem) : Sound config { s with buffer } :=
  ⟨h.same, h.initialized, h.unique⟩

theorem Sound.append (hnew : s.findEvent e.eventId = none) :
    Sound config { s with events := s.events ++ [e] } :=
  ⟨h.same, h.initialized, h.unique.append hnew⟩

theorem Sound.getEvent (eventId : UInt32) : s.getEvent eventId = s.findEvent eventId := by
  rw [EventStorage.getEvent, h.initialized]
  rfl

end

theorem find_setEvent (hf : ∀ e, (f e).eventId = e.eventId)
    (he : s.findEvent eventId = some e) (eventId' : UInt32) :
    (s.setEvent eventId f).findEvent eventId' =
      if eventId' = eventId then some (f e) else s.findEvent eventId' := by
  have hlookup : toMap DiagEventData.eventId s.events eventId = some e := he
  refine (congrFun (toMap_update hf s.events) eventId').trans ?_
  rw [hlookup, Function.update_apply]
  rfl

theorem find_append (hnew : s.findEvent e.eventId = none) (eventId' : UInt32) :
    lookup DiagEventData.eventId eventId' (s.events ++ [e]) =
      if eventId' = e.eventId then some e else s.findEvent eventId' := by
  refine (congrFun (toMap_append hnew) eventId').trans ?_
  rw [Function.update_apply]
  rfl

/-! ## What a call does to the data -/

def Quiet (s s' : EventStorage) : Prop :=
  ∀ eventId, s'.findEvent eventId ≠ none → s'.held eventId = s.held eventId

theorem Quiet.refl (s : EventStorage) : Quiet s s := fun _ _ => rfl

theorem Quiet.of_sublist (h : Sound config s) {events : List StoredEvent}
    (hsub : events.Sublist s.events) (dtcs : DtcStorage) : Quiet s { s with events, dtcs } := by
  intro eventId hstored
  obtain ⟨e, he⟩ := ne_none_iff_exists'.mp hstored
  have hbefore : s.findEvent eventId = some e := h.unique.lookup_of_sublist hsub he
  rw [held, held, he, hbefore]

theorem Quiet.setEvent (hf : ∀ e, (f e).eventId = e.eventId)
    (hdata : ∀ buffer e, dataIn buffer (f e) = dataIn buffer e)
    (he : s.findEvent eventId = some e) : Quiet s (s.setEvent eventId f) := by
  intro eventId' _
  rw [held, held, find_setEvent hf he]
  split
  case isTrue heq =>
    rw [heq, he]
    exact hdata s.buffer e
  case isFalse => rfl

theorem Quiet.append (hnew : s.findEvent e.eventId = none)
    (hnone : dataIn s.buffer e = none) : Quiet s { s with events := s.events ++ [e] } := by
  intro eventId' _
  have hfind : { s with events := s.events ++ [e] }.findEvent eventId' = _ :=
    find_append hnew eventId'
  rw [held, held, hfind]
  split
  case isTrue heq =>
    rw [heq, hnew]
    exact hnone
  case isFalse => rfl

/-- The data of one event are at `offset` now. -/
structure Writes (s s' : EventStorage) (eventId : UInt32) (bytes : List UInt8) (offset : Nat) :
    Prop where
  buffer : s'.buffer = s.buffer.store offset bytes
  found : ∃ e, s'.findEvent eventId = some e ∧ e.data = .buffer offset ∧
    e.dataSize.toNat = bytes.length
  others : ∀ eventId', eventId' ≠ eventId → s'.findEvent eventId' = s.findEvent eventId'

theorem Writes.setEvent (hf : ∀ e, (f e).eventId = e.eventId) (he : s.findEvent eventId = some e)
    (hdata : (f e).data = .buffer offset) (hsize : (f e).dataSize.toNat = bytes.length) :
    Writes s ({ s with buffer := s.buffer.store offset bytes }.setEvent eventId f)
      eventId bytes offset := by
  refine ⟨rfl, ⟨f e, ?_, hdata, hsize⟩, fun eventId' hne => ?_⟩
  · exact (find_setEvent hf he eventId).trans (if_pos rfl)
  · exact (find_setEvent hf he eventId').trans (if_neg hne)

theorem Writes.append (hnew : s.findEvent e.eventId = none) (hdata : e.data = .buffer offset)
    (hsize : e.dataSize.toNat = bytes.length) :
    Writes s { s with events := s.events ++ [e], buffer := s.buffer.store offset bytes }
      e.eventId bytes offset := by
  refine ⟨rfl, ⟨e, ?_, hdata, hsize⟩, fun eventId' hne => ?_⟩
  · exact (find_append hnew e.eventId).trans (if_pos rfl)
  · exact (find_append hnew eventId').trans (if_neg hne)

section

variable (h : Writes s s' eventId bytes offset)
include h

theorem Writes.held : s'.held eventId = some bytes := by
  obtain ⟨e, he, hdata, hsize⟩ := h.found
  rw [EventStorage.held, he, bind_some, dataIn, hdata, hsize, h.buffer]
  exact congrArg some (Mem.load_store_self ..)

theorem Writes.held_other (hspares : s.Spares eventId offset bytes) {eventId' : UInt32}
    (hne : eventId' ≠ eventId) : s'.held eventId' = s.held eventId' := by
  rw [EventStorage.held, EventStorage.held, h.others eventId' hne, h.buffer]
  cases he : s.findEvent eventId' with
  | none => rfl
  | some e =>
    obtain ⟨hmem, hkey⟩ := mem_of_lookup he
    exact hspares e hmem (hkey ▸ hne)

end

/-! ## The cases of a report -/

variable {now : Nat} {r : Report} {existing : StoredEvent}

theorem length_payload (hp : r.payload = some bytes) : bytes.length = r.dataSize.toNat := by
  unfold Report.payload at hp
  split at hp
  · exact r.readable bytes hp
  · cases hp

theorem allocateEventData_eq (s : EventStorage) (size : UInt16) :
    s.allocateEventData size = if s.HasRoom size then some s.usedBytes else none := by
  unfold allocateEventData HasRoom
  grind

/-- What a call that `Fits` does: no data are new, or an event gets them where no other's are. -/
inductive Effect (config : DiagEventConfig) (s : EventStorage) (now : Nat) (c : EventCall) :
    Prop where
  | quiet (s' : EventStorage) (ok : Bool) (hcall : s.call now c = some (s', ok))
      (hsound : Sound config s') (hquiet : Quiet s s')
      (hrefused : ok = false → ∀ eventId, s'.view eventId = s.view eventId)
      (hnone : ∀ eventId, delivered eventId ⟨s, (now, c), ok, s'⟩ = none)
  | written (r : Report) (bytes : List UInt8) (s' : EventStorage) (offset : Nat)
      (heq : c = .report (some r)) (hp : r.payload = some bytes)
      (hcall : s.call now c = some (s', true)) (hsound : Sound config s')
      (hwrites : Writes s s' r.eventId bytes offset)
      (hspares : s.Spares r.eventId offset bytes)

theorem delivered_no_data (hp : r.payload = none) (ok : Bool) (eventId : UInt32) :
    delivered eventId ⟨s, (now, .report (some r)), ok, s'⟩ = none := by
  show (if r.eventId = eventId ∧ ok = true then r.payload else none) = none
  rw [hp, ite_self]

theorem delivered_refused (event : Option Report) (eventId : UInt32) :
    delivered eventId ⟨s, (now, .report event), false, s'⟩ = none := by
  cases event with
  | none => rfl
  | some r => exact if_neg fun hboth => Bool.false_ne_true hboth.2

section

variable (h : Sound config s)
include h

theorem Effect.of_refused {event : Option Report}
    (hcall : s.call now (.report event) = some (s, false)) : Effect config s now (.report event) :=
  .quiet s false hcall h (Quiet.refl s) (fun _ _ => rfl) (delivered_refused event)

omit h in
theorem Effect.of_no_data (hp : r.payload = none)
    (hcall : s.call now (.report (some r)) = s'.raiseDtc now r) (hsound : Sound config s')
    (hquiet : Quiet s s') : Effect config s now (.report (some r)) := by
  obtain ⟨dtcs, heq⟩ := raiseDtc_defined (s := s') (fun _ _ => hp) now
  exact .quiet { s' with dtcs } true (hcall.trans heq)
    ⟨hsound.same, hsound.initialized, hsound.unique⟩ hquiet nofun (delivered_no_data hp true)

theorem Effect.of_written (hp : r.payload = some bytes)
    (hauto : ¬ (s.config.enableAutoDtc = true ∧ r.type = .error))
    (hcall : s.call now (.report (some r)) = s'.raiseDtc now r) (hsound : Sound config s')
    (hwrites : Writes s s' r.eventId bytes offset) (hspares : s.Spares r.eventId offset bytes) :
    Effect config s now (.report (some r)) := by
  rw [h.same, ← hsound.same] at hauto
  obtain ⟨dtcs, heq⟩ := raiseDtc_defined (fun hon htype => absurd ⟨hon, htype⟩ hauto) now
  exact .written r bytes { s' with dtcs } offset rfl hp (hcall.trans heq)
    ⟨hsound.same, hsound.initialized, hsound.unique⟩
    ⟨hwrites.buffer, hwrites.found, hwrites.others⟩ hspares

theorem view_eq (eventId : UInt32) :
    s.view eventId = (s.findEvent eventId).map fun e => (e, dataIn s.buffer e) := by
  rw [view, h.getEvent]

section

variable (hfind : s.findEvent r.eventId = some existing)
include hfind

theorem call_update : s.call now (.report (some r)) = s.updateEvent now existing r := by
  simp [call, reportEvent, h.initialized, hfind]

theorem view_touched (hsame : existing.touched now r = existing) (eventId : UInt32) :
    (s.setEvent r.eventId (·.touched now r)).view eventId = s.view eventId := by
  have hkey : ∀ e : StoredEvent, (e.touched now r).eventId = e.eventId := fun _ => rfl
  rw [view_eq (h.setEvent hkey r.eventId), view_eq h, find_setEvent hkey hfind]
  split
  case isTrue heq =>
    rw [heq, hfind, hsame]
    rfl
  case isFalse => rfl

variable (hfits : s.Fits now (.report (some r))) (hp : r.payload = some bytes)
include hfits hp

theorem Sound.in_place (hle : existing.dataSize ≥ r.dataSize) :
    Effect config s now (.report (some r)) := by
  obtain ⟨hauto, hold, -⟩ := hfits bytes hp
  have hcase := hold existing hfind
  rw [if_pos hle] at hcase
  obtain ⟨hsize, offset, hoffset, hspares⟩ := hcase
  have hcall : s.call now _ = _ := call_update h hfind
  cases hdata : existing.data with
  | null | caller =>
    rw [hdata] at hoffset
    cases hoffset
  | buffer offset' =>
    rw [hdata] at hoffset
    cases hoffset
    simp only [updateEvent, hp, hle, if_true, hdata] at hcall
    refine .of_written h hp hauto hcall ((h.withBuffer _).setEvent (fun _ => by rfl) _)
      (Writes.setEvent (fun _ => by rfl) hfind hdata ?_) hspares
    rw [length_payload hp, ← hsize]
    rfl

theorem Sound.moved (hlt : ¬ existing.dataSize ≥ r.dataSize) :
    Effect config s now (.report (some r)) := by
  obtain ⟨hauto, hold, -⟩ := hfits bytes hp
  have hcase := hold existing hfind
  have hcall : s.call now _ = _ := call_update h hfind
  simp only [updateEvent, hp, hlt, if_false, allocateEventData_eq] at hcall
  rw [if_neg hlt] at hcase
  by_cases hroom : s.HasRoom r.dataSize
  · rw [if_pos hroom] at hcall hcase
    exact .of_written h hp hauto hcall ((h.withBuffer _).setEvent (fun _ => by rfl) _)
      (Writes.setEvent (fun _ => rfl) hfind rfl (length_payload hp).symm) hcase
  · rw [if_neg hroom] at hcall hcase
    have hkey : ∀ e : StoredEvent, (e.touched now r).eventId = e.eventId := fun _ => rfl
    exact .quiet _ false hcall (h.setEvent hkey _) (Quiet.setEvent hkey (fun _ _ => rfl) hfind)
      (fun _ => view_touched h hfind hcase) (delivered_refused (some r))

omit hp in
theorem Sound.update_effect : Effect config s now (.report (some r)) := by
  cases hp : r.payload with
  | none =>
    have hcall : s.call now _ = _ := call_update h hfind
    simp only [updateEvent, hp] at hcall
    exact .of_no_data hp hcall (h.setEvent (fun _ => by rfl) _)
      (Quiet.setEvent (fun _ => rfl) (fun _ _ => rfl) hfind)
  | some bytes =>
    by_cases hle : existing.dataSize ≥ r.dataSize
    · exact h.in_place hfind hfits hp hle
    · exact h.moved hfind hfits hp hle

end

end

theorem dataIn_copied (r : Report) (now : Nat) (buffer : Mem) :
    dataIn buffer (r.copied now) = none := by
  unfold dataIn Report.copied
  by_cases hnull : r.data = none
  · simp [hnull]
  · simp [hnull]

theorem Sound.add_effect (h : Sound config s) (hfind : s.findEvent r.eventId = none)
    (hfits : s.Fits now (.report (some r))) : Effect config s now (.report (some r)) := by
  have hcall : s.call now (.report (some r)) = s.addEvent now r := by
    simp [call, reportEvent, h.initialized, hfind]
  by_cases hfull : s.events.length ≥ s.config.maxEvents.toNat
  · simp only [addEvent, hfull, if_true] at hcall
    exact .of_refused h hcall
  cases hp : r.payload with
  | none =>
    simp only [addEvent, hfull, if_false, hp] at hcall
    exact .of_no_data hp hcall (h.append hfind) (Quiet.append hfind (dataIn_copied r now s.buffer))
  | some bytes =>
    simp only [addEvent, hfull, if_false, hp, allocateEventData_eq] at hcall
    by_cases hroom : s.HasRoom r.dataSize
    · rw [if_pos hroom] at hcall
      obtain ⟨hauto, -, hnewFits⟩ := hfits bytes hp
      have hnew : s.findEvent ((r.copied now).placed s.usedBytes r.dataSize).eventId = none := hfind
      exact .of_written h hp hauto hcall ((h.append hnew).withBuffer _)
        (Writes.append hnew rfl (length_payload hp).symm)
        (hnewFits hfind (Nat.lt_of_not_ge hfull) hroom)
    · rw [if_neg hroom] at hcall
      exact .of_refused h hcall

theorem processEvent_refused (h : (s.processEvent now eventId).2 = false) :
    (s.processEvent now eventId).1 = s := by
  unfold processEvent at h ⊢
  split
  · rfl
  case isFalse hinit =>
    rw [if_neg hinit] at h
    cases hfind : s.findEvent eventId with
    | none => rfl
    | some e =>
      rw [hfind] at h
      dsimp only at h
      split at h
      · split at h <;> cases h
      · split at h <;> cases h
      · cases h
      · cases h

theorem Sound.effect {c : EventCall} (h : Sound config s) (hfits : s.Fits now c) :
    Effect config s now c := by
  cases c with
  | report event =>
    cases event with
    | none =>
      refine .of_refused h ?_
      simp [call, reportEvent]
    | some r =>
      cases hfind : s.findEvent r.eventId with
      | none => exact h.add_effect hfind hfits
      | some existing => exact h.update_effect hfind hfits
  | processAllEvents =>
    obtain ⟨events, dtcs, hsub, hall⟩ := processAllEvents_eq h.initialized now
    exact .quiet _ true (congrArg some hall) ⟨h.same, h.initialized, h.unique.of_sublist hsub⟩
      (Quiet.of_sublist h hsub dtcs) nofun fun _ => rfl
  | processEvent eventId =>
    obtain ⟨dtcs, hevent⟩ := s.processEvent_eq now eventId
    refine .quiet (s.processEvent now eventId).1 (s.processEvent now eventId).2 rfl ?_ ?_
      (fun hno _ => by rw [processEvent_refused hno]) fun _ => rfl
    · rw [hevent]
      exact ⟨h.same, h.initialized, h.unique⟩
    · rw [hevent]
      exact fun _ _ => rfl
  | setEventPriority eventId priority =>
    have hkey : ∀ e : StoredEvent, { e with priority }.eventId = e.eventId := fun _ => rfl
    cases hfind : s.findEvent eventId with
    | none =>
      refine .quiet s false ?_ h (Quiet.refl s) (fun _ _ => rfl) fun _ => rfl
      simp [call, setEventPriority, hfind]
    | some e =>
      refine .quiet (s.setEvent eventId fun e => { e with priority }) true ?_
        (h.setEvent hkey eventId) (Quiet.setEvent hkey (fun _ _ => rfl) hfind) nofun
        fun _ => rfl
      simp [call, setEventPriority, h.initialized, hfind]
  | clearEvents =>
    refine .quiet { s with events := [], buffer := s.buffer.fill 0 s.bufferSize 0 } true ?_
      ⟨h.same, h.initialized, List.nodup_nil⟩ (fun _ hstored => absurd rfl hstored) nofun
      fun _ => rfl
    simp [call, clearEvents, h.initialized]

/-- What an undisturbed store keeps: it holds what the log says. -/
structure Whole (config : DiagEventConfig) (x : List Entry × EventStorage) : Prop where
  sound : Sound config x.2
  held : ∀ eventId, carried eventId x.1 = x.2.held eventId

theorem length_dataIn {buffer : Mem} (h : dataIn buffer e = some bytes) :
    e.dataSize.toNat = bytes.length := by
  unfold dataIn at h
  split at h
  · rw [← Option.some.inj h, Mem.length_load]
  · cases h

section

variable {x : List Entry × EventStorage} {c : EventCall} {ok : Bool}

theorem Whole.faithful (h : Whole config x) (hpast : Historically Untouched x.1) : Faithful x := by
  refine ⟨fun eventId bytes hcarried => ?_, hpast⟩
  rw [h.held] at hcarried
  obtain ⟨e, he, hdata⟩ := bind_eq_some_iff.mp hcarried
  exact ⟨e, (h.sound.getEvent eventId).trans he, length_dataIn hdata, hdata⟩

theorem held_absent (h : s.findEvent eventId = none) : s.held eventId = none := by
  rw [held, h]
  rfl

theorem Whole.quiet (h : Whole config x) (hsound : Sound config s') (hquiet : Quiet x.2 s')
    (hnone : ∀ eventId, delivered eventId ⟨x.2, (now, c), ok, s'⟩ = none) :
    Whole config (⟨x.2, (now, c), ok, s'⟩ :: x.1, s') := by
  refine ⟨hsound, fun eventId => ?_⟩
  rw [carried]
  split
  case isTrue habsent => exact (held_absent habsent).symm
  case isFalse hstored =>
    rw [hnone eventId, h.held eventId]
    exact (hquiet eventId hstored).symm

theorem Whole.written {r : Report} (h : Whole config x) (hsound : Sound config s')
    (hp : r.payload = some bytes) (hwrites : Writes x.2 s' r.eventId bytes offset)
    (hspares : x.2.Spares r.eventId offset bytes) :
    Whole config (⟨x.2, (now, .report (some r)), true, s'⟩ :: x.1, s') := by
  refine ⟨hsound, fun eventId => ?_⟩
  rw [carried]
  by_cases heq : eventId = r.eventId
  · obtain ⟨e, he, -, -⟩ := hwrites.found
    have hstored : s'.findEvent eventId ≠ none := by
      rw [heq, he]
      exact some_ne_none e
    have hnow : delivered eventId ⟨x.2, (now, .report (some r)), true, s'⟩ = some bytes :=
      (if_pos ⟨heq.symm, rfl⟩).trans hp
    rw [if_neg hstored, hnow, some_or, heq, hwrites.held]
  · have hnow : delivered eventId ⟨x.2, (now, .report (some r)), true, s'⟩ = none :=
      if_neg fun hboth => heq hboth.1.symm
    rw [hnow, h.held, hwrites.held_other hspares heq]
    split
    case isTrue habsent =>
      exact (held_absent ((hwrites.others eventId heq).symm.trans habsent)).symm
    case isFalse => rfl

end

theorem Whole.init {dtcs : DtcStorage} (h : init config dtcs = some s) : Whole config ([], s) := by
  unfold EventStorage.init at h
  split at h
  · cases h
  · cases h
    exact ⟨⟨rfl, rfl, List.nodup_nil⟩, fun _ => rfl⟩

theorem Whole.step_fits {x : List Entry × EventStorage} {c : EventCall} (h : Whole config x)
    (hfits : x.2.Fits now c) :
    ∃ s' ok, x.2.call now c = some (s', ok) ∧
      Whole config (⟨x.2, (now, c), ok, s'⟩ :: x.1, s') ∧
      Untouched ⟨x.2, (now, c), ok, s'⟩ x.1 := by
  cases h.sound.effect hfits with
  | quiet s' ok hcall hsound hquiet hrefused hnone =>
    exact ⟨s', ok, hcall, h.quiet hsound hquiet hnone, hrefused⟩
  | written r bytes s' offset heq hp hcall hsound hwrites hspares =>
    subst heq
    exact ⟨s', true, hcall, h.written hsound hp hwrites hspares, nofun⟩

/-- **The data of events, over every run.** They are `Faithful` as long as every report that
carries data `Fits`. -/
theorem data_kept {dtcs : DtcStorage} (h : init config dtcs = some s)
    {calls : List (Nat × EventCall)}
    (hfits : Along (logged step) (fun x i => x.2.Fits i.1 i.2) ([], s) calls) :
    Throughout (logged step) Faithful ([], s) calls := by
  refine throughout_of_along (fun x => Whole config x ∧ Historically Untouched x.1)
    (fun x hx => hx.1.faithful hx.2) ?_ calls ⟨Whole.init h, trivial⟩ hfits
  rintro x ⟨now, c⟩ ⟨hwhole, hpast⟩ hok
  obtain ⟨s', ok, hcall, hnext, huntouched⟩ := hwhole.step_fits hok
  exact ⟨_, _, logged_eq hcall, hnext, huntouched, hpast⟩

/-- No report sets a trouble code. -/
def fourEvents : DiagEventConfig := ⟨4, 8, false⟩

def empty (config : DiagEventConfig) : EventStorage :=
  ⟨[], fun _ => 0, config.maxEvents.toNat * config.maxEventDataSize.toNat, config, true,
    DtcStorage.empty DtcStorage.tenCodes⟩

def reportOf (eventId : UInt32) (type : DiagEventType) (priority : DiagEventPriority)
    (data : List UInt8) (hdata : data.length < 65536) : EventCall :=
  .report (some
    { eventId, type, priority, timestamp := 0, dtc := eventId, data := some data
      dataSize := UInt16.ofNat data.length
      description := Buf.fill 128 0
      readable := by
        rintro bytes ⟨⟩
        exact (UInt16.toNat_ofNat_of_lt' hdata).symm })

theorem data_kept_same_size :
    init fourEvents (DtcStorage.empty DtcStorage.tenCodes) = some (empty fourEvents) ∧
      Throughout (logged step) Faithful ([], empty fourEvents)
        [(0, reportOf 1 .error .high [0xA1, 0xA2] (by decide)),
          (1, reportOf 2 .info .low [0xB1] (by decide)), (2, .processAllEvents),
          (3, reportOf 1 .error .high [0xA3, 0xA4] (by decide))] := by
  have hinit : init fourEvents (DtcStorage.empty DtcStorage.tenCodes) = some (empty fourEvents) :=
    rfl
  exact ⟨hinit, data_kept hinit (by decide)⟩

/-- A report with fewer bytes leaves the old size, and the last of the old bytes. -/
theorem shorter_report_mixed :
    init fourEvents (DtcStorage.empty DtcStorage.tenCodes) = some (empty fourEvents) ∧
      (∃ s, run step (empty fourEvents)
          [(0, reportOf 1 .error .high [0xA1, 0xA2] (by decide)),
            (1, reportOf 1 .error .high [0xB1] (by decide))] = some (s, [true, true]) ∧
        (s.getEvent 1).map (·.dataSize) = some 2 ∧ s.held 1 = some [0xB1, 0xA2]) ∧
      ¬ Throughout (logged step) Faithful ([], empty fourEvents)
        [(0, reportOf 1 .error .high [0xA1, 0xA2] (by decide)),
          (1, reportOf 1 .error .high [0xB1] (by decide))] := by
  refine ⟨rfl, ⟨_, rfl, by decide, by decide⟩, fun h => ?_⟩
  obtain ⟨e, he, hsize, -⟩ := (h.last rfl).readBack 1 [0xB1] rfl
  cases he
  cases hsize

end EventStorage

end Cant.Diagnostic
