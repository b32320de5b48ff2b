/-
# `EventRound` — one round over the stored events

`Event_Handler_ProcessAllEvents` goes over the table three times, once for each priority, and
then removes what is no longer active. It names events by their ids only, and each id is looked
up again; the ids are distinct, so each lookup finds the event it is meant for
(`processAllEvents_once`).
-/
import Cant.Diagnostic.EventData

namespace Cant.Diagnostic.EventStorage

variable {ok : Bool} {i : Nat × EventCall}

open Keyed Run

/-- The second loop of `Event_Handler_ProcessAllEvents` with its index, for so many rounds at
most. -/
def cleanUpLoop (now : Nat) (events : List StoredEvent) (rounds : Nat) :
    Option (List StoredEvent) :=
  (Sweep.loop (fun _ events event =>
    (if isEventActive events now event.eventId then some event else none, ([] : List Unit)))
    rounds 0 events 0).map (·.1)

def inOrder (events : List StoredEvent) : List StoredEvent :=
  events.filter (·.priority = .high) ++ events.filter (·.priority = .medium) ++
    events.filter (·.priority = .low)

variable {config : DiagEventConfig} {s s' : EventStorage} {now : Nat}

theorem inOrder_perm (events : List StoredEvent) : (inOrder events).Perm events := by
  induction events with
  | nil => rfl
  | cons event rest ih =>
    refine .trans ?_ (ih.cons event)
    unfold inOrder
    cases hpriority : event.priority with
    | high | medium => simp [hpriority]
    | low =>
      simp only [List.filter_cons, hpriority, reduceCtorEq, decide_true, decide_false, if_true,
        Bool.false_eq_true, if_false]
      exact List.perm_middle

theorem processPriority_foldl (now : Nat) (priority : DiagEventPriority) (rest : List StoredEvent)
    (s : EventStorage) : processPriority now priority rest s =
      (rest.filter (·.priority = priority)).foldl
        (fun s event => (s.processEvent now event.eventId).1) s := by
  induction rest generalizing s with
  | nil => rfl
  | cons event rest ih =>
    rw [processPriority]
    split
    case isTrue h => simp [ih, h]
    case isFalse h => simp [ih, h]

theorem isEventActive_of_mem {events : List StoredEvent} {event : StoredEvent}
    (h : Unique DiagEventData.eventId events) (hmem : event ∈ events) :
    isEventActive events now event.eventId = isEventActive [event] now event.eventId := by
  rw [isEventActive, isEventActive, h.lookup_of_mem hmem, lookup, if_pos rfl]

theorem cleanUp_filter {kept rest : List StoredEvent}
    (h : Unique DiagEventData.eventId (kept ++ rest)) :
    cleanUp now kept rest = kept ++ rest.filter fun e => isEventActive [e] now e.eventId := by
  induction rest generalizing kept with
  | nil => simp [cleanUp]
  | cons event rest ih =>
    rw [cleanUp, isEventActive_of_mem h (by simp), List.filter_cons]
    split
    · rw [ih (by rwa [List.append_assoc, List.singleton_append]), List.append_assoc]
      rfl
    · exact ih (h.of_sublist ((List.sublist_cons_self event rest).append_left kept))

theorem cleanUp_eq_sweep (now k : Nat) (kept rest : List StoredEvent) :
    (Sweep.sweep (fun _ events event =>
      (if isEventActive events now event.eventId then some event else none, ([] : List Unit)))
      k kept rest).1 = cleanUp now kept rest := by
  induction rest generalizing k kept with
  | nil => rfl
  | cons event rest ih =>
    rw [Sweep.sweep, cleanUp]
    split
    · exact ih (k + 1) (kept ++ [event])
    · rw [← ih (k + 1) kept]
      simp

/-- What the table keeps in every run. -/
structure Bounded (config : DiagEventConfig) (s : EventStorage) : Prop where
  sound : Sound config s
  length : s.events.length ≤ config.maxEvents.toNat

section

variable {r : Report} {existing : StoredEvent} (h : Bounded config s)
include h

theorem Bounded.setEvent {f : StoredEvent → StoredEvent} (hf : ∀ e, (f e).eventId = e.eventId)
    (eventId : UInt32) : Bounded config (s.setEvent eventId f) :=
  ⟨h.sound.setEvent hf eventId, (length_update s.events).trans_le h.length⟩

theorem Bounded.withBuffer (buffer : Mem) : Bounded config { s with buffer } :=
  ⟨h.sound.withBuffer buffer, h.length⟩

theorem Bounded.append {e : StoredEvent} (hnew : s.findEvent e.eventId = none)
    (hroom : ¬ s.events.length ≥ s.config.maxEvents.toNat) :
    Bounded config { s with events := s.events ++ [e] } := by
  refine ⟨h.sound.append hnew, ?_⟩
  rw [h.sound.same] at hroom
  rw [List.length_append]
  exact Nat.lt_of_not_ge hroom

theorem Bounded.raised (hraise : s.raiseDtc now r = some (s', ok)) : Bounded config s' := by
  obtain ⟨dtcs, rfl, -⟩ := of_raiseDtc hraise
  exact ⟨⟨h.sound.same, h.sound.initialized, h.sound.unique⟩, h.length⟩

theorem Bounded.updated (hupdate : s.updateEvent now existing r = some (s', ok)) :
    Bounded config s' := by
  unfold updateEvent at hupdate
  split at hupdate
  · exact (h.setEvent (fun _ => by rfl) _).raised hupdate
  · split at hupdate
    · cases hdata : existing.data with
      | null | caller =>
        rw [hdata] at hupdate
        cases hupdate
      | buffer offset =>
        rw [hdata] at hupdate
        exact ((h.withBuffer _).setEvent (fun _ => by rfl) _).raised hupdate
    · split at hupdate
      · cases hupdate
        exact h.setEvent (fun _ => by rfl) _
      · exact ((h.withBuffer _).setEvent (fun _ => by rfl) _).raised hupdate

theorem Bounded.added (hfind : s.findEvent r.eventId = none)
    (hadd : s.addEvent now r = some (s', ok)) : Bounded config s' := by
  unfold addEvent at hadd
  split at hadd
  · cases hadd
    exact h
  case isFalse hroom =>
    split at hadd
    · exact (h.append (e := r.copied now) hfind hroom).raised hadd
    · split at hadd
      · cases hadd
        exact h
      case h_2 offset _ =>
        exact ((h.append (e := (r.copied now).placed offset r.dataSize) hfind hroom).withBuffer
          _).raised hadd

theorem Bounded.step (hstep : step s i = some (s', ok)) : Bounded config s' := by
  obtain ⟨now, c⟩ := i
  cases c with
  | report event =>
    simp only [EventStorage.step, call, reportEvent, h.sound.initialized, Bool.not_true,
      Bool.false_eq_true, if_false] at hstep
    split at hstep
    · cases hstep
      exact h
    · split at hstep
      · exact h.updated hstep
      case h_2 hfind => exact h.added hfind hstep
  | processAllEvents =>
    obtain ⟨events, dtcs, hsub, hall⟩ := processAllEvents_eq h.sound.initialized now
    cases hall.symm.trans (Option.some.inj hstep)
    exact ⟨⟨h.sound.same, h.sound.initialized, h.sound.unique.of_sublist hsub⟩,
      hsub.length_le.trans h.length⟩
  | processEvent eventId =>
    obtain ⟨dtcs, hevent⟩ := s.processEvent_eq now eventId
    obtain rfl := (congrArg Prod.fst (Option.some.inj hstep)).symm.trans hevent
    exact ⟨⟨h.sound.same, h.sound.initialized, h.sound.unique⟩, h.length⟩
  | setEventPriority eventId priority =>
    obtain rfl := congrArg Prod.fst (Option.some.inj hstep)
    unfold setEventPriority
    split
    · exact h
    · exact h.setEvent (fun _ => by rfl) eventId
  | clearEvents =>
    obtain rfl := congrArg Prod.fst (Option.some.inj hstep)
    unfold clearEvents
    split
    · exact h
    · exact ⟨⟨h.sound.same, h.sound.initialized, List.nodup_nil⟩, Nat.zero_le _⟩

end

theorem Bounded.init {dtcs : DtcStorage} (h : init config dtcs = some s) : Bounded config s := by
  have hsound := (Whole.init h).sound
  unfold EventStorage.init at h
  split at h
  · cases h
  · cases h
    exact ⟨hsound, Nat.zero_le _⟩

theorem processPriority_events (now : Nat) (priority : DiagEventPriority)
    (events : List StoredEvent) (s : EventStorage) :
    (processPriority now priority events s).events = s.events := by
  obtain ⟨dtcs, h⟩ := processPriority_eq now priority events s
  rw [h]

/-- **A round, from every table that can be reached.** Every event is processed once, by priority
and then by position; the cleanup comes to its end, and leaves the active events in their order. -/
theorem processAllEvents_once {dtcs : DtcStorage} {s₀ : EventStorage}
    (hinit : init config dtcs = some s₀) {calls : List (Nat × EventCall)} {oks : List Bool}
    (hrun : run step s₀ calls = some (s, oks)) (now : Nat) :
    let order := inOrder s.events
    let left := s.events.filter fun e => isEventActive s.events now e.eventId
    (order.Perm s.events ∧ ∀ e ∈ order, s.findEvent e.eventId = some e) ∧
      (∀ rounds, s.events.length < rounds → cleanUpLoop now s.events rounds = some left) ∧
      s.processAllEvents now =
        ({ order.foldl (fun s e => (s.processEvent now e.eventId).1) s with events := left },
          true) ∧
      (left.map (·.eventId)).Nodup := by
  obtain ⟨hsound, hlength⟩ : Bounded config s :=
    run_inv (Bounded config) (fun t i t' ok ht hstep => ht.step hstep) (.init hinit) hrun
  have hleft : cleanUp now [] s.events =
      s.events.filter fun e => isEventActive s.events now e.eventId := by
    have hall : Unique DiagEventData.eventId ([] ++ s.events) := hsound.unique
    rw [cleanUp_filter hall, List.nil_append]
    exact List.filter_congr fun e he => (isEventActive_of_mem hsound.unique he).symm
  refine ⟨⟨inOrder_perm s.events, fun e he => ?_⟩, fun rounds hrounds => ?_, ?_, ?_⟩
  · exact hsound.unique.lookup_of_mem ((inOrder_perm s.events).mem_iff.mp he)
  · have hcount : s.events.length < 2 ^ 32 := hlength.trans_lt config.maxEvents.toNat_lt
    rw [cleanUpLoop, Sweep.loop_eq _ hrounds hcount, Option.map_some, cleanUp_eq_sweep, hleft]
  · simp only [processAllEvents, hsound.initialized, processPriority_events, hleft, inOrder,
      List.foldl_append, ← processPriority_foldl]
    simp
  · exact hsound.unique.of_sublist List.filter_sublist

def threeReports : List (Nat × EventCall) :=
  [(0, reportOf 1 .error .low [0xA1] (by decide)), (1, reportOf 2 .info .high [] (by decide)),
    (2, reportOf 3 .warning .medium [0xC1, 0xC2] (by decide))]

/-- Three events of different priorities, of which the second has expired. -/
theorem processAllEvents_once_three :
    ∃ s oks, run step (empty fourEvents) threeReports = some (s, oks) ∧
      (inOrder s.events).map (·.eventId) = [2, 3, 1] ∧
      (cleanUpLoop 700000 s.events 4).map (·.map (·.eventId)) = some [1, 3] ∧
      (s.processAllEvents 700000).1.events.map (·.eventId) = [1, 3] := by
  have hinit : init fourEvents (DtcStorage.empty DtcStorage.tenCodes) = some (empty fourEvents) :=
    rfl
  have hrun : run step (empty fourEvents) threeReports = some _ := rfl
  obtain ⟨-, hloop, hall, -⟩ := processAllEvents_once hinit hrun 700000
  refine ⟨_, _, hrun, by decide, ?_, ?_⟩
  · rw [hloop 4 (by decide)]
    decide
  · rw [hall]
    decide

end Cant.Diagnostic.EventStorage
