/-
# `DtcManager` — stored trouble codes (`dtc_manager.c`)

The array `records` is `stored ++ spare`: the first `record_count` entries and the rest. A
`memmove` over a removed record leaves the last entry behind where it was, so a removal puts
a copy of the last stored record in front of `spare`; `DTC_SetStatus` takes a new record from
there, and sets only its number and the time of its first occurrence.

`freeze_frames` of a record points to an array, or is NULL: a `memmove` copies the pointer, so that
two slots may share an array, and a `memset` clears it. Nothing ever allocates one, and a frame is
written through the pointer untested (`addFreezeFrame` has no result for NULL). What `data` of a
frame points to is an offset into `freeze_frame_buffer`. The allocations of `DTC_Init` are taken to
succeed. The numbers are small enough for the sums of sizes not to wrap: at most 1000 records of at
most 10 frames of at most 100 bytes.
-/
import Cant.Lib.ByteMem
import Cant.Lib.Keyed
import Cant.Lib.Sweep

namespace Cant.Diagnostic

open Keyed

inductive DtcSeverity where
  | noSeverity | checkAtNextHalt | checkImmediately | maintenanceOnly | checkAtNextService
  | safetyCritical
  deriving DecidableEq

structure FreezeFrameRecord where
  timestamp : UInt32
  recordNumber : UInt16
  offset : Nat
  dataSize : UInt16

structure DtcRecord where
  dtcNumber : UInt32
  statusMask : UInt8
  severity : DtcSeverity
  firstOccurrence : UInt32
  lastOccurrence : UInt32
  occurrenceCount : UInt32
  agingCounter : UInt32
  agedCounter : UInt32
  /-- The array; `none` is NULL. -/
  freezeFrames : Option Nat
  freezeFrameCount : Nat
  deriving DecidableEq

def DtcRecord.blank : DtcRecord := ⟨0, 0, .noSeverity, 0, 0, 0, 0, 0, none, 0⟩

/-- The entries of an array that a record counts. A frame is counted behind the write through the
pointer, so with NULL there are none. -/
def DtcRecord.frames (arrays : Nat → Nat → FreezeFrameRecord) (r : DtcRecord) :
    List FreezeFrameRecord :=
  match r.freezeFrames with
  | none => []
  | some array => (List.range r.freezeFrameCount).map (arrays array)

/-- `DtcConfig`, without the callback: the store does not depend on whether there is one. -/
structure DtcConfig where
  maxDtcCount : UInt32
  maxFreezeFramesPerDtc : UInt32
  agingThreshold : UInt32
  agingCycleCounter : UInt32
  enableAutomaticClearing : Bool

structure DtcStorage where
  stored : List DtcRecord
  spare : List DtcRecord
  arrays : Nat → Nat → FreezeFrameRecord
  buffer : Mem
  bufferSize : Nat
  config : DtcConfig
  initialized : Bool

/-- What a call answers; `change` are the old and the new status that `DTC_SetStatus` hands
to the callback, if one is set. -/
structure DtcAnswer where
  ok : Bool
  change : Option (UInt8 × UInt8)
  deriving DecidableEq

def systemTimeMs (now : Nat) : UInt32 := UInt32.ofNat now

def DtcRecord.touched (r : DtcRecord) (now : Nat) (statusMask : UInt8) : DtcRecord :=
  { r with
    statusMask
    lastOccurrence := systemTimeMs now
    occurrenceCount := r.occurrenceCount + 1 }

def DtcRecord.reused (slot : DtcRecord) (now : Nat) (dtc : UInt32) (statusMask : UInt8) :
    DtcRecord :=
  { slot with dtcNumber := dtc, firstOccurrence := systemTimeMs now }.touched now statusMask

/-- The entry of `DTC_AddFreezeFrame`: a frame of `size` bytes at `offset` is the next one. -/
def DtcRecord.nextFrame (r : DtcRecord) (now offset size : Nat) : FreezeFrameRecord :=
  ⟨systemTimeMs now, UInt16.ofNat (r.freezeFrameCount + 1), offset, UInt16.ofNat size⟩

def DtcRecord.counted (r : DtcRecord) : DtcRecord :=
  { r with freezeFrameCount := r.freezeFrameCount + 1 }

def DtcRecord.confirmed (r : DtcRecord) : Bool := r.statusMask &&& 0x08 ≠ 0

def DtcRecord.aged (config : DtcConfig) (r : DtcRecord) : DtcRecord :=
  if r.confirmed then r
  else if r.agingCounter + 1 ≥ config.agingThreshold then
    { r with agedCounter := r.agedCounter + 1, agingCounter := 0 }
  else { r with agingCounter := r.agingCounter + 1 }

def DtcRecord.expires (config : DtcConfig) (r : DtcRecord) : Bool :=
  !r.confirmed && r.agingCounter + 1 ≥ config.agingThreshold &&
    config.enableAutomaticClearing && r.agedCounter + 1 ≥ config.agingCycleCounter

/-- The loop of `DTC_ProcessAging` over the stored records that are left, with the spare
ones. -/
def ageRecords (config : DtcConfig) : List DtcRecord → List DtcRecord →
    List DtcRecord × List DtcRecord
  | [], spare => ([], spare)
  | r :: rest, spare =>
    if r.expires config then
      -- The `memmove` leaves the last one behind: this one, if there is no other.
      ageRecords config rest (rest.getLast?.getD (r.aged config) :: spare)
    else
      let (stored, spare) := ageRecords config rest spare
      (r.aged config :: stored, spare)

namespace DtcStorage

/-- `DTC_Init`; `none` is the answer false. -/
def init (config : DtcConfig) : Option DtcStorage :=
  if config.maxDtcCount = 0 || config.maxDtcCount > 1000 || config.maxFreezeFramesPerDtc > 10 then
    none
  else some
    { stored := []
      spare := List.replicate config.maxDtcCount.toNat .blank
      arrays := fun _ _ => ⟨0, 0, 0, 0⟩
      buffer := fun _ => 0
      bufferSize := config.maxDtcCount.toNat * config.maxFreezeFramesPerDtc.toNat * 100
      config
      initialized := true }

def findDtcRecord (s : DtcStorage) (dtc : UInt32) : Option DtcRecord :=
  lookup DtcRecord.dtcNumber dtc s.stored

def validateDtc (s : DtcStorage) (dtc : UInt32) : Bool := s.stored.any (·.dtcNumber == dtc)

def setStatus (s : DtcStorage) (now : Nat) (dtc : UInt32) (statusMask : UInt8) :
    DtcStorage × DtcAnswer :=
  if !s.initialized then (s, ⟨false, none⟩)
  else
    match s.findDtcRecord dtc with
    | some r =>
      ({ s with stored := update DtcRecord.dtcNumber dtc (·.touched now statusMask) s.stored },
        ⟨true, some (r.statusMask, statusMask)⟩)
    | none =>
      match s.spare with
      | [] => (s, ⟨false, none⟩)
      | slot :: spare =>
        ({ s with stored := s.stored ++ [slot.reused now dtc statusMask], spare },
          ⟨true, some (slot.statusMask, statusMask)⟩)

/-- The loop of `allocate_freeze_frame`: what the stored frames take. -/
def usedBytes (s : DtcStorage) : Nat :=
  (s.stored.map fun r => ((r.frames s.arrays).map (·.dataSize.toNat)).sum).sum

def allocateFreezeFrame (s : DtcStorage) (r : DtcRecord) (size : Nat) : Option Nat :=
  if r.freezeFrameCount ≥ s.config.maxFreezeFramesPerDtc.toNat then none
  else if s.usedBytes + size > s.bufferSize then none
  else some s.usedBytes

/-- The end of `DTC_AddFreezeFrame`, with the record and its array. -/
def withFrame (s : DtcStorage) (now : Nat) (r : DtcRecord) (array offset : Nat)
    (data : List UInt8) : DtcStorage :=
  { s with
    stored := update DtcRecord.dtcNumber r.dtcNumber DtcRecord.counted s.stored
    arrays := Function.update s.arrays array (Function.update (s.arrays array) r.freezeFrameCount
      (r.nextFrame now offset data.length))
    buffer := s.buffer.store offset data }

/-- `DTC_AddFreezeFrame`, at clock `now`; a null pointer is refused as no data are. -/
def addFreezeFrame (s : DtcStorage) (now : Nat) (dtc : UInt32) (data : List UInt8) :
    Option (DtcStorage × DtcAnswer) :=
  if !s.initialized || data.length = 0 || data.length > 100 || !s.validateDtc dtc then
    some (s, ⟨false, none⟩)
  else
    match s.findDtcRecord dtc with
    | none => some (s, ⟨false, none⟩)
    | some r =>
      match s.allocateFreezeFrame r data.length with
      | none => some (s, ⟨false, none⟩)
      | some offset =>
        r.freezeFrames.map fun array => (s.withFrame now r array offset data, ⟨true, none⟩)

def getFreezeFrame (s : DtcStorage) (dtc : UInt32) (recordNumber : UInt16) : Option (List UInt8) :=
  if !s.initialized || !s.validateDtc dtc then none
  else do
    let r ← s.findDtcRecord dtc
    let frame ← (r.frames s.arrays).find? (·.recordNumber == recordNumber)
    some (s.buffer.load frame.offset frame.dataSize.toNat)

def clearAll (s : DtcStorage) : DtcStorage × DtcAnswer :=
  if !s.initialized then (s, ⟨false, none⟩)
  else
    ({ s with
        stored := []
        spare := List.replicate (s.stored.length + s.spare.length) .blank
        buffer := s.buffer.fill 0 s.bufferSize 0 }, ⟨true, none⟩)

def clearSingle (s : DtcStorage) (dtc : UInt32) : DtcStorage × DtcAnswer :=
  if !s.initialized || !s.validateDtc dtc then (s, ⟨false, none⟩)
  else
    ({ s with
        stored := remove DtcRecord.dtcNumber dtc s.stored
        spare := s.stored.getLast?.toList ++ s.spare }, ⟨true, none⟩)

def processAging (s : DtcStorage) : DtcStorage × DtcAnswer :=
  if !s.initialized then (s, ⟨false, none⟩)
  else
    let (stored, spare) := ageRecords s.config s.stored s.spare
    ({ s with stored, spare }, ⟨true, none⟩)

def setSeverity (s : DtcStorage) (dtc : UInt32) (severity : DtcSeverity) : DtcStorage × DtcAnswer :=
  if !s.initialized || !s.validateDtc dtc then (s, ⟨false, none⟩)
  else
    ({ s with
        stored :=
          update DtcRecord.dtcNumber dtc (fun r : DtcRecord => { r with severity }) s.stored },
      ⟨true, none⟩)

end DtcStorage

inductive DtcCall where
  | setStatus (dtc : UInt32) (statusMask : UInt8)
  | addFreezeFrame (dtc : UInt32) (data : List UInt8)
  | clearSingle (dtc : UInt32)
  | clearAll
  | processAging
  | setSeverity (dtc : UInt32) (severity : DtcSeverity)

namespace DtcStorage

def call (s : DtcStorage) (now : Nat) : DtcCall → Option (DtcStorage × DtcAnswer)
  | .setStatus dtc statusMask => some (s.setStatus now dtc statusMask)
  | .addFreezeFrame dtc data => s.addFreezeFrame now dtc data
  | .clearSingle dtc => some (s.clearSingle dtc)
  | .clearAll => some s.clearAll
  | .processAging => some s.processAging
  | .setSeverity dtc severity => some (s.setSeverity dtc severity)

def step (s : DtcStorage) (i : Nat × DtcCall) : Option (DtcStorage × DtcAnswer) := s.call i.1 i.2

def tenCodes : DtcConfig := ⟨10, 2, 0xFFFFFFFF, 1, false⟩

def empty (config : DtcConfig) : DtcStorage :=
  ⟨[], List.replicate config.maxDtcCount.toNat .blank, fun _ _ => ⟨0, 0, 0, 0⟩, fun _ => 0,
    config.maxDtcCount.toNat * config.maxFreezeFramesPerDtc.toNat * 100, config, true⟩

def capacity (s : DtcStorage) : Nat := s.stored.length + s.spare.length

/-! ## The calls, case by case -/

theorem validateDtc_iff (s : DtcStorage) (dtc : UInt32) :
    s.validateDtc dtc = (s.findDtcRecord dtc).isSome := by
  unfold validateDtc findDtcRecord
  induction s.stored with
  | nil => rfl
  | cons r rest ih =>
    rw [List.any_cons, lookup, ih]
    by_cases hr : r.dtcNumber = dtc
    · rw [if_pos hr, hr, beq_self_eq_true]
      rfl
    · rw [if_neg hr, beq_eq_false_iff_ne.mpr hr, Bool.false_or]

section

variable {s : DtcStorage} {now : Nat} {dtc : UInt32} {r : DtcRecord}

theorem setStatus_present (hinit : s.initialized = true) (hr : s.findDtcRecord dtc = some r)
    (statusMask : UInt8) :
    s.setStatus now dtc statusMask =
      ({ s with stored := update DtcRecord.dtcNumber dtc (·.touched now statusMask) s.stored },
        ⟨true, some (r.statusMask, statusMask)⟩) := by
  simp [setStatus, hinit, hr]

theorem setStatus_full (habsent : s.findDtcRecord dtc = none) (hspare : s.spare = [])
    (statusMask : UInt8) :
    s.setStatus now dtc statusMask = (s, ⟨false, none⟩) := by
  simp [setStatus, habsent, hspare]

theorem setStatus_new (hinit : s.initialized = true) (habsent : s.findDtcRecord dtc = none)
    {slot : DtcRecord} {spare : List DtcRecord} (hspare : s.spare = slot :: spare)
    (statusMask : UInt8) :
    s.setStatus now dtc statusMask =
      ({ s with stored := s.stored ++ [slot.reused now dtc statusMask], spare },
        ⟨true, some (slot.statusMask, statusMask)⟩) := by
  simp [setStatus, hinit, habsent, hspare]

/-- The tests that a frame for a record has to pass. -/
def Accepts (s : DtcStorage) (r : DtcRecord) (data : List UInt8) : Prop :=
  s.initialized = true ∧ (0 < data.length ∧ data.length ≤ 100) ∧
    r.freezeFrameCount < s.config.maxFreezeFramesPerDtc.toNat ∧
    s.usedBytes + data.length ≤ s.bufferSize
  deriving Decidable

/-- No frame for the code is written through NULL. -/
def NotNull (s : DtcStorage) (dtc : UInt32) (data : List UInt8) : Prop :=
  ∀ r ∈ s.findDtcRecord dtc, s.Accepts r data → r.freezeFrames ≠ none
  deriving Decidable

theorem addFreezeFrame_eq (s : DtcStorage) (now : Nat) (dtc : UInt32) (data : List UInt8) :
    s.addFreezeFrame now dtc data = match s.findDtcRecord dtc with
      | none => some (s, ⟨false, none⟩)
      | some r =>
        if s.Accepts r data then
          r.freezeFrames.map fun array => (s.withFrame now r array s.usedBytes data, ⟨true, none⟩)
        else some (s, ⟨false, none⟩) := by
  unfold addFreezeFrame
  rw [validateDtc_iff]
  cases s.findDtcRecord dtc with
  | none => simp
  | some r =>
    unfold allocateFreezeFrame Accepts
    grind

theorem addFreezeFrame_eq_none {data : List UInt8} :
    s.addFreezeFrame now dtc data = none ↔ ¬ s.NotNull dtc data := by
  rw [addFreezeFrame_eq, NotNull]
  cases s.findDtcRecord dtc with
  | none => simp
  | some r =>
    by_cases haccepts : s.Accepts r data
    · simp [haccepts]
    · simp [haccepts]

theorem addFreezeFrame_eq_some {s' : DtcStorage} {o : DtcAnswer} {data : List UInt8}
    (h : s.addFreezeFrame now dtc data = some (s', o)) :
    s' = s ∧ o = ⟨false, none⟩ ∨ ∃ r array, s.findDtcRecord r.dtcNumber = some r ∧
      dtc = r.dtcNumber ∧ s.Accepts r data ∧ r.freezeFrames = some array ∧
      s' = s.withFrame now r array s.usedBytes data ∧ o = ⟨true, none⟩ := by
  rw [addFreezeFrame_eq] at h
  split at h
  case h_1 =>
    cases h
    exact .inl ⟨rfl, rfl⟩
  case h_2 r hr =>
    obtain ⟨-, rfl⟩ := mem_of_lookup hr
    split at h
    case isTrue haccepts =>
      obtain ⟨array, harray, heq⟩ := Option.map_eq_some_iff.mp h
      cases heq
      exact .inr ⟨r, array, hr, rfl, haccepts, harray, rfl, rfl⟩
    case isFalse =>
      cases h
      exact .inl ⟨rfl, rfl⟩

theorem clearSingle_absent (habsent : s.findDtcRecord dtc = none) :
    s.clearSingle dtc = (s, ⟨false, none⟩) := by
  simp [clearSingle, validateDtc_iff, habsent]

theorem clearSingle_present (hinit : s.initialized = true) (hr : s.findDtcRecord dtc = some r) :
    s.clearSingle dtc = ({ s with
          stored := remove DtcRecord.dtcNumber dtc s.stored
          spare := s.stored.getLast?.toList ++ s.spare }, ⟨true, none⟩) := by
  simp [clearSingle, validateDtc_iff, hinit, hr]

theorem setSeverity_absent (habsent : s.findDtcRecord dtc = none) (severity : DtcSeverity) :
    s.setSeverity dtc severity = (s, ⟨false, none⟩) := by
  simp [setSeverity, validateDtc_iff, habsent]

section

variable (hinit : s.initialized = true)
include hinit

theorem setSeverity_present (hr : s.findDtcRecord dtc = some r) (severity : DtcSeverity) :
    s.setSeverity dtc severity = ({ s with
          stored := update DtcRecord.dtcNumber dtc (fun r : DtcRecord => { r with severity })
            s.stored }, ⟨true, none⟩) := by
  simp [setSeverity, validateDtc_iff, hinit, hr]

theorem clearAll_eq :
    s.clearAll = ({ s with
          stored := []
          spare := List.replicate s.capacity .blank
          buffer := s.buffer.fill 0 s.bufferSize 0 }, ⟨true, none⟩) := by
  simp only [clearAll, hinit, Bool.not_true, Bool.false_eq_true, if_false]
  rfl

theorem processAging_eq :
    s.processAging = ({ s with
          stored := (ageRecords s.config s.stored s.spare).1
          spare := (ageRecords s.config s.stored s.spare).2 }, ⟨true, none⟩) := by
  simp [processAging, hinit]

end

end

end DtcStorage

section

variable {config : DtcConfig}

theorem DtcRecord.dtcNumber_aged (config : DtcConfig) (r : DtcRecord) :
    (r.aged config).dtcNumber = r.dtcNumber := by
  unfold aged
  split
  · rfl
  · split
    · rfl
    · rfl

theorem DtcRecord.frames_aged (config : DtcConfig) (arrays : Nat → Nat → FreezeFrameRecord)
    (r : DtcRecord) : (r.aged config).frames arrays = r.frames arrays := by
  unfold aged
  split
  · rfl
  · split
    · rfl
    · rfl

def DtcRecord.survives (config : DtcConfig) (r : DtcRecord) : Option DtcRecord :=
  if r.expires config then none else some (r.aged config)

theorem DtcRecord.dtcNumber_survives {r r' : DtcRecord} (h : r.survives config = some r') :
    r'.dtcNumber = r.dtcNumber := by
  unfold survives at h
  split at h
  · cases h
  · cases h
    exact r.dtcNumber_aged config

theorem ageRecords_stored (config : DtcConfig) (stored spare : List DtcRecord) :
    (ageRecords config stored spare).1 = stored.filterMap (DtcRecord.survives config) := by
  induction stored generalizing spare with
  | nil => rfl
  | cons r rest ih =>
    rw [ageRecords]
    by_cases hr : r.expires config = true
    · have hnone : r.survives config = none := if_pos hr
      rw [if_pos hr, ih, List.filterMap_cons_none hnone]
    · have hsome : r.survives config = some (r.aged config) := if_neg hr
      rw [if_neg hr, List.filterMap_cons_some hsome, ← ih spare]

theorem ageRecords_length (stored spare : List DtcRecord) :
    (ageRecords config stored spare).1.length + (ageRecords config stored spare).2.length
      = stored.length + spare.length := by
  induction stored generalizing spare with
  | nil => rfl
  | cons r rest ih =>
    rw [ageRecords]
    split
    · rw [ih, List.length_cons, List.length_cons]
      omega
    · have hrest := ih spare
      show (r.aged config :: (ageRecords config rest spare).1).length
        + (ageRecords config rest spare).2.length = _
      rw [List.length_cons, List.length_cons]
      omega

/-! ## The loop with its index -/

/-- The body of the loop of `DTC_ProcessAging`; `none` if the record is removed. -/
def DtcRecord.agingRound (config : DtcConfig) (r : DtcRecord) : Option DtcRecord :=
  if r.confirmed then some r
  else
    let r := { r with agingCounter := r.agingCounter + 1 }
    if r.agingCounter ≥ config.agingThreshold then
      let r := { r with agedCounter := r.agedCounter + 1, agingCounter := 0 }
      if config.enableAutomaticClearing && r.agedCounter ≥ config.agingCycleCounter then none
      else some r
    else some r

/-- The loop of `DTC_ProcessAging`, for so many rounds at most. -/
def DtcStorage.agingLoop (s : DtcStorage) (rounds : Nat) : Option (List DtcRecord) :=
  (Sweep.loop (fun _ _ r => (r.agingRound s.config, ([] : List Unit))) rounds 0 s.stored 0).map
    (·.1)

theorem DtcRecord.agingRound_eq (r : DtcRecord) : r.agingRound config = r.survives config := by
  unfold agingRound survives expires aged
  by_cases hconfirmed : r.confirmed = true
  · simp [hconfirmed]
  · by_cases hthreshold : r.agingCounter + 1 ≥ config.agingThreshold
    all_goals simp [hconfirmed, hthreshold]

theorem DtcRecord.expires_iff (r : DtcRecord) : r.expires config ↔
    config.enableAutomaticClearing ∧ (r.aged config).agedCounter ≠ r.agedCounter ∧
      config.agingCycleCounter ≤ (r.aged config).agedCounter := by
  have hone : r.agedCounter + 1 ≠ r.agedCounter := by simp
  unfold expires aged
  by_cases hconfirmed : r.confirmed = true
  · simp [hconfirmed]
  · by_cases hthreshold : r.agingCounter + 1 ≥ config.agingThreshold
    · simp [hconfirmed, hthreshold]
    · simp [hconfirmed, hthreshold]

/-- Every record is aged once, in order, and dropped if that brings it to the limit. -/
theorem processAging_once {s : DtcStorage} (hinit : s.initialized = true)
    (hcount : s.stored.length < 2 ^ 32) :
    (∀ rounds, s.stored.length < rounds → s.agingLoop rounds = some s.processAging.1.stored) ∧
      s.processAging.1.stored = (s.stored.filter fun r =>
        ¬ (s.config.enableAutomaticClearing ∧ (r.aged s.config).agedCounter ≠ r.agedCounter ∧
          s.config.agingCycleCounter ≤ (r.aged s.config).agedCounter)).map (·.aged s.config) := by
  have hstored : s.processAging.1.stored = s.stored.filterMap (DtcRecord.survives s.config) := by
    rw [DtcStorage.processAging_eq hinit]
    exact ageRecords_stored s.config s.stored s.spare
  rw [hstored]
  refine ⟨fun rounds hrounds => ?_, ?_⟩
  · simp [DtcStorage.agingLoop, Sweep.loop_eq _ hrounds hcount, DtcRecord.agingRound_eq,
      Sweep.sweep_filterMap]
  · rw [← List.filterMap_eq_map, List.filterMap_filter]
    refine List.filterMap_congr fun r _ => ?_
    simp only [DtcRecord.survives, ← DtcRecord.expires_iff]
    by_cases hr : r.expires s.config = true
    · simp [hr]
    · simp [hr]

/-- With a threshold of one, the records that are not confirmed go in the first round. -/
theorem processAging_once_blank :
    DtcStorage.agingLoop
      ⟨[.blank, { DtcRecord.blank with statusMask := 0x08 }, .blank], [],
        fun _ _ => ⟨0, 0, 0, 0⟩, fun _ => 0, 0, ⟨3, 0, 1, 1, true⟩, true⟩ 4 =
          some [{ DtcRecord.blank with statusMask := 0x08 }] :=
  (processAging_once rfl (by decide)).1 4 (by decide)

end

end Cant.Diagnostic
