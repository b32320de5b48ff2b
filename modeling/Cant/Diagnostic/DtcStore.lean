/-
# `DtcStore` — the store as a finite map

The store is to be a map from trouble codes to records of at most `max_dtc_count` entries,
and `MapStep` is what the calls are to do to it. Unique numbers, the bound and the absence
of what was cleared hold in every run. What does not is that a new record is new: it stands
in a slot that a removal may have left full. `store_refines_map_iff` says that the store is
the map exactly as long as no such slot is taken.
-/
import Cant.Diagnostic.DtcManager
import Cant.Lib.FinMap
import Cant.Lib.Past

namespace Cant.Diagnostic

open Keyed Past Run List Option Function

abbrev DtcMap := UInt32 → Option DtcRecord

def DtcRecord.fresh (now : Nat) (dtc : UInt32) (statusMask : UInt8) : DtcRecord :=
  ⟨dtc, statusMask, .noSeverity, systemTimeMs now, systemTimeMs now, 1, 0, 0, none, 0⟩

def Full (config : DtcConfig) (a : DtcMap) : Prop := config.maxDtcCount.toNat ≤ size a

/-- What `DTC_SetStatus` is to do to the map: it changes the one record of a code that is
there, inserts a fresh one for a code that is not, and fails on a full map. -/
structure SetStep (config : DtcConfig) (now : Nat) (dtc : UInt32) (statusMask : UInt8)
    (a a' : DtcMap) (o : DtcAnswer) : Prop where
  present : ∀ r, a dtc = some r → o = ⟨true, some (r.statusMask, statusMask)⟩ ∧
    a' = Function.update a dtc (some (r.touched now statusMask))
  full : a dtc = none → Full config a → o = ⟨false, none⟩ ∧ a' = a
  absent : a dtc = none → ¬ Full config a → o = ⟨true, some (0, statusMask)⟩ ∧
    a' = Function.update a dtc (some (.fresh now dtc statusMask))

/-- What a call is to do to the map, and what it is to answer. -/
def MapStep (config : DtcConfig) (now : Nat) (a a' : DtcMap) (o : DtcAnswer) : DtcCall → Prop
  | .setStatus dtc statusMask => SetStep config now dtc statusMask a a' o
  | .addFreezeFrame dtc data =>
    o = ⟨false, none⟩ ∧ a' = a ∨ 0 < data.length ∧
      ∃ r, a dtc = some r ∧ o = ⟨true, none⟩ ∧ a' = Function.update a dtc (some r.counted)
  | .clearSingle dtc => o = ⟨(a dtc).isSome, none⟩ ∧ a' = Function.update a dtc none
  | .clearAll => o = ⟨true, none⟩ ∧ a' = fun _ => none
  | .processAging =>
    o = ⟨true, none⟩ ∧ a' = fun dtc => (a dtc).bind (DtcRecord.survives config)
  | .setSeverity dtc severity =>
    o = ⟨(a dtc).isSome, none⟩ ∧
      a' = Function.update a dtc ((a dtc).map fun r => { r with severity })

namespace DtcStorage

def toMap (s : DtcStorage) : DtcMap := Keyed.toMap DtcRecord.dtcNumber s.stored

abbrev Entry := Taken DtcStorage (Nat × DtcCall) DtcAnswer

def Sets (dtc : UInt32) (e : Entry) : Prop :=
  e.output.ok = true ∧ ∃ statusMask, e.input.2 = .setStatus dtc statusMask

def Clears (dtc : UInt32) (e : Entry) : Prop :=
  e.input.2 = .clearSingle dtc ∨ e.input.2 = .clearAll ∨
    e.input.2 = .processAging ∧ e.post.toMap dtc = none

def Cleared (dtc : UInt32) : List Entry → Prop :=
  Since (fun e => ¬ Sets dtc e) fun e _ => Clears dtc e

/-- The call does to the map what it is to do; the numbers are unique, the map is bounded,
and what was cleared is absent. -/
structure Refined (config : DtcConfig) (e : Entry) (past : List Entry) : Prop where
  mapStep : MapStep config e.input.1 e.pre.toMap e.post.toMap e.output e.input.2
  unique : Unique DtcRecord.dtcNumber e.post.stored
  bounded : size e.post.toMap ≤ config.maxDtcCount.toNat
  cleared : ∀ dtc, Cleared dtc (e :: past) → e.post.toMap dtc = none

/-- A slot that holds nothing a new record would inherit. -/
def Unused (slot : DtcRecord) : Prop :=
  slot.statusMask = 0 ∧ slot.severity = .noSeverity ∧ slot.occurrenceCount = 0 ∧
    slot.agingCounter = 0 ∧ slot.agedCounter = 0 ∧ slot.freezeFrames = none ∧
    slot.freezeFrameCount = 0
  deriving Decidable

/-- A new code takes such a slot, and no frame goes through NULL. -/
def TakesUnused (s : DtcStorage) : DtcCall → Prop
  | .setStatus dtc _ => s.findDtcRecord dtc = none → ∀ slot ∈ s.spare.head?, Unused slot
  | .addFreezeFrame dtc data => s.NotNull dtc data
  | _ => True

instance (s : DtcStorage) (c : DtcCall) : Decidable (s.TakesUnused c) := by
  cases c <;> unfold TakesUnused <;> infer_instance

structure Sound (config : DtcConfig) (s : DtcStorage) : Prop where
  same : s.config = config
  initialized : s.initialized = true
  unique : Unique DtcRecord.dtcNumber s.stored
  capacity : s.capacity = config.maxDtcCount.toNat

variable {config : DtcConfig} {s s' : DtcStorage} {o : DtcAnswer}

theorem Sound.init (h : init config = some s) : Sound config s := by
  unfold DtcStorage.init at h
  split at h
  · cases h
  · cases h
    refine ⟨rfl, rfl, nodup_nil, ?_⟩
    show 0 + (List.replicate _ _).length = _
    rw [length_replicate, Nat.zero_add]

theorem Sound.size_toMap (h : Sound config s) : size s.toMap = s.stored.length :=
  h.unique.size_toMap

theorem Sound.full_iff (h : Sound config s) : Full config s.toMap ↔ s.spare = [] := by
  unfold Full
  rw [h.size_toMap, ← h.capacity, ← length_eq_zero_iff]
  unfold DtcStorage.capacity
  omega

theorem fresh_iff (slot : DtcRecord) (now : Nat) (dtc : UInt32) (statusMask : UInt8) :
    slot.statusMask = 0 ∧ slot.reused now dtc statusMask = .fresh now dtc statusMask ↔
      Unused slot := by
  have hcount : slot.occurrenceCount + 1 = 1 ↔ slot.occurrenceCount = 0 := by
    constructor
    · intro h
      have := congrArg (· - 1) h
      simpa using this
    · intro h
      rw [h]
      rfl
  simp [DtcRecord.reused, DtcRecord.touched, DtcRecord.fresh, Unused]

variable {dtc : UInt32} {r : DtcRecord}

theorem toMap_changed {f : DtcRecord → DtcRecord} (hf : ∀ r, (f r).dtcNumber = r.dtcNumber)
    (hr : s.findDtcRecord dtc = some r) :
    Keyed.toMap DtcRecord.dtcNumber (update DtcRecord.dtcNumber dtc f s.stored)
      = Function.update s.toMap dtc (some (f r)) := by
  have hlookup : Keyed.toMap DtcRecord.dtcNumber s.stored dtc = some r := hr
  rw [toMap_update hf, hlookup]
  rfl

section

variable {slot : DtcRecord} {spare : List DtcRecord} {now : Nat} {c : DtcCall}
variable (h : Sound config s)
include h

theorem Sound.setStatus_new_iff
    (hfind : s.findDtcRecord dtc = none) (hspare : s.spare = slot :: spare) (now : Nat)
    (statusMask : UInt8) :
    SetStep config now dtc statusMask s.toMap (s.setStatus now dtc statusMask).1.toMap
        (s.setStatus now dtc statusMask).2 ↔
      Unused slot := by
  have hnone : s.toMap dtc = none := hfind
  have hnot : ∀ r, s.toMap dtc ≠ some r := fun r hr => some_ne_none r (hr.symm.trans hnone)
  have hroom : ¬ Full config s.toMap := by
    rw [h.full_iff, hspare]
    exact cons_ne_nil _ _
  have hmap : ({ s with
      stored := s.stored ++ [slot.reused now dtc statusMask], spare } : DtcStorage).toMap
      = Function.update s.toMap dtc (some (slot.reused now dtc statusMask)) :=
    toMap_append hfind
  rw [setStatus_new h.initialized hfind hspare, ← fresh_iff slot now dtc statusMask]
  constructor
  · intro hstep
    obtain ⟨hanswer, hinsert⟩ := hstep.absent hnone hroom
    rw [hmap] at hinsert
    have hrecord := congrFun hinsert dtc
    rw [update_self, update_self] at hrecord
    simp only [DtcAnswer.mk.injEq, Option.some.injEq, Prod.mk.injEq, true_and, and_true] at hanswer
    exact ⟨hanswer, Option.some.inj hrecord⟩
  · rintro ⟨hstatus, hrecord⟩
    refine ⟨fun r hr => absurd hr (hnot r), fun _ hfull => absurd hfull hroom, fun _ _ => ⟨?_, ?_⟩⟩
    · rw [hstatus]
    · rw [hmap, hrecord]

theorem Sound.setStatus_iff (now : Nat) (dtc : UInt32) (statusMask : UInt8) :
    SetStep config now dtc statusMask s.toMap (s.setStatus now dtc statusMask).1.toMap
        (s.setStatus now dtc statusMask).2 ↔
      s.TakesUnused (.setStatus dtc statusMask) := by
  cases hfind : s.findDtcRecord dtc with
  | some r =>
    have hr : s.toMap dtc = some r := hfind
    have hno : s.toMap dtc ≠ none := hr ▸ some_ne_none r
    rw [setStatus_present h.initialized hfind]
    refine iff_of_true ⟨?_, fun hnone => absurd hnone hno, fun hnone => absurd hnone hno⟩
      fun hnone => absurd hnone hno
    intro r' hr'
    obtain rfl : r = r' := mem_unique hr hr'
    exact ⟨rfl, toMap_changed (fun _ => rfl) hfind⟩
  | none =>
    have hnone : s.toMap dtc = none := hfind
    cases hspare : s.spare with
    | nil =>
      have hfull := h.full_iff.mpr hspare
      rw [setStatus_full hfind hspare]
      refine iff_of_true ⟨fun r hr => absurd (hr.symm.trans hnone) (some_ne_none r),
        fun _ _ => ⟨rfl, rfl⟩, fun _ hroom => absurd hfull hroom⟩ fun _ slot hslot => ?_
      rw [hspare] at hslot
      cases hslot
    | cons slot spare =>
      rw [h.setStatus_new_iff hfind hspare]
      simp [TakesUnused, hfind, hspare]

theorem Sound.mapStep_iff (hcall : s.call now c = some (s', o)) :
    MapStep config now s.toMap s'.toMap o c ↔ s.TakesUnused c := by
  cases c with
  | setStatus dtc statusMask =>
    obtain ⟨rfl, rfl⟩ := eq_of_some hcall
    exact h.setStatus_iff now dtc statusMask
  | addFreezeFrame dtc data =>
    refine iff_of_true ?_ (not_not.mp fun hnull => ?_)
    · rcases addFreezeFrame_eq_some hcall with ⟨rfl, rfl⟩ | ⟨r, array, hr, rfl,
        haccepts, -, rfl, rfl⟩
      · exact .inl ⟨rfl, rfl⟩
      · exact .inr ⟨haccepts.2.1.1, r, hr, rfl, toMap_changed (fun _ => rfl) hr⟩
    · cases (addFreezeFrame_eq_none.mpr hnull).symm.trans hcall
  | clearSingle dtc =>
    obtain ⟨rfl, rfl⟩ := eq_of_some hcall
    refine iff_of_true ?_ trivial
    show _ ∧ _
    cases hfind : s.findDtcRecord dtc with
    | none =>
      have hnone : s.toMap dtc = none := hfind
      rw [clearSingle_absent hfind, ← hnone, update_eq_self]
      exact ⟨by rw [hnone]; rfl, rfl⟩
    | some r =>
      have hr : s.toMap dtc = some r := hfind
      rw [clearSingle_present h.initialized hfind, hr]
      exact ⟨rfl, h.unique.toMap_remove⟩
  | clearAll =>
    obtain ⟨rfl, rfl⟩ := eq_of_some hcall
    refine iff_of_true ?_ trivial
    rw [clearAll_eq h.initialized]
    exact ⟨rfl, rfl⟩
  | processAging =>
    obtain ⟨rfl, rfl⟩ := eq_of_some hcall
    refine iff_of_true ?_ trivial
    rw [processAging_eq h.initialized, h.same]
    refine ⟨rfl, ?_⟩
    rw [ageRecords_stored]
    exact h.unique.toMap_filterMap fun _ _ => DtcRecord.dtcNumber_survives
  | setSeverity dtc severity =>
    obtain ⟨rfl, rfl⟩ := eq_of_some hcall
    refine iff_of_true ?_ trivial
    show _ ∧ _
    cases hfind : s.findDtcRecord dtc with
    | none =>
      have hnone : s.toMap dtc = none := hfind
      rw [setSeverity_absent hfind, hnone, map_none, ← hnone, update_eq_self]
      exact ⟨by rw [hnone]; rfl, rfl⟩
    | some r =>
      have hr : s.toMap dtc = some r := hfind
      rw [setSeverity_present h.initialized hfind, hr]
      exact ⟨rfl, toMap_changed (fun _ => rfl) hfind⟩

theorem Sound.changed {f : DtcRecord → DtcRecord} (hf : ∀ r, (f r).dtcNumber = r.dtcNumber)
    (dtc : UInt32) (arrays : Nat → Nat → FreezeFrameRecord) (buffer : Mem) :
    Sound config
      { s with stored := update DtcRecord.dtcNumber dtc f s.stored, arrays, buffer } := by
  refine ⟨h.same, h.initialized, h.unique.update hf, ?_⟩
  exact (congrArg (· + s.spare.length) (length_update s.stored)).trans h.capacity

theorem Sound.inserted
    (hspare : s.spare = slot :: spare) (hnew : s.findDtcRecord r.dtcNumber = none) :
    Sound config { s with stored := s.stored ++ [r], spare } := by
  refine ⟨h.same, h.initialized, h.unique.append hnew, ?_⟩
  show (s.stored ++ [r]).length + spare.length = _
  rw [← h.capacity, DtcStorage.capacity, hspare, length_append, length_singleton, length_cons]
  omega

theorem Sound.removed (hfind : s.findDtcRecord dtc = some r) :
    Sound config { s with
      stored := remove DtcRecord.dtcNumber dtc s.stored
      spare := s.stored.getLast?.toList ++ s.spare } := by
  refine ⟨h.same, h.initialized, h.unique.remove, ?_⟩
  have hlength := length_remove hfind
  have hne : s.stored ≠ [] := fun hnil => by rw [hnil] at hlength; cases hlength
  rw [← h.capacity, getLast?_eq_some_getLast hne]
  show (remove _ _ _).length + (s.stored.getLast hne :: s.spare).length = _
  rw [DtcStorage.capacity, length_cons]
  omega

theorem Sound.kept (hcall : s.call now c = some (s', o)) : Sound config s' := by
  cases c with
  | setStatus dtc statusMask =>
    obtain ⟨rfl, -⟩ := eq_of_some hcall
    cases hfind : s.findDtcRecord dtc with
    | some r =>
      rw [setStatus_present h.initialized hfind]
      refine h.changed ?_ dtc s.arrays s.buffer
      exact fun _ => rfl
    | none =>
      cases hspare : s.spare with
      | nil => rwa [setStatus_full hfind hspare]
      | cons slot spare =>
        rw [setStatus_new h.initialized hfind hspare]
        exact h.inserted hspare hfind
  | addFreezeFrame dtc data =>
    rcases addFreezeFrame_eq_some hcall with ⟨rfl, -⟩ | ⟨r, array, -, -, -, -, rfl, -⟩
    · exact h
    · exact h.changed (f := DtcRecord.counted) (fun _ => rfl) r.dtcNumber _ _
  | clearSingle dtc =>
    obtain ⟨rfl, -⟩ := eq_of_some hcall
    cases hfind : s.findDtcRecord dtc with
    | none => rwa [clearSingle_absent hfind]
    | some r =>
      rw [clearSingle_present h.initialized hfind]
      exact h.removed hfind
  | clearAll =>
    obtain ⟨rfl, -⟩ := eq_of_some hcall
    rw [clearAll_eq h.initialized]
    refine ⟨h.same, h.initialized, nodup_nil, ?_⟩
    show 0 + (List.replicate _ _).length = _
    rw [length_replicate, Nat.zero_add]
    exact h.capacity
  | processAging =>
    obtain ⟨rfl, -⟩ := eq_of_some hcall
    rw [processAging_eq h.initialized]
    refine ⟨h.same, h.initialized, ?_, (ageRecords_length s.stored s.spare).trans h.capacity⟩
    rw [ageRecords_stored]
    exact h.unique.filterMap fun _ _ => DtcRecord.dtcNumber_survives
  | setSeverity dtc severity =>
    obtain ⟨rfl, -⟩ := eq_of_some hcall
    cases hfind : s.findDtcRecord dtc with
    | none => rwa [setSeverity_absent hfind]
    | some r =>
      rw [setSeverity_present h.initialized hfind]
      refine h.changed ?_ dtc s.arrays s.buffer
      exact fun _ => rfl

theorem Sound.toMap_setStatus (now : Nat) (dtc : UInt32) (statusMask : UInt8) :
    ∃ v, (s.setStatus now dtc statusMask).1.toMap = Function.update s.toMap dtc v ∧
      ((s.setStatus now dtc statusMask).2.ok = false → v = s.toMap dtc) := by
  cases hfind : s.findDtcRecord dtc with
  | some r =>
    rw [setStatus_present h.initialized hfind]
    refine ⟨some (r.touched now statusMask), ?_, nofun⟩
    exact toMap_changed (fun _ => rfl) hfind
  | none =>
    cases hspare : s.spare with
    | nil =>
      rw [setStatus_full hfind hspare]
      exact ⟨s.toMap dtc, (update_eq_self dtc s.toMap).symm, fun _ => rfl⟩
    | cons slot spare =>
      rw [setStatus_new h.initialized hfind hspare]
      refine ⟨some (slot.reused now dtc statusMask), ?_, nofun⟩
      exact toMap_append (a := slot.reused now dtc statusMask) hfind

theorem Sound.absent (hcall : s.call now c = some (s', o)) (habsent : s.toMap dtc = none)
    (hnot : ¬ Sets dtc ⟨s, (now, c), o, s'⟩) : s'.toMap dtc = none := by
  have hstep := h.mapStep_iff hcall
  cases c with
  | setStatus dtc' statusMask =>
    obtain ⟨rfl, rfl⟩ := eq_of_some hcall
    obtain ⟨v, hmap, hfailed⟩ := h.toMap_setStatus now dtc' statusMask
    refine (congrFun hmap dtc).trans ?_
    by_cases hdtc : dtc = dtc'
    · rw [← hdtc] at hnot hfailed ⊢
      have hno : (s.setStatus now dtc statusMask).2.ok = false :=
        Bool.eq_false_of_not_eq_true fun hok => hnot ⟨hok, statusMask, rfl⟩
      rw [update_self, hfailed hno, habsent]
    · rw [update_of_ne hdtc, habsent]
  | addFreezeFrame dtc' data =>
    rcases addFreezeFrame_eq_some hcall with ⟨rfl, -⟩ | ⟨r, array, hr, rfl, -, -, rfl, -⟩
    · exact habsent
    · have hne : dtc ≠ r.dtcNumber := fun heq => some_ne_none r
        (hr.symm.trans (heq ▸ habsent))
      exact (lookup_update_ne (f := DtcRecord.counted) (fun _ => rfl) hne s.stored).trans habsent
  | clearSingle dtc' =>
    obtain ⟨-, hmap⟩ := hstep.mpr trivial
    rw [hmap]
    by_cases hdtc : dtc = dtc'
    · rw [hdtc, update_self]
    · rw [update_of_ne hdtc]
      exact habsent
  | clearAll =>
    obtain ⟨-, hmap⟩ := hstep.mpr trivial
    rw [hmap]
  | processAging =>
    obtain ⟨-, hmap⟩ := hstep.mpr trivial
    refine (congrFun hmap dtc).trans ?_
    rw [habsent]
    rfl
  | setSeverity dtc' severity =>
    obtain ⟨-, hmap⟩ := hstep.mpr trivial
    rw [hmap]
    by_cases hdtc : dtc = dtc'
    · rw [← hdtc, update_self, habsent]
      rfl
    · rw [update_of_ne hdtc]
      exact habsent

theorem Sound.clears (hcall : s.call now c = some (s', o))
    (hclears : Clears dtc ⟨s, (now, c), o, s'⟩) : s'.toMap dtc = none := by
  rcases hclears with hsingle | hall | ⟨-, hgone⟩
  · obtain rfl : c = .clearSingle dtc := hsingle
    obtain ⟨-, hmap⟩ := (h.mapStep_iff hcall).mpr trivial
    rw [hmap, update_self]
  · obtain rfl : c = .clearAll := hall
    obtain ⟨-, hmap⟩ := (h.mapStep_iff hcall).mpr trivial
    rw [hmap]
  · exact hgone

end

theorem call_defined {c : DtcCall} (h : s.TakesUnused c) (now : Nat) :
    ∃ s' o, s.call now c = some (s', o) := by
  cases c with
  | addFreezeFrame dtc data =>
    cases hadd : s.addFreezeFrame now dtc data with
    | none => exact absurd h (addFreezeFrame_eq_none.mp hadd)
    | some r => exact ⟨_, _, hadd⟩
  | setStatus | clearSingle | clearAll | processAging | setSeverity => exact ⟨_, _, rfl⟩

/-- The store is sound, and what was cleared is absent. -/
structure Kept (config : DtcConfig) (x : List Entry × DtcStorage) : Prop where
  sound : Sound config x.2
  cleared : ∀ dtc, Cleared dtc x.1 → x.2.toMap dtc = none

theorem Kept.step {x : List Entry × DtcStorage} {i : Nat × DtcCall} (h : Kept config x)
    (hcall : step x.2 i = some (s', o)) : Kept config (⟨x.2, i, o, s'⟩ :: x.1, s') := by
  refine ⟨h.sound.kept hcall, ?_⟩
  rintro dtc (hclears | ⟨hnot, hpast⟩)
  · exact h.sound.clears hcall hclears
  · exact h.sound.absent hcall (h.cleared dtc hpast) hnot

/-- **The store, over every run.** It is a finite map of at most `max_dtc_count` entries, in
which a code that was not there gets a fresh record, exactly as long as every such code gets
a slot that nothing was left in, and no freeze frame is written through NULL. -/
theorem store_refines_map_iff (h : init config = some s) (calls : List (Nat × DtcCall)) :
    Throughout (logged step) (fun x => Historically (Refined config) x.1) ([], s) calls ↔
      Along (logged step) (fun x i => x.2.TakesUnused i.2) ([], s) calls := by
  refine historically_iff (Kept config) ?_ (fun _ _ _ _ hkept _ hcall => hkept.step hcall) calls
    ⟨Sound.init h, fun _ hcleared => hcleared.elim⟩ trivial
  intro x i hkept
  constructor
  · intro htakes
    obtain ⟨s', o, hcall⟩ := call_defined htakes i.1
    have hnext := hkept.step hcall
    have hsize := (Nat.le_add_right _ _).trans_eq hnext.sound.capacity
    exact ⟨s', o, hcall, (hkept.sound.mapStep_iff hcall).mpr htakes, hnext.sound.unique,
      hnext.sound.size_toMap.trans_le hsize, hnext.cleared⟩
  · rintro ⟨s', o, hcall, hrefined⟩
    exact (hkept.sound.mapStep_iff hcall).mp hrefined.mapStep

theorem store_refines_map_cleared :
    init tenCodes = some (empty tenCodes) ∧
      Throughout (logged step) (fun x => Historically (Refined tenCodes) x.1)
        ([], empty tenCodes)
        [(0, .setStatus 1 0x09), (1, .setStatus 2 0x09), (2, .setStatus 1 0x08), (3, .clearAll),
          (4, .setStatus 2 0x09)] := by
  have hinit : init tenCodes = some (empty tenCodes) := rfl
  exact ⟨hinit, (store_refines_map_iff hinit _).mpr (by decide)⟩

/-- A code is cleared, and the next one inherits its status and its count. -/
theorem cleared_record_inherited :
    init tenCodes = some (empty tenCodes) ∧
      (∃ s o, run step (empty tenCodes)
          [(0, .setStatus 1 0x09), (1, .clearSingle 1), (2, .setStatus 2 0x01)] = some (s, o) ∧
        o.getLast? = some ⟨true, some (0x09, 0x01)⟩ ∧
        (s.findDtcRecord 2).map (·.occurrenceCount) = some 2) ∧
      ¬ Throughout (logged step) (fun x => Historically (Refined tenCodes) x.1)
        ([], empty tenCodes)
        [(0, .setStatus 1 0x09), (1, .clearSingle 1), (2, .setStatus 2 0x01)] := by
  refine ⟨rfl, ⟨_, _, rfl, by decide, by decide⟩, fun h => ?_⟩
  have hlast := h.last rfl
  have hempty : Sound tenCodes (empty tenCodes) := Sound.init rfl
  have hset := hempty.kept (rfl : DtcStorage.call _ 0 (.setStatus 1 0x09) = some _)
  have hsound := hset.kept (rfl : DtcStorage.call _ 1 (.clearSingle 1) = some _)
  exact absurd ((hsound.mapStep_iff rfl).mp hlast.1.mapStep) (by decide)

end DtcStorage

end Cant.Diagnostic
