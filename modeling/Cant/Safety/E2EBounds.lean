/-
# `E2EBounds` — table lookups and the division of the end-to-end protection

What a call of `E2E_Protect` or `E2E_Check` divides by, and where it reads its CRC table:

    part of the call            operand                 always in range
    next sequence number        max_delta_counter       no: it may be zero
    CRC of profile 1            crc ^ data[i]           no: the first one is 0xFFFFFF00 or more
    CRC of profiles 2 and 4     (...) & 0xFF            yes

`lookups` and `divisors` list them (`returns_iff_safe`); `safe_iff_guarded` says in which runs they
are, and which configurations make sure of it.
-/
import Cant.Safety.E2E

namespace Cant.Safety

open Word Run List Option

/-! ## Where a CRC reads its table -/

section

variable (wild : Nat → Option Nat)

def crc8Lookups : Nat → List UInt8 → List Nat
  | _, [] => []
  | crc, b :: bs =>
    let i := crc ^^^ b.toNat
    i :: if i < 256 then crc8Lookups (crc8Table i) bs
      else match wild i with
        | some v => crc8Lookups v bs
        | none => []

def crcLookups (profile : E2EProfile) (data : List UInt8) : List Nat :=
  match profile with
  | .profile1 => crc8Lookups wild 0xFFFFFFFF data
  | .profile2 => Crc.indices 2 crc16Table 0xFFFFFFFF data
  | .profile4 => Crc.indices 4 crc32Table 0xFFFFFFFF data
  | .profile5 => []
  | .profile6 => []

def messageLookups (config : E2EConfig) (d : E2EProtectedData) : List Nat :=
  crcLookups wild config.profile (buildHeader config d) ++
    match calculateCrc wild config.profile (buildHeader config d), d.payload with
    | some _, some payload => crcLookups wild config.profile payload
    | _, _ => []

end

/-! ## What a call does -/

inductive E2ECall where
  | protect (data : E2EProtectedData)
  | check (data : E2EProtectedData)

def E2ECall.data : E2ECall → E2EProtectedData
  | .protect d => d
  | .check d => d

/-- A call at clock `now`, with the message `E2E_Protect` hands back. -/
def E2EState.step (wild : Nat → Option Nat) (config : E2EConfig) (now : Nat) (s : E2EState) :
    E2ECall → Option (E2EState × (Option E2EProtectedData × E2EStatus))
  | .protect d => (protect wild config s d now).map fun r => (r.1, some r.2.1, r.2.2)
  | .check d => (check wild config s d now).map fun r => (r.1, none, r.2)

namespace E2EState

variable (wild : Nat → Option Nat) (config : E2EConfig) (now : Nat) (s : E2EState)

/-- The call comes to the next sequence number. -/
def Numbers : E2ECall → Prop
  | .protect d => usable config s d = true
  | .check d => usable config s d = true ∧ u32 ((now : Int) - s.lastTimestamp) ≤ config.timeoutMs ∧
      d.dataId = config.dataId

instance : DecidablePred (Numbers config now s)
  | .protect _ => inferInstanceAs (Decidable (_ = _))
  | .check _ => inferInstanceAs (Decidable (_ ∧ _ ∧ _))

/-- The message whose CRC the call computes, with its number `seq`. -/
def numbered (seq : Nat) : E2ECall → Option E2EProtectedData
  | .protect d => some { d with sequence := seq, dataId := config.dataId }
  | .check d => if d.sequence = seq then some d else none

def divisors (call : E2ECall) : List Nat :=
  if Numbers config now s call then [config.maxDeltaCounter] else []

def lookups (call : E2ECall) : List Nat :=
  if Numbers config now s call then
    match (nextSequence config s.sequenceCounter).bind (numbered config · call) with
    | some d => messageLookups wild config d
    | none => []
  else []

def Safe (call : E2ECall) : Prop :=
  0 ∉ divisors config now s call ∧ ∀ i ∈ lookups wild config now s call, i < 256

/-- A call that comes to the sequence number has something to divide by, and one that comes to
the CRC has another profile than 1. -/
def Guarded (call : E2ECall) : Prop :=
  Numbers config now s call → config.maxDeltaCounter ≠ 0 ∧
    ∀ seq ∈ nextSequence config s.sequenceCounter, (numbered config seq call).isSome →
      config.profile ≠ .profile1
  deriving Decidable

end E2EState

/-! ## One CRC -/

section

variable {wild : Nat → Option Nat} {config : E2EConfig} {d : E2EProtectedData}

theorem le_first_lookup (b : UInt8) : 256 ≤ 0xFFFFFFFF ^^^ b.toNat := by
  refine Nat.ge_two_pow_of_testBit (i := 8) ?_
  have hbyte : b.toNat.testBit 8 = false := Nat.testBit_lt_two_pow (UInt8.toNat_lt b)
  rw [Nat.testBit_xor, hbyte]
  rfl

theorem crcLookups_lt_iff {profile : E2EProfile} {data : List UInt8} (hdata : data ≠ []) :
    (∀ i ∈ crcLookups wild profile data, i < 256) ↔ profile ≠ .profile1 := by
  cases profile with
  | profile1 =>
    refine iff_of_false (fun h => ?_) fun h => h rfl
    obtain ⟨b, bs, rfl⟩ := exists_cons_of_ne_nil hdata
    exact Nat.not_lt.mpr (le_first_lookup b) (h _ mem_cons_self)
  | profile2 | profile4 => exact iff_of_true Crc.indices_lt E2EProfile.noConfusion
  | profile5 | profile6 =>
    exact iff_of_true (nofun) E2EProfile.noConfusion

theorem buildHeader_ne_nil : buildHeader config d ≠ [] :=
  append_ne_nil_of_left_ne_nil (cons_ne_nil _ _) _

theorem messageLookups_lt_iff :
    (∀ i ∈ messageLookups wild config d, i < 256) ↔ config.profile ≠ .profile1 := by
  constructor
  · intro h
    exact (crcLookups_lt_iff buildHeader_ne_nil).mp fun i hi => h i (mem_append_left _ hi)
  · intro hprofile i hi
    rcases mem_append.mp hi with hi | hi
    · exact (crcLookups_lt_iff buildHeader_ne_nil).mpr hprofile i hi
    · split at hi
      case h_1 payload _ _ =>
        have hne : payload ≠ [] := by
          rintro rfl
          revert hi
          cases config.profile <;> exact not_mem_nil
        exact (crcLookups_lt_iff hne).mpr hprofile i hi
      case h_2 => cases hi

theorem messageCrc_isSome_iff (hread : d.Readable) (hdata : d.data.isSome) :
    (messageCrc (fun _ => none) config d).isSome ↔ config.profile ≠ .profile1 := by
  constructor
  · intro h hprofile
    obtain ⟨b, bs, hheader⟩ := exists_cons_of_ne_nil (buildHeader_ne_nil (d := d))
    have hnone : calculateCrc (fun _ => none) config.profile (buildHeader config d) = none := by
      rw [hprofile, hheader]
      exact if_neg (Nat.not_lt.mpr (le_first_lookup b))
    simp [messageCrc, hnone] at h
  · intro hprofile
    exact isSome_iff_exists.mpr (messageCrc_isSome (.inl hprofile) hread hdata)

end

namespace E2EState

variable {wild : Nat → Option Nat} {config : E2EConfig} {now : Nat} {s : E2EState} {call : E2ECall}

theorem safe_iff : Safe wild config now s call ↔ Guarded config now s call := by
  unfold Safe Guarded divisors lookups
  by_cases hnumbers : Numbers config now s call
  · rw [if_pos hnumbers, if_pos hnumbers, mem_singleton, forall_prop_of_true hnumbers]
    refine and_congr ne_comm ?_
    cases hseq : nextSequence config s.sequenceCounter with
    | none => simp
    | some seq =>
      simp only [bind_some, mem_some_iff, forall_eq']
      cases numbered config seq call with
      | none => simp
      | some d =>
        simp only [isSome_some, forall_const]
        exact messageLookups_lt_iff
  · rw [if_neg hnumbers, if_neg hnumbers]
    exact iff_of_true ⟨not_mem_nil, nofun⟩
      fun h => absurd h hnumbers

theorem nextSequence_isSome_iff (c : Nat) :
    (nextSequence config c).isSome ↔ config.maxDeltaCounter ≠ 0 := by
  rw [nextSequence]
  split
  case isTrue hzero => exact iff_of_false Bool.false_ne_true fun h => h hzero
  case isFalse hpos => exact iff_of_true rfl hpos

theorem step_isSome_iff (hread : call.data.Readable) :
    (s.step (fun _ => none) config now call).isSome ↔ Safe (fun _ => none) config now s call := by
  rw [safe_iff, Guarded, ← nextSequence_isSome_iff s.sequenceCounter]
  cases call with
  | protect d =>
    by_cases husable : usable config s d = true
    · have hcrc (seq : Nat) : (messageCrc (fun _ => none) config
          { d with sequence := seq, dataId := config.dataId }).isSome ↔ _ :=
        messageCrc_isSome_iff hread (usable_data husable)
      cases hseq : nextSequence config s.sequenceCounter <;>
        simp [step, protect, Numbers, numbered, husable, hseq, isSome_bind, hcrc]
    · simp [step, protect, Numbers, husable]
  | check d =>
    rw [step, check, Numbers]
    by_cases husable : usable config s d = true
    · by_cases htime : u32 ((now : Int) - s.lastTimestamp) ≤ config.timeoutMs
      · by_cases hid : d.dataId = config.dataId
        · have hcrc : (messageCrc (fun _ => none) config d).isSome ↔ _ :=
            messageCrc_isSome_iff hread (usable_data husable)
          rw [if_neg (not_not.mpr husable), if_neg (Nat.not_lt.mpr htime),
            if_neg (not_not.mpr hid), forall_prop_of_true ⟨husable, htime, hid⟩, ← hcrc]
          cases nextSequence config s.sequenceCounter with
          | none => simp
          | some seq =>
            by_cases hsame : d.sequence = seq
            · cases messageCrc (fun _ => none) config d with
              | none => simp [hsame, numbered]
              | some crc => by_cases hequal : crc = d.crc <;> simp [hsame, hequal]
            · simp [numbered, hsame]
        · simp [husable, hid, Nat.not_lt.mpr htime]
      · simp [husable, htime, Nat.not_le.mp htime]
    · simp [husable]

/-! ## Every run, and every configuration -/

def longest (config : E2EConfig) : E2EProtectedData :=
  ⟨some (List.replicate config.maxLength 0), config.maxLength, 0, 0, 0⟩

theorem usable_longest {s₀ : E2EState} (hinit : s₀.init config = (s, true)) :
    usable config s (longest config) = true := by
  obtain ⟨hvalid, rfl⟩ := init_eq hinit
  have hle : config.minLength ≤ config.maxLength := by
    simp only [validateConfig, Bool.and_eq_true, decide_eq_true_eq] at hvalid
    exact hvalid.1.1
  simp [usable, hvalid, validateData, longest, hle]

/-- **On a platform that traps** a run of calls returns just when all they list is in range. -/
theorem returns_iff_safe {started : Nat} {calls : List (Nat × E2ECall)}
    (hread : ∀ i ∈ calls, i.2.data.Readable) :
    (∃ t os, run (timed (step (fun _ => none) config)) (started, s) calls = some (t, os)) ↔
      Along (timed (step (fun _ => none) config))
        (fun x i => Safe (fun _ => none) config (x.1 + i.1) x.2 i.2) (started, s) calls := by
  constructor
  · rintro ⟨t, os, hrun⟩
    refine along_mono ?_ (along_and (along_of_forall hread) (along_isSome_of_run hrun))
    rintro x i ⟨hi, hsome⟩
    rw [timed, isSome_map] at hsome
    exact (step_isSome_iff hi).mp hsome
  · intro hsafe
    refine (run_along (fun _ _ => True) ?_ calls [] trivial
      (along_and (along_of_forall hread) hsafe)).imp fun t => .imp fun os h => h.1
    rintro past x i - ⟨hi, hok⟩
    obtain ⟨r, hr⟩ := isSome_iff_exists.mp ((step_isSome_iff hi).mpr hok)
    exact ⟨_, _, timed_eq hr, trivial⟩

/-- Two messages are protected, and two are checked. -/
theorem returns_for_profile2 : ∃ t os, run (timed (step (fun _ => none) sampleConfig))
    (0, ⟨0, 0, .init, true⟩)
    [(0, .protect ⟨some [1, 2], 2, 0, 0, 0⟩), (5, .check ⟨some [1, 2], 2, 1, 7, 0⟩),
      (5, .protect ⟨some [3], 1, 0, 0, 0⟩), (90, .check ⟨some [3], 1, 2, 9, 0⟩)] =
        some (t, os) := by
  refine (returns_iff_safe (by simp [E2ECall.data, E2EProtectedData.Readable])).mpr ?_
  refine (along_cons_of rfl).mpr ⟨by unfold Safe; decide, ?_⟩
  refine (along_cons_of rfl).mpr ⟨by unfold Safe; decide, ?_⟩
  refine (along_cons_of rfl).mpr ⟨by unfold Safe; decide, ?_⟩
  exact (along_cons_of rfl).mpr ⟨by unfold Safe; decide, trivial⟩

/-- **Table lookups and the division, over every run.** All are in range exactly in the runs where
a call that comes to the sequence number finds `max_delta_counter` other than zero, and one that
comes to the CRC another profile than 1. -/
theorem safe_iff_guarded (wild : Nat → Option Nat) {config : E2EConfig} {s₀ s : E2EState}
    (hinit : s₀.init config = (s, true)) (started : Nat) :
    (∀ calls : List (Nat × E2ECall),
      Along (timed (step wild config)) (fun x i => Safe wild config (x.1 + i.1) x.2 i.2)
          (started, s) calls ↔
        Along (timed (step wild config)) (fun x i => Guarded config (x.1 + i.1) x.2 i.2)
          (started, s) calls) ∧
    ((∀ calls : List (Nat × E2ECall),
      Along (timed (step wild config)) (fun x i => Safe wild config (x.1 + i.1) x.2 i.2)
        (started, s) calls) ↔ config.maxDeltaCounter ≠ 0 ∧ config.profile ≠ .profile1) := by
  refine ⟨fun calls => ⟨along_mono fun x i => safe_iff.mp, along_mono fun x i => safe_iff.mpr⟩, ?_⟩
  constructor
  · intro h
    -- the longest message there may be, protected at once
    have hguarded := safe_iff.mp (h [(0, .protect (longest config))]).1
    obtain ⟨hpos, hcrc⟩ := hguarded (usable_longest hinit)
    obtain ⟨seq, hseq⟩ := isSome_iff_exists.mp ((nextSequence_isSome_iff _).mpr hpos)
    exact ⟨hpos, hcrc seq hseq rfl⟩
  · rintro ⟨hpos, hprofile⟩ calls
    refine along_mono (fun x i _ => safe_iff.mpr fun _ => ⟨hpos, fun _ _ _ => hprofile⟩)
      (along_of_forall (P := fun _ => True) fun _ _ => trivial)

theorem safe_for_profile2 :
    E2EState.init ⟨7, 7, .error, true⟩ sampleConfig = (⟨0, 0, .init, true⟩, true) ∧
      ∀ calls : List (Nat × E2ECall), Along (timed (step (fun _ => none) sampleConfig))
        (fun x i => Safe (fun _ => none) sampleConfig (x.1 + i.1) x.2 i.2) (0, ⟨0, 0, .init, true⟩)
        calls := by
  have hinit : E2EState.init ⟨7, 7, .error, true⟩ sampleConfig = (⟨0, 0, .init, true⟩, true) := rfl
  exact ⟨hinit, (safe_iff_guarded _ hinit 0).2.mpr ⟨by decide, by decide⟩⟩

def profile1Config : E2EConfig := { sampleConfig with profile := .profile1 }

def zeroDeltaConfig : E2EConfig :=
  { sampleConfig with maxDeltaCounter := 0, maxDelta_lt := by decide }

/-- `E2E_Init` takes both. The first message then reads `CRC8_TABLE` at `0xFFFFFFED`, or divides
by zero. -/
theorem faulty_configurations_accepted :
    (E2EState.init ⟨7, 7, .error, true⟩ profile1Config = (⟨0, 0, .init, true⟩, true) ∧
      4294967277 ∈ lookups (fun _ => none) profile1Config 0 ⟨0, 0, .init, true⟩
        (.protect ⟨some [1, 2], 2, 0, 0, 0⟩) ∧
      ¬ Along (timed (step (fun _ => none) profile1Config))
        (fun x i => Safe (fun _ => none) profile1Config (x.1 + i.1) x.2 i.2)
          (0, ⟨0, 0, .init, true⟩)
        [(0, .protect ⟨some [1, 2], 2, 0, 0, 0⟩)]) ∧
    (E2EState.init ⟨7, 7, .error, true⟩ zeroDeltaConfig = (⟨0, 0, .init, true⟩, true) ∧
      ¬ Along (timed (step (fun _ => none) zeroDeltaConfig))
        (fun x i => Safe (fun _ => none) zeroDeltaConfig (x.1 + i.1) x.2 i.2)
          (0, ⟨0, 0, .init, true⟩)
        [(0, .protect ⟨some [1, 2], 2, 0, 0, 0⟩)]) := by
  have hread : 4294967277 ∈ lookups (fun _ => none) profile1Config 0 ⟨0, 0, .init, true⟩
      (.protect ⟨some [1, 2], 2, 0, 0, 0⟩) := by decide
  refine ⟨⟨rfl, hread, fun h => ?_⟩, rfl, fun h => ?_⟩
  · exact absurd (h.1.2 _ hread) (by decide)
  · exact h.1.1 (by decide)

end E2EState

end Cant.Safety
