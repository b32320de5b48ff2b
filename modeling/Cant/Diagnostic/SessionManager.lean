/-
# `SessionManager` — sessions and the service access matrix (`session_manager.c`)

The sessions are numbered from 1 to 4. `transition_matrix` has four rows and is
indexed by the number, so there is no row for the safety session; every row lets any
target below 16 through; and the bitmaps of `service_access_matrix` are read at bit
`active_session`, so `0x0002` is the default session and not the programming one.
`sessions_sound_iff` is what follows for whole runs.

A shift by 32 or more, and a row that does not exist, make a call answer `none`. The callbacks are
in the configuration as whether they are set, and a call lists those it makes.
-/
import Cant.Lib.Run
import Cant.Utils.Timer
import Cant.Diagnostic.Uds

namespace Cant.Diagnostic

open Run List

structure ServiceAccessEntry where
  serviceId : UdsServiceId
  allowedSessions : Nat
  requiredSecurity : UInt8

def serviceAccessMatrix : List ServiceAccessEntry :=
  [⟨.diagnosticSessionControl, 0xFFFF, 0x00⟩,
   ⟨.ecuReset, 0xFFFE, 0x01⟩,
   ⟨.securityAccess, 0xFFFE, 0x00⟩,
   ⟨.communicationControl, 0x000C, 0x01⟩,
   ⟨.testerPresent, 0xFFFF, 0x00⟩,
   ⟨.accessTimingParameter, 0x000C, 0x01⟩,
   ⟨.securedDataTransmission, 0x000C, 0x01⟩,
   ⟨.controlDtcSetting, 0x000C, 0x01⟩,
   ⟨.responseOnEvent, 0x000C, 0x01⟩,
   ⟨.linkControl, 0x000C, 0x01⟩,
   ⟨.readDataByIdentifier, 0xFFFF, 0x00⟩,
   ⟨.readMemoryByAddress, 0x000C, 0x01⟩,
   ⟨.readScalingDataByIdentifier, 0xFFFF, 0x00⟩,
   ⟨.readDataByPeriodicIdentifier, 0xFFFF, 0x00⟩,
   ⟨.writeDataByIdentifier, 0x000C, 0x01⟩,
   ⟨.writeMemoryByAddress, 0x000C, 0x01⟩,
   ⟨.clearDiagnosticInformation, 0x000C, 0x01⟩,
   ⟨.readDtcInformation, 0xFFFF, 0x00⟩,
   ⟨.inputOutputControlByIdentifier, 0x000C, 0x01⟩,
   ⟨.routineControl, 0x000C, 0x01⟩,
   ⟨.requestDownload, 0x0002, 0x02⟩,
   ⟨.requestUpload, 0x0002, 0x02⟩,
   ⟨.transferData, 0x0002, 0x02⟩,
   ⟨.requestTransferExit, 0x0002, 0x02⟩]

def transitionMatrix : List Nat := [0xFFFF, 0xFFFF, 0xFFFF, 0xFFFF]

/-- `(bitmap & (1 << bit)) != 0`, for a 32-bit shift. -/
def bitSet (bitmap bit : Nat) : Option Bool :=
  if bit < 32 then some (decide (bitmap &&& (1 <<< bit) ≠ 0)) else none

def validateSessionTransition (current target : Nat) : Option Bool := do
  let row ← transitionMatrix[current]?
  bitSet row target

def findServiceAccess (serviceId : UdsServiceId) : Option ServiceAccessEntry :=
  serviceAccessMatrix.find? (·.serviceId = serviceId)

structure SessionManagerConfig where
  s3TimeoutMs : Nat
  enableSessionLock : Bool
  sessionChangeCallback : Bool
  securityChangeCallback : Bool
  timeoutCallback : Bool

structure SessionState where
  activeSession : Nat
  sessionStartTime : Nat
  lastActivityTime : Nat
  securityLevel : UInt8
  suppressResponse : Bool
  sessionLocked : Bool

structure SessionManager where
  config : SessionManagerConfig
  state : SessionState
  p2Timer : Timer
  s3Timer : Timer
  initialized : Bool

inductive SessionCall where
  | sessionChange (old new : Nat)
  | securityChange (old new : UInt8)
  | timeout

/-- What a call answers, and the callbacks it calls. -/
structure SessionOut where
  answer : Bool
  calls : List SessionCall

namespace SessionManager

def init (s : SessionManager) (now : Nat) (config : SessionManagerConfig) : SessionManager :=
  { s with
    config := config
    state := ⟨1, now, now, 0, false, false⟩
    s3Timer := if config.s3TimeoutMs > 0 then .start now config.s3TimeoutMs else s.s3Timer
    initialized := true }

def changeSession (s : SessionManager) (now newSession : Nat) :
    Option (SessionManager × SessionOut) :=
  if ¬ s.initialized ∨ s.state.sessionLocked then some (s, ⟨false, []⟩)
  else do
    let allowed ← validateSessionTransition s.state.activeSession newSession
    if ¬ allowed then some (s, ⟨false, []⟩)
    else
      let calls :=
        (if s.config.sessionChangeCallback then
          [SessionCall.sessionChange s.state.activeSession newSession] else []) ++
        (if s.config.securityChangeCallback then
          [SessionCall.securityChange s.state.securityLevel 0] else [])
      some ({ s with
        state := { s.state with
          activeSession := newSession, sessionStartTime := now, lastActivityTime := now,
          securityLevel := 0 }
        s3Timer := if s.config.s3TimeoutMs > 0 then .start now s.config.s3TimeoutMs
          else s.s3Timer }, ⟨true, calls⟩)

def updateSecurity (s : SessionManager) (securityLevel : UInt8) : SessionManager × SessionOut :=
  if ¬ s.initialized ∨ s.state.sessionLocked then (s, ⟨false, []⟩)
  else
    ({ s with state := { s.state with securityLevel := securityLevel } },
      ⟨true, if s.config.securityChangeCallback then
        [.securityChange s.state.securityLevel securityLevel] else []⟩)

/-- The S3 timeout of `Session_Manager_ProcessTimeout`. -/
def processS3 (s : SessionManager) (now : Nat) : SessionManager × List SessionCall :=
  if s.config.s3TimeoutMs > 0 ∧ s.s3Timer.expired now ∧ s.state.activeSession ≠ 1 then
    ({ s with state := { s.state with activeSession := 1, securityLevel := 0 } },
      (if s.config.sessionChangeCallback then
        [.sessionChange s.state.activeSession 1] else []) ++
      (if s.config.timeoutCallback then [.timeout] else []))
  else (s, [])

def processTimeout (s : SessionManager) (now : Nat) : SessionManager × SessionOut :=
  if ¬ s.initialized then (s, ⟨true, []⟩)
  else
    let (s, calls) := s.processS3 now
    (s, ⟨true, calls ++
      if s.p2Timer.expired now ∧ s.config.timeoutCallback then [.timeout] else []⟩)

/-- `Session_Manager_LockSession` and `Session_Manager_UnlockSession`. -/
def setLocked (s : SessionManager) (locked : Bool) : SessionManager × SessionOut :=
  if ¬ s.initialized ∨ ¬ s.config.enableSessionLock then (s, ⟨false, []⟩)
  else ({ s with state := { s.state with sessionLocked := locked } }, ⟨true, []⟩)

def lockSession (s : SessionManager) : SessionManager × SessionOut := s.setLocked true

def unlockSession (s : SessionManager) : SessionManager × SessionOut := s.setLocked false

def isServiceAllowed (s : SessionManager) (serviceId : UdsServiceId) : Option Bool :=
  if ¬ s.initialized then some false
  else
    match findServiceAccess serviceId with
    | none => some false
    | some access => do
      let sessionAllowed ← bitSet access.allowedSessions s.state.activeSession
      some (sessionAllowed && decide (s.state.securityLevel ≥ access.requiredSecurity))

end SessionManager

inductive SessionOp where
  | init (now : Nat) (config : SessionManagerConfig)
  | changeSession (now newSession : Nat)
  | updateSecurity (securityLevel : UInt8)
  | processTimeout (now : Nat)
  | lockSession
  | unlockSession

namespace SessionManager

def step (s : SessionManager) : SessionOp → Option (SessionManager × SessionOut)
  | .init now config => some (s.init now config, ⟨true, []⟩)
  | .changeSession now newSession => s.changeSession now newSession
  | .updateSecurity securityLevel => some (s.updateSecurity securityLevel)
  | .processTimeout now => some (s.processTimeout now)
  | .lockSession => some s.lockSession
  | .unlockSession => some s.unlockSession

/-! ## What a session manager is for -/

def transferServices : List UdsServiceId :=
  [.requestDownload, .requestUpload, .transferData, .requestTransferExit]

/-- The active session is one of the four and has a row in `transition_matrix`; software is
loaded in the programming session only, at security level 2 or above. -/
structure Sound (s : SessionManager) : Prop where
  defined : ∃ session : UdsSessionType, session.code = s.state.activeSession
  indexed : s.state.activeSession < transitionMatrix.length
  transfer : ∀ serviceId ∈ transferServices, s.isServiceAllowed serviceId = some true →
    s.state.activeSession = UdsSessionType.programming.code ∧ s.state.securityLevel ≥ 2

/-- What a caller has to see to: no session but the default, programming and extended
one, and no security level above 1 in the default session. A locked session manager
refuses the call, and so it does a session number from 16 on; from 32 on the shift is not
defined. -/
def Regular (s : SessionManager) : SessionOp → Prop
  | .changeSession _ newSession =>
    s.state.sessionLocked = true ∨ newSession ∈ [1, 2, 3] ∨ 16 ≤ newSession ∧ newSession < 32
  | .updateSecurity securityLevel =>
    s.state.sessionLocked = true ∨ s.state.activeSession ≠ 1 ∨ securityLevel < 2
  | _ => True

variable {s t : SessionManager}

theorem findServiceAccess_transfer : ∀ serviceId ∈ transferServices,
    ∃ access, findServiceAccess serviceId = some access ∧
      access.allowedSessions = 2 ∧ access.requiredSecurity = 2 := by
  decide

section

variable (hinit : s.initialized = true)
include hinit

theorem isServiceAllowed_transfer (serviceId : UdsServiceId)
    (hmem : serviceId ∈ transferServices) (hlt : s.state.activeSession < 4) :
    s.isServiceAllowed serviceId = some true ↔
      s.state.activeSession = 1 ∧ s.state.securityLevel ≥ 2 := by
  obtain ⟨access, hfind, hbits, hlevel⟩ := findServiceAccess_transfer serviceId hmem
  have hbit : ∀ n < 4, bitSet 2 n = some (decide (n = 1)) := by decide
  simp [isServiceAllowed, hinit, hfind, hbits, hlevel, hbit _ hlt]

theorem sound_iff : s.Sound ↔
    s.state.activeSession ∈ [1, 2, 3] ∧
      (s.state.activeSession = 1 → s.state.securityLevel < 2) := by
  constructor
  · rintro ⟨⟨session, hsession⟩, hindexed, htransfer⟩
    have hlt : s.state.activeSession < 4 := hindexed
    refine ⟨?_, ?_⟩
    · cases session with
      | default | programming | extendedDiagnostic => rw [← hsession]; decide
      | safetySystem =>
        rw [← hsession] at hlt
        exact absurd hlt (by decide)
    · intro hdefault
      apply Nat.lt_of_not_le
      intro hlevel
      have hallowed := (isServiceAllowed_transfer hinit .requestDownload
        (by decide) hlt).mpr ⟨hdefault, hlevel⟩
      have hprogramming := (htransfer _ (by decide) hallowed).1
      rw [hdefault] at hprogramming
      cases hprogramming
  · rintro ⟨hmem, hlevel⟩
    have hlt : s.state.activeSession < 4 := by
      simp only [mem_cons, not_mem_nil, or_false] at hmem
      omega
    refine ⟨?_, hlt, ?_⟩
    · simp only [mem_cons, not_mem_nil, or_false] at hmem
      rcases hmem with h | h | h
      · exact ⟨.default, h.symm⟩
      · exact ⟨.programming, h.symm⟩
      · exact ⟨.extendedDiagnostic, h.symm⟩
    · intro serviceId hservice hallowed
      obtain ⟨hdefault, htwo⟩ :=
        (isServiceAllowed_transfer hinit serviceId hservice hlt).mp hallowed
      exact absurd (hlevel hdefault) (Nat.not_lt.mpr htwo)

theorem sound_of_zero (hmem : s.state.activeSession ∈ [1, 2, 3])
    (hlevel : s.state.securityLevel = 0) : s.Sound := by
  refine (sound_iff hinit).mpr ⟨hmem, ?_⟩
  intro _
  rw [hlevel]
  decide

end

theorem init_sound (s : SessionManager) (now : Nat) (config : SessionManagerConfig) :
    (s.init now config).Sound :=
  sound_of_zero rfl mem_cons_self rfl

theorem validateSessionTransition_eq : ∀ current < 4, ∀ target < 32,
    validateSessionTransition current target = some (decide (target < 16)) := by
  decide

variable {newSession : Nat}

theorem changeSession_eq (hinit : s.initialized = true) (hlocked : s.state.sessionLocked = false)
    (hlt : s.state.activeSession < 4) (now : Nat) (hnew : newSession < 16) :
    ∃ t out, s.changeSession now newSession = some (t, out) ∧ t.initialized = true ∧
      t.state.activeSession = newSession ∧ t.state.securityLevel = 0 := by
  have hrow := validateSessionTransition_eq _ hlt newSession (by omega)
  simp only [changeSession, hinit, hlocked, hrow, hnew, not_true_eq_false, Bool.false_eq_true,
    or_self, if_false, Option.bind_eq_bind, Option.bind_some, decide_true]
  exact ⟨_, _, rfl, rfl, rfl, rfl⟩

section

variable (hinit : s.initialized = true)
include hinit

theorem changeSession_shift (hopen : s.state.sessionLocked = false)
    (now : Nat) (hbit : 32 ≤ newSession) : s.changeSession now newSession = none := by
  have hrow : validateSessionTransition s.state.activeSession newSession = none := by
    have hshift : ∀ row, bitSet row newSession = none := fun row => if_neg (Nat.not_lt.mpr hbit)
    unfold validateSessionTransition
    cases transitionMatrix[s.state.activeSession]? with
    | none => rfl
    | some row => exact hshift row
  simp [changeSession, hinit, hopen, hrow]

/-- **A change of session** keeps a manager sound exactly if the caller sees to it. -/
theorem changeSession_sound (hs : s.Sound) (now newSession : Nat) :
    s.Regular (.changeSession now newSession) ↔
      ∃ t out, s.changeSession now newSession = some (t, out) ∧ t.Sound := by
  have hlt : s.state.activeSession < 4 := hs.indexed
  cases hlocked : s.state.sessionLocked with
  | true =>
    exact iff_of_true (Or.inl hlocked) ⟨s, ⟨false, []⟩, by simp [changeSession, hlocked], hs⟩
  | false =>
    simp only [Regular, hlocked, Bool.false_eq_true, false_or]
    rcases Nat.lt_or_ge newSession 16 with hnew | hlarge
    · obtain ⟨t, out, hstep, hinit', hsession, hlevel⟩ :=
        changeSession_eq hinit hlocked hlt now hnew
      constructor
      · rintro (hmem | ⟨hge, -⟩)
        · exact ⟨t, out, hstep, sound_of_zero hinit' (hsession ▸ hmem) hlevel⟩
        · exact absurd hnew (Nat.not_lt.mpr hge)
      · rintro ⟨t', out', hstep', hs'⟩
        cases hstep.symm.trans hstep'
        exact Or.inl (hsession ▸ ((sound_iff hinit').mp hs').1)
    · rcases Nat.lt_or_ge newSession 32 with hbit | hshift
      · have hrow := validateSessionTransition_eq _ hlt newSession hbit
        have hno : ¬ newSession < 16 := Nat.not_lt.mpr hlarge
        exact iff_of_true (Or.inr ⟨hlarge, hbit⟩)
          ⟨s, ⟨false, []⟩, by simp [changeSession, hrow, hno], hs⟩
      · rw [changeSession_shift hinit hlocked now hshift]
        refine iff_of_false ?_ ?_
        · rintro (hmem | ⟨-, hbit⟩)
          · simp only [mem_cons, not_mem_nil, or_false] at hmem
            omega
          · exact absurd hbit (Nat.not_lt.mpr hshift)
        · rintro ⟨t, out, hnone, -⟩
          cases hnone

theorem updateSecurity_sound (hs : s.Sound) (level : UInt8) :
    s.Regular (.updateSecurity level) ↔ (s.updateSecurity level).1.Sound := by
  obtain ⟨hmem, hdefault⟩ := (sound_iff hinit).mp hs
  cases hlocked : s.state.sessionLocked with
  | true =>
    have hsame : (s.updateSecurity level).1 = s := by
      simp [updateSecurity, hlocked]
    exact iff_of_true (Or.inl hlocked) (by rwa [hsame])
  | false =>
    obtain ⟨t, hset, hinit', hsession, hlevel⟩ : ∃ t, (s.updateSecurity level).1 = t ∧
        t.initialized = true ∧ t.state.activeSession = s.state.activeSession ∧
        t.state.securityLevel = level := by
      simp only [updateSecurity, hinit, hlocked, not_true_eq_false, Bool.false_eq_true, or_self,
        if_false]
      exact ⟨_, rfl, rfl, rfl, rfl⟩
    rw [hset, sound_iff hinit', hsession, hlevel]
    simp only [Regular, hlocked, Bool.false_eq_true, false_or]
    constructor
    · rintro (hother | hlow)
      · exact ⟨hmem, fun h => absurd h hother⟩
      · exact ⟨hmem, fun _ => hlow⟩
    · rintro ⟨-, hlow⟩
      by_cases h : s.state.activeSession = 1
      · exact Or.inr (hlow h)
      · exact Or.inl h

theorem processTimeout_fst (now : Nat) :
    (s.processTimeout now).1 = (s.processS3 now).1 := by
  simp [processTimeout, hinit]

theorem processTimeout_sound (hs : s.Sound) (now : Nat) :
    (s.processTimeout now).1.Sound := by
  rw [processTimeout_fst hinit, processS3]
  split
  case isTrue =>
    apply sound_of_zero
    · exact hinit
    · exact .head _
    · rfl
  case isFalse => exact hs

theorem setLocked_sound (hs : s.Sound) (locked : Bool) :
    (s.setLocked locked).1.Sound := by
  unfold setLocked
  split
  case isTrue => exact hs
  case isFalse =>
    have h := (sound_iff hinit).mp hs
    exact (sound_iff (s := { s with state := { s.state with sessionLocked := locked } })
      hinit).mpr h

theorem step_initialized {op : SessionOp} {out : SessionOut}
    (h : s.step op = some (t, out)) : t.initialized = true := by
  cases op with
  | init now config =>
    cases h
    rfl
  | changeSession now newSession =>
    simp only [step, changeSession] at h
    split at h
    · cases h
      exact hinit
    · obtain ⟨allowed, -, h⟩ := Option.bind_eq_some_iff.mp h
      split at h <;> cases h <;> exact hinit
  | updateSecurity level =>
    obtain ⟨rfl, -⟩ := eq_of_some h
    unfold updateSecurity
    split <;> exact hinit
  | processTimeout now =>
    obtain ⟨rfl, -⟩ := eq_of_some h
    rw [processTimeout_fst hinit, processS3]
    split <;> exact hinit
  | lockSession =>
    obtain ⟨rfl, -⟩ := eq_of_some h
    unfold lockSession setLocked
    split <;> exact hinit
  | unlockSession =>
    obtain ⟨rfl, -⟩ := eq_of_some h
    unfold unlockSession setLocked
    split <;> exact hinit

theorem step_sound (hs : s.Sound) (op : SessionOp) :
    s.Regular op ↔ ∃ t out, s.step op = some (t, out) ∧ t.Sound := by
  cases op with
  | init now config => exact iff_of_true trivial (exists_some.mpr (init_sound s now config))
  | changeSession now newSession => exact changeSession_sound hinit hs now newSession
  | updateSecurity level => exact (updateSecurity_sound hinit hs level).trans exists_some.symm
  | processTimeout now =>
    exact iff_of_true trivial (exists_some.mpr (processTimeout_sound hinit hs now))
  | lockSession => exact iff_of_true trivial (exists_some.mpr (setLocked_sound hinit hs true))
  | unlockSession => exact iff_of_true trivial (exists_some.mpr (setLocked_sound hinit hs false))

end

/-- **Whole runs.** After `Session_Manager_Init`, every state a run of calls reaches is
sound exactly if each of its calls keeps to the sessions 1 to 3, and to a level below 2 in
the default session. -/
theorem sessions_sound_iff (s : SessionManager) (now : Nat) (config : SessionManagerConfig)
    (ops : List SessionOp) :
    Throughout step Sound (s.init now config) ops ↔ Along step Regular (s.init now config) ops :=
  throughout_iff (fun s => s.initialized = true)
    (fun _ _ _ _ hinit h => step_initialized hinit h)
    (fun _ op _ hinit hs => step_sound hinit hs op) ops (fun _ _ => trivial) rfl
    (init_sound s now config)

def zero : SessionManager where
  config := ⟨0, false, false, false, false⟩
  state := ⟨0, 0, 0, 0, false, false⟩
  p2Timer := .idle
  s3Timer := .idle
  initialized := false

/-- `Session_Manager_UpdateSecurity(2)` in the default session allows a download there;
`Session_Manager_ChangeSession` takes 5 for a session, and goes into the safety session and
finds no row for it. -/
theorem download_in_default_session :
    ¬ Throughout step Sound (zero.init 0 ⟨5000, true, false, false, false⟩) [.updateSecurity 2] ∧
    ¬ Throughout step Sound (zero.init 0 ⟨5000, true, false, false, false⟩)
        [.changeSession 0 5] ∧
    ¬ Throughout step Sound (zero.init 0 ⟨5000, true, false, false, false⟩)
        [.changeSession 0 4] := by
  refine ⟨?_, ?_, ?_⟩
  · intro h
    exact absurd ((h.last rfl).transfer .requestDownload (by decide) (by decide)).1 (by decide)
  all_goals
    intro h
    exact absurd (h.last rfl).indexed (by decide)

end SessionManager

end Cant.Diagnostic
