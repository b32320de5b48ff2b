/-
# `SecurityManager` — access by session (`security/security_manager.c`)

Sixteen slots, found by session; a free slot has session 0, so session 0 finds it. A session
asks for a level, answers a seed with a key, and reads its level back. What it reads is
`requested_level`: the key has no part in it. `levels_guarded_iff` says how much is left of
the property: a session has a level it did not answer for as soon as it was granted one.

`Crypto_CalculateKey` depends on hardware that is not modelled and is a parameter.
`Security_RequestAccess` goes through a null pointer when no slot is free and `active_contexts` says
one is, which revoking session 0 brings about; that is `none`.
-/
import Cant.Lib.Past
import Cant.Lib.FinMap
import Cant.Lib.Word

namespace Cant.Diagnostic.Security

open Run Past Word List

inductive SecurityLevel where
  | locked | level1 | level2 | level3 | supplier | debug
  deriving DecidableEq

def SecurityLevel.code : SecurityLevel → Nat
  | .locked => 0
  | .level1 => 1
  | .level2 => 2
  | .level3 => 3
  | .supplier => 0xF0
  | .debug => 0xFF

structure SecurityContext where
  sessionId : UInt32
  requestedLevel : SecurityLevel
  seed : UInt32
  attemptCount : UInt32
  lastAttemptTime : UInt32
  delayActive : Bool

def SecurityContext.zero : SecurityContext := ⟨0, .locked, 0, 0, 0, false⟩

structure SecurityConfig where
  delayTimeMs : UInt32
  maxAttempts : UInt8
  minKeyLength : UInt16
  maxKeyLength : UInt16

def maxSecurityContexts : Nat := 16

structure SecurityManager where
  contexts : List SecurityContext
  slots : contexts.length = maxSecurityContexts
  config : SecurityConfig
  activeContexts : UInt32
  lastCheckTime : UInt32
  initialized : Bool

structure Key where
  bytes : List UInt8
  length : UInt16
  readable : 4 ≤ bytes.length

/-- `memcpy(&received_key, key, sizeof(uint32_t))`. -/
def Key.value (key : Key) : UInt32 :=
  word32 (key.bytes.getD 0 0) (key.bytes.getD 1 0) (key.bytes.getD 2 0) (key.bytes.getD 3 0)

namespace SecurityManager

def findContext (s : SecurityManager) (session : UInt32) : Option SecurityContext :=
  Keyed.lookup SecurityContext.sessionId session s.contexts

def put (s : SecurityManager) (session : UInt32) (f : SecurityContext → SecurityContext) :
    SecurityManager :=
  { s with
    contexts := Keyed.update SecurityContext.sessionId session f s.contexts
    slots := (Keyed.length_update s.contexts).trans s.slots }

def init (config : SecurityConfig) (now : UInt32) : SecurityManager where
  contexts := List.replicate maxSecurityContexts .zero
  slots := length_replicate
  config := config
  activeContexts := 0
  lastCheckTime := now
  initialized := true

/-- The end of `Security_RequestAccess`, with the slot of the session. -/
def access (s : SecurityManager) (session : UInt32) (c : SecurityContext) (level : SecurityLevel)
    (random now : UInt32) : SecurityManager × Bool :=
  if c.delayActive then (s, false)
  else
    (s.put session fun c =>
      { c with requestedLevel := level, seed := random, lastAttemptTime := now }, true)

def claim (s : SecurityManager) (session : UInt32) : SecurityManager :=
  { s.put 0 fun c => { c with sessionId := session } with activeContexts := s.activeContexts + 1 }

/-- `Security_RequestAccess`, with the seed and the clock reading it draws. -/
def requestAccess (s : SecurityManager) (session : UInt32) (level : SecurityLevel)
    (random now : UInt32) : Option (SecurityManager × Bool) :=
  if ¬ s.initialized ∨ session = 0 then some (s, false)
  else
    match s.findContext session with
    | some c => some (s.access session c level random now)
    | none =>
      if s.activeContexts ≥ UInt32.ofNat maxSecurityContexts then some (s, false)
      else
        match s.findContext 0 with
        | none => none
        | some c => some ((s.claim session).access session { c with sessionId := session }
          level random now)

def live (s : SecurityManager) (session : UInt32) : Option SecurityContext :=
  (s.findContext session).filter fun c => !c.delayActive

def getSeed (s : SecurityManager) (session : UInt32) : Option UInt32 :=
  if ¬ s.initialized then none else (s.live session).map (·.seed)

def getCurrentLevel (s : SecurityManager) (session : UInt32) : SecurityLevel :=
  if ¬ s.initialized then .locked
  else
    match s.live session with
    | none => .locked
    | some c => c.requestedLevel

def isLevelAllowed (s : SecurityManager) (session : UInt32) (level : SecurityLevel) : Bool :=
  if ¬ s.initialized then false
  else
    match s.live session with
    | none => false
    | some c => decide (c.requestedLevel.code ≥ level.code)

def revokeAccess (s : SecurityManager) (session : UInt32) : SecurityManager × Bool :=
  if ¬ s.initialized then (s, false)
  else
    match s.findContext session with
    | none => (s, false)
    | some _ =>
      ({ s.put session fun _ => .zero with activeContexts := s.activeContexts - 1 }, true)

def processTimeouts (s : SecurityManager) (now : UInt32) : SecurityManager :=
  if ¬ s.initialized ∨ now - s.lastCheckTime < 100 then s
  else
    { s with
      lastCheckTime := now
      contexts := s.contexts.map fun c =>
        if c.sessionId ≠ 0 ∧ c.delayActive ∧ now - c.lastAttemptTime ≥ s.config.delayTimeMs then
          { c with delayActive := false, attemptCount := 0 }
        else c
      slots := by
        rw [length_map]
        exact s.slots }

section

variable (calculateKey : UInt32 → UInt32)

def validateSecurityKey (s : SecurityManager) (seed : UInt32) (key : Key) : Bool :=
  if key.length < s.config.minKeyLength ∨ key.length > s.config.maxKeyLength then false
  else decide (calculateKey seed = key.value)

def judge (s : SecurityManager) (valid : Bool) (now : UInt32) (c : SecurityContext) :
    SecurityContext :=
  if valid then { c with attemptCount := 0, lastAttemptTime := now }
  else
    { c with
      attemptCount := c.attemptCount + 1
      delayActive := c.delayActive || decide (c.attemptCount + 1 ≥ s.config.maxAttempts.toUInt32)
      lastAttemptTime := now }

def validateKey (s : SecurityManager) (session : UInt32) (key : Key) (now : UInt32) :
    SecurityManager × Bool :=
  if ¬ s.initialized then (s, false)
  else
    match s.live session with
    | none => (s, false)
    | some c =>
      (s.put session (s.judge (s.validateSecurityKey calculateKey c.seed key) now),
        s.validateSecurityKey calculateKey c.seed key)

end

inductive Call where
  | requestAccess (session : UInt32) (level : SecurityLevel) (random now : UInt32)
  | getSeed (session : UInt32)
  | validateKey (session : UInt32) (key : Key) (now : UInt32)
  | revokeAccess (session : UInt32)
  | processTimeouts (now : UInt32)

structure Answer where
  result : Bool
  seed : Option UInt32

def step (calculateKey : UInt32 → UInt32) (s : SecurityManager) :
    Call → Option (SecurityManager × Answer)
  | .requestAccess session level random now =>
    (s.requestAccess session level random now).map fun r => (r.1, ⟨r.2, none⟩)
  | .getSeed session => some (s, ⟨(s.getSeed session).isSome, s.getSeed session⟩)
  | .validateKey session key now =>
    some ((s.validateKey calculateKey session key now).1,
      ⟨(s.validateKey calculateKey session key now).2, none⟩)
  | .revokeAccess session => some ((s.revokeAccess session).1, ⟨(s.revokeAccess session).2, none⟩)
  | .processTimeouts now => some (s.processTimeouts now, ⟨true, none⟩)

/-! ## The property -/

abbrev Entry : Type := Taken SecurityManager Call Answer

abbrev Logged : Type := List Entry × SecurityManager

def Requests (session : UInt32) (e : Entry) : Prop :=
  (∃ level random now, e.input = .requestAccess session level random now) ∧ e.output.result = true

def Validates (session : UInt32) (e : Entry) : Prop :=
  (∃ key now, e.input = .validateKey session key now) ∧ e.output.result = true

def Answered (session : UInt32) : List Entry → Prop :=
  Since (fun e => ¬ Requests session e) fun e past =>
    Validates session e ∧ Since (fun e => ¬ Requests session e) (fun e _ => Requests session e) past

/-- **Levels are answered for.** -/
structure Guarded (x : Logged) : Prop where
  current : ∀ session, x.2.getCurrentLevel session ≠ .locked → Answered session x.1
  allowed : ∀ session level, level ≠ .locked → x.2.isLevelAllowed session level = true →
    Answered session x.1

/-! ## Access requests -/

/-- The request is granted: the session has a slot, or there is one for it, with no delay. -/
def Grants (s : SecurityManager) (session : UInt32) : Prop :=
  session ≠ 0 ∧ ((∃ c, s.findContext session = some c ∧ c.delayActive = false) ∨
    s.findContext session = none ∧ s.activeContexts < UInt32.ofNat maxSecurityContexts ∧
      ∃ c, s.findContext 0 = some c ∧ c.delayActive = false)

def Strays (s : SecurityManager) (session : UInt32) : Prop :=
  session ≠ 0 ∧ s.findContext session = none ∧
    s.activeContexts < UInt32.ofNat maxSecurityContexts ∧ s.findContext 0 = none

/-- No level is granted but the locked one. -/
def Idle (x : Logged) : Call → Prop
  | .requestAccess session level _ _ =>
    ¬ x.2.Strays session ∧ (x.2.Grants session → level = .locked)
  | _ => True

def AllLocked (s : SecurityManager) : Prop := ∀ c ∈ s.contexts, c.requestedLevel = .locked

section

variable {s s' : SecurityManager} {session : UInt32} {level : SecurityLevel}
  {f : SecurityContext → SecurityContext}

theorem AllLocked.put (h : s.AllLocked)
    (hf : ∀ c, c.requestedLevel = .locked → (f c).requestedLevel = .locked) :
    (s.put session f).AllLocked := by
  intro c hc
  rcases Keyed.mem_update hc with hold | ⟨a, ha, -, rfl⟩
  · exact h c hold
  · exact hf a (h a ha)

variable {c : SecurityContext} {now random : UInt32}

theorem findContext_put (h : s.findContext session = some c)
    (hf : ∀ c, c.sessionId = session → (f c).sessionId = session) :
    (s.put session f).findContext session = some (f c) := by
  have hself : (s.put session f).findContext session = (s.findContext session).map f :=
    Keyed.lookup_update_self hf s.contexts
  rw [hself, h]
  rfl

theorem findContext_claim (hnew : s.findContext session = none) (hfree : s.findContext 0 = some c) :
    (s.claim session).findContext session = some { c with sessionId := session } :=
  Keyed.lookup_update_new (f := fun (c : SecurityContext) => { c with sessionId := session })
    hnew hfree rfl

section

variable (hinit : s.initialized = true)
include hinit

theorem getCurrentLevel_eq (hc : s.findContext session = some c)
    (hdelay : c.delayActive = false) : s.getCurrentLevel session = c.requestedLevel := by
  have hlive : s.live session = some c := by
    simp [live, hc, hdelay]
  simp [getCurrentLevel, hinit, hlive]

theorem access_level (hc : s.findContext session = some c)
    (hdelay : c.delayActive = false) (level : SecurityLevel) (random now : UInt32) :
    (s.access session c level random now).2 = true ∧
      (s.access session c level random now).1.getCurrentLevel session = level := by
  simp only [access, hdelay, Bool.false_eq_true, if_false, true_and]
  have hfound := findContext_put
    (f := fun (c : SecurityContext) =>
      { c with requestedLevel := level, seed := random, lastAttemptTime := now })
    hc fun _ h => h
  exact getCurrentLevel_eq (s := s.put session _) hinit hfound hdelay

theorem requestAccess_grants (h : s.Grants session) (level : SecurityLevel) (random now : UInt32) :
    ∃ s', s.requestAccess session level random now = some (s', true) ∧
      s'.getCurrentLevel session = level := by
  obtain ⟨hzero, ⟨c, hc, hdelay⟩ | ⟨hnone, hcount, c, hfree, hdelay⟩⟩ := h
  · obtain ⟨hresult, hlevel⟩ := access_level hinit hc hdelay level random now
    refine ⟨(s.access session c level random now).1, ?_, hlevel⟩
    simp [requestAccess, hinit, hzero, hc, ← hresult]
  · have hclaimed := findContext_claim hnone hfree
    obtain ⟨hresult, hlevel⟩ := access_level (s := s.claim session) hinit hclaimed hdelay level
      random now
    refine ⟨_, ?_, hlevel⟩
    have hspace := UInt32.not_le.mpr hcount
    simp [requestAccess, hinit, hzero, hnone, hspace, hfree, ← hresult]

theorem requestAccess_strays (h : s.Strays session)
    (level : SecurityLevel) (random now : UInt32) :
    s.requestAccess session level random now = none := by
  obtain ⟨hzero, hnone, hcount, hfull⟩ := h
  have hspace := UInt32.not_le.mpr hcount
  simp [requestAccess, hinit, hzero, hnone, hspace, hfull]

end

inductive Requested (s : SecurityManager) (session : UInt32) (level : SecurityLevel)
    (random now : UInt32) : Option (SecurityManager × Bool) → Prop
  | refused : Requested s session level random now (some (s, false))
  | known (c : SecurityContext) (r : SecurityManager × Bool) (hzero : session ≠ 0)
      (hc : s.findContext session = some c) (hr : s.access session c level random now = r) :
      Requested s session level random now (some r)
  | claimed (c : SecurityContext) (r : SecurityManager × Bool) (hzero : session ≠ 0)
      (hnone : s.findContext session = none)
      (hcount : s.activeContexts < UInt32.ofNat maxSecurityContexts)
      (hfree : s.findContext 0 = some c)
      (hr : (s.claim session).access session { c with sessionId := session } level random now = r) :
      Requested s session level random now (some r)
  | strays (h : s.Strays session) : Requested s session level random now none

theorem requested (s : SecurityManager) (session : UInt32) (level : SecurityLevel)
    (random now : UInt32) :
    Requested s session level random now (s.requestAccess session level random now) := by
  unfold requestAccess
  split
  · exact .refused
  case isFalse hnot =>
    have hzero : session ≠ 0 := fun heq => hnot (.inr heq)
    split
    case h_1 c hc => exact .known c _ hzero hc rfl
    case h_2 hnone =>
      split
      · exact .refused
      case isFalse hspace =>
        have hcount := UInt32.not_le.mp hspace
        split
        case h_1 hfull => exact .strays ⟨hzero, hnone, hcount, hfull⟩
        case h_2 c hfree => exact .claimed c _ hzero hnone hcount hfree rfl

theorem requestAccess_answers (h : ¬ s.Strays session) (level : SecurityLevel)
    (random now : UInt32) : ∃ r, s.requestAccess session level random now = some r := by
  have hrequested := requested s session level random now
  cases hcall : s.requestAccess session level random now with
  | some r => exact ⟨r, rfl⟩
  | none =>
    rw [hcall] at hrequested
    cases hrequested with
    | strays hstrays => exact absurd hstrays h

theorem delay_of_access (h : s.access session c level random now = (s', true)) :
    c.delayActive = false := by
  unfold access at h
  split at h
  case isTrue => cases h
  case isFalse hdelay => exact Bool.not_eq_true _ ▸ hdelay

theorem grants_of_requestAccess
    (hcall : s.requestAccess session level random now = some (s', true)) : s.Grants session := by
  have hrequested := requested s session level random now
  rw [hcall] at hrequested
  cases hrequested with
  | known c _ hzero hc hr => exact ⟨hzero, .inl ⟨c, hc, delay_of_access hr⟩⟩
  | claimed c _ hzero hnone hcount hfree hr =>
    have hdelay := delay_of_access hr
    exact ⟨hzero, .inr ⟨hnone, hcount, c, hfree, hdelay⟩⟩

theorem AllLocked.access (h : s.AllLocked) {granted : Bool}
    (hcall : s.access session c level random now = (s', granted))
    (hlevel : granted = true → level = .locked) :
    s'.AllLocked ∧ s'.initialized = s.initialized := by
  unfold SecurityManager.access at hcall
  split at hcall
  · cases hcall
    exact ⟨h, rfl⟩
  · cases hcall
    exact ⟨h.put fun _ _ => hlevel rfl, rfl⟩

theorem AllLocked.requestAccess (h : s.AllLocked) {granted : Bool}
    (hcall : s.requestAccess session level random now = some (s', granted))
    (hlevel : granted = true → level = .locked) :
    s'.AllLocked ∧ s'.initialized = s.initialized := by
  have hrequested := requested s session level random now
  rw [hcall] at hrequested
  cases hrequested with
  | refused => exact ⟨h, rfl⟩
  | known c _ _ _ hr => exact h.access hr hlevel
  | claimed c _ _ _ _ _ hr =>
    have hclaim : (s.claim session).AllLocked := h.put fun _ hl => hl
    exact hclaim.access hr hlevel

variable {calculateKey : UInt32 → UInt32} {call : Call} {out : Answer} {x : Logged}

theorem idle_step (calculateKey : UInt32 → UInt32) (hinit : x.2.initialized = true)
    (h : x.2.AllLocked) (hidle : Idle x call) :
    ∃ s' out, x.2.step calculateKey call = some (s', out) ∧ s'.initialized = true ∧
      s'.AllLocked := by
  cases call with
  | requestAccess session level random now =>
    obtain ⟨⟨s', granted⟩, hcall⟩ := requestAccess_answers hidle.1 level random now
    obtain ⟨hlocked, hsame⟩ := h.requestAccess hcall fun hgranted => by
      subst hgranted
      exact hidle.2 (grants_of_requestAccess hcall)
    refine ⟨s', ⟨granted, none⟩, ?_, hsame.trans hinit, hlocked⟩
    simp [step, hcall]
  | getSeed session => exact ⟨_, _, rfl, hinit, h⟩
  | validateKey session key now =>
    refine ⟨_, _, rfl, ?_⟩
    simp only [validateKey]
    split
    · exact ⟨hinit, h⟩
    · split
      · exact ⟨hinit, h⟩
      · refine ⟨hinit, h.put fun c hc => ?_⟩
        unfold judge
        split <;> exact hc
  | revokeAccess session =>
    refine ⟨_, _, rfl, ?_⟩
    simp only [revokeAccess]
    split
    · exact ⟨hinit, h⟩
    · split
      · exact ⟨hinit, h⟩
      · have hput : (x.2.put session fun _ => .zero).AllLocked := h.put fun _ _ => rfl
        exact ⟨hinit, hput⟩
  | processTimeouts now =>
    refine ⟨_, _, rfl, ?_⟩
    unfold processTimeouts
    split
    · exact ⟨hinit, h⟩
    · refine ⟨hinit, fun c hc => ?_⟩
      obtain ⟨c₀, hc₀, rfl⟩ := mem_map.mp hc
      split <;> exact h c₀ hc₀

theorem AllLocked.guarded (h : x.2.AllLocked) : Guarded x := by
  have hlive : ∀ session c, x.2.live session = some c → c.requestedLevel = .locked := by
    intro session c hc
    obtain ⟨hfound, -⟩ := Option.filter_eq_some_iff.mp hc
    exact h c (Keyed.mem_of_lookup hfound).1
  constructor
  · intro session hne
    refine absurd ?_ hne
    unfold getCurrentLevel
    split
    · rfl
    · split
      · rfl
      case h_2 c hc => exact hlive session c hc
  · intro session level hne hallowed
    unfold isLevelAllowed at hallowed
    split at hallowed
    · cases hallowed
    · split at hallowed
      · cases hallowed
      case h_2 c hc =>
        rw [hlive session c hc] at hallowed
        cases level with
        | locked => exact absurd rfl hne
        | _ => cases hallowed

theorem not_answered {e : Entry} {log : List Entry} (h : Requests session e) :
    ¬ Answered session (e :: log) := by
  rintro (⟨⟨⟨_, _, hkey⟩, -⟩, -⟩ | ⟨hnot, -⟩)
  · obtain ⟨⟨_, _, _, hrequest⟩, -⟩ := h
    cases hkey.symm.trans hrequest
  · exact hnot h

theorem idle_of_guarded (hinit : x.2.initialized = true) {s' : SecurityManager}
    (hstep : x.2.step calculateKey call = some (s', out))
    (hguarded : Guarded (⟨x.2, call, out, s'⟩ :: x.1, s')) : Idle x call := by
  cases call with
  | requestAccess session level random now =>
    obtain ⟨r, hcall, hr⟩ := Option.map_eq_some_iff.mp hstep
    constructor
    · intro hstrays
      cases (requestAccess_strays hinit hstrays level random now).symm.trans hcall
    · intro hgrants
      obtain ⟨s₁, hgranted, hlevel⟩ := requestAccess_grants hinit hgrants level random now
      cases hgranted.symm.trans hcall
      cases hr
      by_contra hne
      refine not_answered ?_ (hguarded.current session ?_)
      · exact ⟨⟨level, random, now, rfl⟩, rfl⟩
      · exact hlevel ▸ hne
  | getSeed | validateKey | revokeAccess | processTimeouts => trivial

end

/-- **Levels by session.** From `Security_Init`, every level read back was answered for in
exactly the runs in which no access request is granted but for `SECURITY_LEVEL_LOCKED`. -/
theorem levels_guarded_iff (calculateKey : UInt32 → UInt32) (config : SecurityConfig) (now : UInt32)
    (calls : List Call) :
    Throughout (logged (step calculateKey)) Guarded ([], init config now) calls ↔
      Along (logged (step calculateKey)) Idle ([], init config now) calls := by
  refine throughout_logged_iff (fun x => x.2.initialized = true ∧ x.2.AllLocked)
    (fun _ h => h.2.guarded) ?_ ?_ calls ⟨rfl, fun c hc => ?_⟩
  · rintro x call ⟨hinit, hlocked⟩ hidle
    exact idle_step calculateKey hinit hlocked hidle
  · rintro x call s' out ⟨hinit, -⟩ hcall hguarded
    exact idle_of_guarded hinit hcall hguarded
  · rw [eq_of_mem_replicate hc]
    rfl

/-- A session asks for the debug level and has it. -/
theorem level_without_key :
    ¬ Throughout (logged (step id)) Guarded ([], init ⟨10000, 3, 4, 4⟩ 0)
      [.requestAccess 7 .debug 0x1234 1] := by
  intro h
  have hlast := h.last rfl
  have hanswered := hlast.current 7 (by decide)
  rcases hanswered with ⟨⟨⟨_, _, ⟨⟩⟩, -⟩, -⟩ | ⟨-, hnone⟩
  exact hnone

/-! ## The sessions that have a slot -/

def sessions (s : SecurityManager) : List UInt32 := (s.contexts.map (·.sessionId)).filter (· ≠ 0)

/-- The count is right, and no session has two slots. -/
structure Counted (s : SecurityManager) : Prop where
  initialized : s.initialized = true
  count : s.activeContexts.toNat = s.sessions.length
  distinct : s.sessions.Nodup

/-- The call leaves the count right, and a new session is let in just when there is room. -/
def Admits (e : Entry) (_ : List Entry) : Prop :=
  Counted e.post ∧ ∀ session level random now, e.input = .requestAccess session level random now →
    session ≠ 0 → e.pre.findContext session = none →
      (e.output.result = true ↔ e.pre.sessions.length < maxSecurityContexts)

/-- The free slot that a new session gets has no delay, and no free slot is revoked. -/
def Clean (x : Logged) : Call → Prop
  | .requestAccess session _ _ _ => session ≠ 0 → x.2.findContext session = none →
    ∀ c, x.2.findContext 0 = some c → c.delayActive = false
  | .revokeAccess session => session = 0 → x.2.findContext 0 = none
  | _ => True

section

variable {s : SecurityManager} {session : UInt32} {c : SecurityContext}
  {f : SecurityContext → SecurityContext}

theorem Counted.congr {s' : SecurityManager} (h : Counted s)
    (hinit : s'.initialized = s.initialized) (hcount : s'.activeContexts = s.activeContexts)
    (hids : s'.contexts.map (·.sessionId) = s.contexts.map (·.sessionId)) : Counted s' := by
  have hsessions : s'.sessions = s.sessions := congrArg (List.filter _) hids
  refine ⟨hinit.trans h.initialized, ?_, hsessions ▸ h.distinct⟩
  rw [hcount, hsessions]
  exact h.count

theorem Counted.put (h : Counted s) (hf : ∀ c, (f c).sessionId = c.sessionId) :
    Counted (s.put session f) := h.congr rfl rfl (Keyed.map_update hf s.contexts)

theorem sessions_exchange (hc : s.findContext session = some c) :
    ∃ rest, s.sessions.Perm ([session].filter (· ≠ 0) ++ rest) ∧
      ∀ f, (s.put session f).sessions.Perm ([(f c).sessionId].filter (· ≠ 0) ++ rest) := by
  obtain ⟨rest, hperm, hput⟩ := Keyed.update_perm hc
  refine ⟨(rest.map (·.sessionId)).filter (· ≠ 0), ?_, fun f => ?_⟩
  · rw [← (Keyed.mem_of_lookup hc).2, ← filter_append]
    exact (hperm.map _).filter _
  · rw [← filter_append]
    exact ((hput f).map _).filter _

theorem mem_sessions : session ∈ s.sessions ↔ session ≠ 0 ∧ s.findContext session ≠ none := by
  rw [sessions, mem_filter, decide_eq_true_eq, and_comm]
  exact and_congr_right fun _ => (not_iff_comm.mp Keyed.lookup_eq_none_iff.symm).symm

theorem length_ids (s : SecurityManager) :
    (s.contexts.map (·.sessionId)).length = maxSecurityContexts := by rw [length_map, s.slots]

theorem room_iff : s.sessions.length < maxSecurityContexts ↔ ∃ c, s.findContext 0 = some c := by
  rw [← Option.ne_none_iff_exists', ne_eq, findContext, Keyed.lookup_eq_none_iff, ← length_ids s,
    sessions, ← not_iff_not, not_not, Nat.not_lt, (length_filter_le ..).ge_iff_eq,
    length_filter_eq_length_iff]
  simp only [decide_eq_true_eq]
  exact ⟨fun h hzero => h 0 hzero rfl, fun h id hid heq => h (heq ▸ hid)⟩

theorem Counted.space_iff (h : Counted s) :
    s.activeContexts < UInt32.ofNat maxSecurityContexts ↔ ∃ c, s.findContext 0 = some c := by
  rw [← room_iff, UInt32.lt_iff_toNat_lt, h.count]
  rfl

theorem toNat_succ {n : UInt32} (h : n.toNat < maxSecurityContexts) :
    (n + 1).toNat = n.toNat + 1 := by
  unfold maxSecurityContexts at h
  rw [UInt32.toNat_add]
  exact Nat.mod_eq_of_lt (by rw [UInt32.toNat_one]; omega)

section

variable {r : SecurityManager × Bool}
variable (h : Counted s)
include h

theorem Counted.claim (hzero : session ≠ 0) (hnew : s.findContext session = none)
    (hfree : s.findContext 0 = some c) : Counted (s.claim session) := by
  obtain ⟨rest, hbefore, hafter⟩ := sessions_exchange hfree
  replace hbefore : s.sessions.Perm rest := hbefore
  have hclaimed : (s.claim session).sessions.Perm (session :: rest) := by
    show (s.put 0 fun c => { c with sessionId := session }).sessions.Perm _
    simpa [hzero] using hafter fun c => { c with sessionId := session }
  have hroom := room_iff.mpr ⟨c, hfree⟩
  refine ⟨h.initialized, ?_, hclaimed.nodup_iff.mpr (nodup_cons.mpr ⟨fun hmem => ?_, ?_⟩)⟩
  · rw [hclaimed.length_eq, length_cons, ← hbefore.length_eq, ← h.count]
    exact toNat_succ (h.count ▸ hroom)
  · exact (mem_sessions.mp (hbefore.mem_iff.mpr hmem)).2 hnew
  · exact hbefore.nodup_iff.mp h.distinct

theorem Counted.revoke (hc : s.findContext session = some c) :
    Counted (s.revokeAccess session).1 ↔ session ≠ 0 := by
  obtain ⟨rest, hbefore, hafter⟩ := sessions_exchange hc
  have hrevoked : s.revokeAccess session =
      ({ s.put session fun _ => .zero with activeContexts := s.activeContexts - 1 }, true) := by
    unfold revokeAccess
    rw [if_neg (not_not.mpr h.initialized), hc]
  rw [hrevoked]
  have hleft : (s.put session fun _ => .zero).sessions.Perm rest := hafter fun _ => .zero
  have hcount := h.count
  constructor
  · rintro hcounted rfl
    replace hbefore : s.sessions.Perm rest := hbefore
    have hsame : (s.activeContexts - 1).toNat = _ := hcounted.count.trans hleft.length_eq
    rw [← hbefore.length_eq, ← hcount, UInt32.toNat_sub, UInt32.toNat_one] at hsame
    have hlt := s.activeContexts.toNat_lt
    omega
  · intro hzero
    replace hbefore : s.sessions.Perm (session :: rest) := by simpa [hzero] using hbefore
    rw [hbefore.length_eq, length_cons] at hcount
    have hpos : (1 : UInt32) ≤ s.activeContexts := by
      rw [UInt32.le_iff_toNat_le, hcount]
      exact Nat.le_add_left ..
    refine ⟨h.initialized, ?_, hleft.nodup_iff.mpr (hbefore.nodup_iff.mp h.distinct).of_cons⟩
    show (s.activeContexts - 1).toNat = _
    rw [UInt32.toNat_sub_of_le _ _ hpos, hcount]
    exact hleft.length_eq.symm

theorem Counted.access {level : SecurityLevel} {random now : UInt32}
    (hr : s.access session c level random now = r) : Counted r.1 := by
  unfold SecurityManager.access at hr
  split at hr
  · exact hr ▸ h
  · exact hr ▸ h.put fun _ => rfl

theorem Counted.requestAccess {level : SecurityLevel} {random now : UInt32}
    (hcall : s.requestAccess session level random now = some r) : Counted r.1 := by
  have hrequested := requested s session level random now
  rw [hcall] at hrequested
  cases hrequested with
  | refused => exact h
  | known c _ _ _ hr => exact h.access hr
  | claimed c _ hzero hnone _ hfree hr => exact (h.claim hzero hnone hfree).access hr

theorem Counted.grants_iff (hzero : session ≠ 0) (hnew : s.findContext session = none) :
    s.Grants session ↔ ∃ c, s.findContext 0 = some c ∧ c.delayActive = false := by
  constructor
  · rintro ⟨-, ⟨c, hc, -⟩ | ⟨-, -, hfree⟩⟩
    · cases hnew.symm.trans hc
    · exact hfree
  · rintro ⟨c, hfree, hdelay⟩
    exact ⟨hzero, .inr ⟨hnew, h.space_iff.mpr ⟨c, hfree⟩, c, hfree, hdelay⟩⟩

theorem Counted.answers (calculateKey : UInt32 → UInt32) (log : List Entry) (call : Call) :
    ∃ s' out, s.step calculateKey call = some (s', out) ∧
      (Clean (log, s) call ↔ Admits ⟨s, call, out, s'⟩ log) := by
  cases call with
  | requestAccess session level random now =>
    have hstays : ¬ s.Strays session := by
      rintro ⟨-, -, hcount, hfull⟩
      obtain ⟨c, hfree⟩ := h.space_iff.mp hcount
      cases hfull.symm.trans hfree
    obtain ⟨⟨s', granted⟩, hcall⟩ := requestAccess_answers hstays level random now
    have hgranted : granted = true ↔ s.Grants session := by
      refine ⟨fun htrue => grants_of_requestAccess (htrue ▸ hcall), fun hgrants => ?_⟩
      obtain ⟨_, hcall', -⟩ := requestAccess_grants h.initialized hgrants level random now
      exact (Prod.mk.inj (Option.mem_unique hcall hcall')).2
    refine ⟨s', ⟨granted, none⟩, by simp [step, hcall], ?_, ?_⟩
    · intro hclean
      refine ⟨h.requestAccess hcall, ?_⟩
      rintro _ _ _ _ ⟨⟩ hzero hnew
      rw [hgranted, h.grants_iff hzero hnew, room_iff]
      exact exists_congr fun c => and_iff_left_of_imp (hclean hzero hnew c)
    · rintro ⟨-, hadmits⟩ hzero hnew c hfree
      have hroom := room_iff.mpr ⟨c, hfree⟩
      have hgrants := hgranted.mp ((hadmits _ _ _ _ rfl hzero hnew).mpr hroom)
      obtain ⟨c', hfree', hdelay⟩ := (h.grants_iff hzero hnew).mp hgrants
      exact Option.mem_unique hfree hfree' ▸ hdelay
  | getSeed session => exact ⟨s, _, rfl, iff_of_true trivial ⟨h, nofun⟩⟩
  | validateKey session key now =>
    refine ⟨_, _, rfl, iff_of_true trivial ⟨?_, nofun⟩⟩
    unfold validateKey
    split
    · exact h
    · split
      · exact h
      · exact h.put fun c => by unfold judge; split <;> rfl
  | revokeAccess session =>
    refine ⟨_, _, rfl, ?_⟩
    cases hc : s.findContext session with
    | none =>
      have hrefused : s.revokeAccess session = (s, false) := by
        simp [revokeAccess, hc]
      exact iff_of_true (fun hzero => hzero ▸ hc) ⟨hrefused ▸ h, nofun⟩
    | some c =>
      refine Iff.trans ?_ ((h.revoke hc).symm.trans (and_iff_left nofun).symm)
      refine ⟨?_, fun hzero heq => absurd heq hzero⟩
      rintro hclean rfl
      cases hc.symm.trans (hclean rfl)
  | processTimeouts now =>
    refine ⟨_, _, rfl, iff_of_true trivial ⟨?_, nofun⟩⟩
    unfold processTimeouts
    split
    · exact h
    · refine h.congr rfl rfl ?_
      rw [map_map]
      exact map_congr_left fun c _ => by dsimp only [Function.comp_apply]; split <;> rfl

end

end

/-- `activeContexts` stays the number of the sessions that have a slot, and a new session gets one
just when one is free, exactly if no new session meets the delay of an earlier user of its slot and
nobody revokes session 0. -/
theorem contexts_counted_iff (calculateKey : UInt32 → UInt32) (config : SecurityConfig)
    (now : UInt32) (calls : List Call) :
    Throughout (logged (step calculateKey)) (fun x => Historically Admits x.1)
        ([], init config now) calls ↔
      Along (logged (step calculateKey)) Clean ([], init config now) calls := by
  refine historically_iff_of_total (fun x => Counted x.2) ?_ calls ?_ trivial
  · rintro ⟨log, s⟩ call h
    obtain ⟨s', out, hstep, hiff⟩ := Counted.answers h calculateKey log call
    exact ⟨s', out, hstep, fun hclean => (hiff.mp hclean).1, hiff⟩
  · exact ⟨rfl, rfl, nodup_nil⟩

/-- Session 0 is revoked on a new manager: the count is `2^32 - 1`. -/
theorem free_slot_revoked :
    ¬ Throughout (logged (step id)) (fun x => Historically Admits x.1)
      ([], init ⟨10000, 3, 4, 4⟩ 0) [.revokeAccess 0] := by
  intro h
  obtain ⟨⟨hcounted, -⟩, -⟩ := h.last rfl
  cases hcounted.count

end SecurityManager

end Cant.Diagnostic.Security
