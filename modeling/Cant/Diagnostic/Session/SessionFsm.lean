/-
# `SessionFsm` — a table of diagnostic sessions (`session_fsm.c`)

A slot is free if its id is 0, and an event or an activity for id 0 finds the first free slot
and changes it. That does no harm: no transition leads to a state other than default and
extended, so no handler that changes a security level is ever reached (`Calm`), and a session
that is created in the slot is put in the default state. `sessions_kept` is the table over
every run.

Bytes of an event that are not there make a call without an answer. The clock is read once a call,
and may read anything.
-/
import Cant.Lib.Past
import Cant.Lib.Slots

namespace Cant.Diagnostic.SessionFsm

open Past Run Function List Option

inductive SessionState where
  | default | programming | extended | safety | supplier | eol
  deriving DecidableEq

inductive SessionEvent where
  | timeout | request | response | securityAccess | securityDenied | error | reset

structure SessionContext where
  sessionId : UInt32
  currentState : SessionState
  stateEntryTime : UInt32
  lastActivityTime : UInt32
  securityLevel : UInt8
  pendingDid : UInt16
  pendingRoutine : UInt16
  routineActive : Bool
  errorCounter : UInt8

def SessionContext.zero : SessionContext := ⟨0, .default, 0, 0, 0, 0, 0, false, 0⟩

structure SessionFSMConfig where
  p2TimeoutMs : UInt32
  p2StarTimeoutMs : UInt32
  s3TimeoutMs : UInt32
  maxErrorCount : UInt8
  requireSecurityAccess : Bool
  allowNestedResponse : Bool
  autoSessionCleanup : Bool

structure Fsm where
  sessions : Fin 16 → SessionContext
  config : SessionFSMConfig
  nextSessionId : UInt32
  activeSessions : UInt32
  lastTimeoutCheck : UInt32
  initialized : Bool

/-! ## The handlers -/

/-- What `event_data` leads to; `none` is a null pointer. -/
abbrev EventData := Option (List UInt8)

def byteAt (data : EventData) (i : Nat) : Option UInt8 := data.bind (·[i]?)

abbrev Handler :=
  SessionFSMConfig → UInt32 → SessionContext → EventData → Option (SessionContext × Bool)

/-- What two of the handlers do to a session. -/
def SessionContext.clear (ctx : SessionContext) : SessionContext :=
  { ctx with
    securityLevel := 0, pendingDid := 0, pendingRoutine := 0, routineActive := false,
    errorCounter := 0 }

/-- `handle_default_timeout`; the other handlers have their C names too. -/
def handleDefaultTimeout : Handler := fun _ _ ctx _ => some (ctx.clear, true)

def handleDefaultRequest : Handler := fun _ now ctx data => do
  let b ← byteAt data 0
  if b = 0x10 then some ({ ctx with lastActivityTime := now }, true) else some (ctx, false)

def handleProgrammingSecurity : Handler := fun config _ ctx data =>
  if ctx.errorCounter ≥ config.maxErrorCount then some (ctx, false)
  else do
    let b ← byteAt data 0
    if b = 0x27 then do
      let level ← byteAt data 1
      some ({ ctx with securityLevel := level, errorCounter := 0 }, true)
    else some ({ ctx with errorCounter := ctx.errorCounter + 1 }, false)

def handleExtendedRequest : Handler := fun config now ctx _ =>
  if config.requireSecurityAccess && ctx.securityLevel = 0 then some (ctx, false)
  else some ({ ctx with lastActivityTime := now }, true)

def handleSafetyError : Handler := fun config _ ctx data => do
  let _ ← byteAt data 0
  let ctx := { ctx with errorCounter := ctx.errorCounter + 1 }
  some (ctx, ctx.errorCounter ≥ config.maxErrorCount)

def handleSupplierResponse : Handler := fun config now ctx _ =>
  if !config.allowNestedResponse && ctx.pendingDid ≠ 0 then some (ctx, false)
  else some ({ ctx with lastActivityTime := now }, true)

def handleEolReset : Handler := fun _ _ ctx _ => some (ctx.clear, true)

/-- `state_transitions`, as `initialize_state_transitions` fills it: the next state and the
handler, where there is one. -/
def stateTransitions : SessionState → SessionEvent → Option (SessionState × Handler)
  | .default, .timeout => some (.default, handleDefaultTimeout)
  | .default, .request => some (.extended, handleDefaultRequest)
  | .programming, .securityAccess => some (.programming, handleProgrammingSecurity)
  | .extended, .request => some (.extended, handleExtendedRequest)
  | .safety, .error => some (.default, handleSafetyError)
  | .supplier, .response => some (.supplier, handleSupplierResponse)
  | .eol, .reset => some (.default, handleEolReset)
  | _, _ => none

/-- What an event does to a session; `none` inside is an event without a handler. -/
def SessionContext.react (ctx : SessionContext) (config : SessionFSMConfig) (now : UInt32)
    (event : SessionEvent) (data : EventData) : Option (SessionContext × Bool) :=
  match stateTransitions ctx.currentState event with
  | none => some (ctx, false)
  | some (nextState, handler) => do
    let (ctx, result) ← handler config now ctx data
    if result then some ({ ctx with currentState := nextState, stateEntryTime := now }, true)
    else some (ctx, false)

/-! ## The table -/

def inUse (sessions : Fin 16 → SessionContext) (i : Fin 16) : Bool := (sessions i).sessionId ≠ 0

def findSession (sessions : Fin 16 → SessionContext) (id : UInt32) : Option (Fin 16) :=
  (List.finRange 16).find? fun i => (sessions i).sessionId = id

namespace Fsm

/-- `Session_FSM_Init`, at clock `now`; `none` is a null configuration. -/
def init (f : Fsm) (now : UInt32) : Option SessionFSMConfig → Fsm × Bool
  | none => (f, false)
  | some config => (⟨fun _ => .zero, config, 1, 0, now, true⟩, true)

/-- `Session_FSM_CreateSession`; `target` says that the pointer for the id is not null. -/
def createSession (f : Fsm) (now : UInt32) (target : Bool) : Fsm × Option UInt32 :=
  if !f.initialized || !target then (f, none)
  else if f.activeSessions ≥ 16 then (f, none)
  else
    match Slots.firstFree (inUse f.sessions) with
    | none => (f, none)
    | some i =>
      ({ f with
        sessions := update f.sessions i
          { f.sessions i with
            sessionId := f.nextSessionId, currentState := .default, stateEntryTime := now,
            lastActivityTime := now }
        nextSessionId := f.nextSessionId + 1
        activeSessions := f.activeSessions + 1 }, some f.nextSessionId)

def destroySession (f : Fsm) (id : UInt32) : Fsm × Bool :=
  if !f.initialized || id = 0 then (f, false)
  else
    match findSession f.sessions id with
    | none => (f, false)
    | some i =>
      ({ f with
        sessions := update f.sessions i .zero
        activeSessions := f.activeSessions - 1 }, true)

/-- `Session_FSM_HandleEvent`; `none` is a number that is no event. -/
def handleEvent (f : Fsm) (now : UInt32) (id : UInt32) (event : Option SessionEvent)
    (data : EventData) : Option (Fsm × Bool) :=
  match event with
  | none => some (f, false)
  | some event =>
    if !f.initialized then some (f, false)
    else
      match findSession f.sessions id with
      | none => some (f, false)
      | some i => do
        let (ctx, result) ← (f.sessions i).react f.config now event data
        some ({ f with sessions := update f.sessions i ctx }, result)

/-- The loop body of `Session_FSM_ProcessTimeouts`. -/
def checkSession (now : UInt32) (f : Fsm) (i : Fin 16) : Option Fsm :=
  let ctx := f.sessions i
  if ctx.sessionId = 0 then some f
  else if now - ctx.lastActivityTime > f.config.s3TimeoutMs then do
    let (f, _) ← f.handleEvent now ctx.sessionId (some .timeout) none
    if f.config.autoSessionCleanup then some (f.destroySession (f.sessions i).sessionId).1
    else some f
  else if ctx.pendingDid ≠ 0 || ctx.pendingRoutine ≠ 0 then
    let timeout := if ctx.routineActive then f.config.p2StarTimeoutMs else f.config.p2TimeoutMs
    if now - ctx.stateEntryTime > timeout then
      (f.handleEvent now ctx.sessionId (some .timeout) none).map (·.1)
    else some f
  else some f

def processTimeouts (f : Fsm) (now : UInt32) : Option Fsm :=
  if !f.initialized then some f
  else if now - f.lastTimeoutCheck < 100 then some f
  else (List.finRange 16).foldlM (checkSession now) { f with lastTimeoutCheck := now }

def updateActivity (f : Fsm) (now : UInt32) (id : UInt32) : Fsm × Bool :=
  if !f.initialized then (f, false)
  else
    match findSession f.sessions id with
    | none => (f, false)
    | some i =>
      ({ f with
        sessions := update f.sessions i { f.sessions i with lastActivityTime := now } }, true)

end Fsm

inductive Call where
  | createSession (target : Bool)
  | destroySession (id : UInt32)
  | handleEvent (id : UInt32) (event : Option SessionEvent) (data : EventData)
  | updateActivity (id : UInt32)
  | processTimeouts

variable {call : UInt32 × Call} {answer : Bool} {calls : List (UInt32 × Call)}

/-- The answer of a call, and the id of the session it created. -/
structure Outcome where
  answer : Bool
  created : Option UInt32

def step (f : Fsm) : UInt32 × Call → Option (Fsm × Outcome)
  | (now, .createSession target) =>
    let r := f.createSession now target
    some (r.1, ⟨r.2.isSome, r.2⟩)
  | (_, .destroySession id) =>
    let r := f.destroySession id
    some (r.1, ⟨r.2, none⟩)
  | (now, .handleEvent id event data) =>
    (f.handleEvent now id event data).map fun r => (r.1, ⟨r.2, none⟩)
  | (now, .updateActivity id) =>
    let r := f.updateActivity now id
    some (r.1, ⟨r.2, none⟩)
  | (now, .processTimeouts) => (f.processTimeouts now).map fun f' => (f', ⟨true, none⟩)

/-! ## What a log shows -/

abbrev Entry := Taken Fsm (UInt32 × Call) Outcome

def live (f : Fsm) : Finset (Fin 16) := Slots.used (inUse f.sessions)

def creations (log : List Entry) : Nat := log.countP fun e => e.output.created.isSome

/-- The call may change the session with this id. -/
def Call.Concerns : Call → UInt32 → Prop
  | .createSession _, _ => False
  | .destroySession id, id' => id' = id
  | .handleEvent id _ _, id' => id' = id
  | .updateActivity id, id' => id' = id
  | .processTimeouts, _ => True

/-- A session is created just when fewer than 16 live; it has an id that no session had before,
and begins in the default state with security level 0. Every other call leaves the sessions
alone that it does not name. -/
structure Right (e : Entry) (past : List Entry) : Prop where
  succeeds : e.input.2 = .createSession true → (e.output.answer = true ↔ (live e.pre).card < 16)
  answers : ∀ target, e.input.2 = .createSession target → e.output.answer = e.output.created.isSome
  created : ∀ id ∈ e.output.created, id ≠ 0 ∧ (∀ e' ∈ past, e'.output.created ≠ some id) ∧
    (∀ i, (e.pre.sessions i).sessionId ≠ id) ∧
    ∃ i, (e.pre.sessions i).sessionId = 0 ∧ (e.post.sessions i).sessionId = id ∧
      (e.post.sessions i).currentState = .default ∧ (e.post.sessions i).securityLevel = 0
  spares : ∀ i ∈ live e.pre, ¬ e.input.2.Concerns (e.pre.sessions i).sessionId →
    e.post.sessions i = e.pre.sessions i

/-- The table is in order: the count is right, the ids of the sessions differ, and every call was
right. -/
structure Kept (x : List Entry × Fsm) : Prop where
  count : x.2.activeSessions.toNat = (live x.2).card
  distinct : ∀ i ∈ live x.2, ∀ j ∈ live x.2,
    (x.2.sessions i).sessionId = (x.2.sessions j).sessionId → i = j
  calls : Historically Right x.1

def Call.Readable : Call → Prop
  | .handleEvent _ event data => event = some .request → (byteAt data 0).isSome
  | _ => True

/-! ## One session -/

/-- A state that can be reached, and the security level that comes with it. -/
structure Calm (ctx : SessionContext) : Prop where
  state : ctx.currentState = .default ∨ ctx.currentState = .extended
  level : ctx.securityLevel = 0

theorem calm_zero : Calm .zero := ⟨.inl rfl, rfl⟩

/-- An event keeps a calm session calm and its id; only a request in the default state reads the
data. -/
theorem react_calm {ctx : SessionContext} (hcalm : Calm ctx) (config : SessionFSMConfig)
    (now : UInt32) (event : SessionEvent) (data : EventData) :
    ctx.react config now event data = none ∧ event = .request ∧ byteAt data 0 = none ∨
    ∃ ctx' result, ctx.react config now event data = some (ctx', result) ∧
      ctx'.sessionId = ctx.sessionId ∧ Calm ctx' := by
  rcases hcalm.state with hstate | hstate
  · cases event with
    | timeout =>
      refine .inr ⟨{ ctx.clear with currentState := .default, stateEntryTime := now }, true, ?_,
        rfl, .inl rfl, rfl⟩
      rw [SessionContext.react, hstate]
      rfl
    | request =>
      cases hb : byteAt data 0 with
      | none =>
        refine .inl ⟨?_, rfl, rfl⟩
        rw [SessionContext.react, hstate]
        simp [stateTransitions, handleDefaultRequest, hb]
      | some b =>
        by_cases hcontrol : b = 0x10
        · refine .inr ⟨{ ctx with
            lastActivityTime := now, currentState := .extended, stateEntryTime := now }, true,
            ?_, rfl, .inr rfl, hcalm.level⟩
          simp [SessionContext.react, hstate, stateTransitions, handleDefaultRequest, hb, hcontrol]
        · refine .inr ⟨ctx, false, ?_, rfl, hcalm⟩
          simp [SessionContext.react, hstate, stateTransitions, handleDefaultRequest, hb, hcontrol]
    | response | securityAccess | securityDenied | error | reset =>
      exact .inr ⟨ctx, false, by rw [SessionContext.react, hstate]; rfl, rfl, hcalm⟩
  · cases event with
    | request =>
      refine .inr ?_
      by_cases hdenied : (config.requireSecurityAccess && ctx.securityLevel = 0) = true
      · refine ⟨ctx, false, ?_, rfl, hcalm⟩
        rw [SessionContext.react, hstate]
        simp [stateTransitions, handleExtendedRequest, hdenied]
      · refine ⟨{ ctx with
          lastActivityTime := now, currentState := .extended, stateEntryTime := now }, true, ?_,
          rfl, .inr rfl, hcalm.level⟩
        rw [SessionContext.react, hstate]
        simp [stateTransitions, handleExtendedRequest, hdenied]
    | timeout | response | securityAccess | securityDenied | error | reset =>
      exact .inr ⟨ctx, false, by rw [SessionContext.react, hstate]; rfl, rfl, hcalm⟩

/-! ## The slots -/

section

variable {sessions : Fin 16 → SessionContext} {i : Fin 16} {ctx : SessionContext} {id : UInt32}

theorem inUse_iff : inUse sessions i = true ↔ (sessions i).sessionId ≠ 0 := decide_eq_true_iff

theorem inUse_eq_false : inUse sessions i = false ↔ (sessions i).sessionId = 0 := by
  rw [← Bool.not_eq_true, inUse_iff, not_not]

theorem mem_live {f : Fsm} : i ∈ live f ↔ (f.sessions i).sessionId ≠ 0 :=
  Slots.mem_used.trans inUse_iff

theorem inUse_update : inUse (update sessions i ctx) =
    update (inUse sessions) i (ctx.sessionId ≠ 0) := by
  funext j
  rcases eq_or_ne j i with rfl | hne
  · rw [inUse, update_self, update_self]
  · rw [inUse, update_of_ne hne, update_of_ne hne, inUse]

theorem findSession_some (h : findSession sessions id = some i) : (sessions i).sessionId = id :=
  of_decide_eq_true (find?_some (p := fun i => (sessions i).sessionId = id) h)

def Distinct (sessions : Fin 16 → SessionContext) : Prop :=
  ∀ i j, (sessions i).sessionId ≠ 0 → (sessions i).sessionId = (sessions j).sessionId → i = j

theorem Distinct.write (h : Distinct sessions)
    (hnew : ctx.sessionId ≠ 0 → ∀ j ≠ i, (sessions j).sessionId ≠ ctx.sessionId) :
    Distinct (update sessions i ctx) := by
  intro j k hj heq
  rcases eq_or_ne j i with rfl | hji
  · rcases eq_or_ne k j with rfl | hkj
    · rfl
    · rw [update_self] at hj heq
      rw [update_of_ne hkj] at heq
      exact absurd heq.symm (hnew hj k hkj)
  · rw [update_of_ne hji] at hj heq
    rcases eq_or_ne k i with rfl | hki
    · rw [update_self] at heq
      exact absurd heq (hnew (heq ▸ hj) j hji)
    · rw [update_of_ne hki] at heq
      exact h j k hj heq

end

/-! ## What a call can do -/

/-- What stands in the table is sound: every slot is calm, and no id has been given that is not
below the next one. -/
structure Sound (f : Fsm) : Prop where
  initialized : f.initialized = true
  count : f.activeSessions.toNat = (live f).card
  distinct : Distinct f.sessions
  calm : ∀ i, Calm (f.sessions i)
  below : ∀ i, (f.sessions i).sessionId.toNat < f.nextSessionId.toNat

/-- A call for one id: nothing happens, the slot with the id is changed, or it is emptied. -/
inductive Moves (id : UInt32) (f : Fsm) : Fsm → Prop
  | stay : Moves id f f
  | change {i : Fin 16} {ctx : SessionContext} (hi : (f.sessions i).sessionId = id)
      (hid : ctx.sessionId = id) (hcalm : Calm ctx) :
      Moves id f { f with sessions := update f.sessions i ctx }
  | remove {i : Fin 16} (hi : (f.sessions i).sessionId = id) (hid : id ≠ 0) :
      Moves id f
        { f with
          sessions := update f.sessions i .zero, activeSessions := f.activeSessions - 1 }

theorem toNat_succ {n : UInt32} (h : n.toNat + 1 < 4294967296) : (n + 1).toNat = n.toNat + 1 := by
  exact Nat.mod_eq_of_lt h

namespace Sound

variable {f f' : Fsm} {i : Fin 16} {ctx : SessionContext} {id : UInt32}

variable (h : Sound f)
include h

theorem write {count next : UInt32} (hcalm : Calm ctx)
    (hnew : ctx.sessionId ≠ 0 → ∀ j ≠ i, (f.sessions j).sessionId ≠ ctx.sessionId)
    (hcount : count.toNat = (Slots.used (update (inUse f.sessions) i (ctx.sessionId ≠ 0))).card)
    (hbelow : ctx.sessionId.toNat < next.toNat) (hnext : f.nextSessionId.toNat ≤ next.toNat) :
    Sound { f with
      sessions := update f.sessions i ctx, nextSessionId := next, activeSessions := count } := by
  refine ⟨h.initialized, ?_, h.distinct.write hnew, ?_, ?_⟩
  · rw [live, inUse_update]
    exact hcount
  · refine (forall_update_iff f.sessions fun _ c => Calm c).mpr ⟨hcalm, ?_⟩
    exact fun j _ => h.calm j
  · refine (forall_update_iff f.sessions fun _ c => c.sessionId.toNat < next.toNat).mpr
      ⟨hbelow, ?_⟩
    exact fun j _ => (h.below j).trans_le hnext

theorem change (hid : ctx.sessionId = (f.sessions i).sessionId) (hcalm : Calm ctx) :
    Sound { f with sessions := update f.sessions i ctx } := by
  refine h.write hcalm ?_ ?_ (hid ▸ h.below i) .refl
  · intro hzero j hne heq
    rw [hid] at hzero heq
    exact hne (h.distinct i j hzero heq.symm).symm
  · rw [hid, h.count]
    exact congrArg (fun used => (Slots.used used).card)
      (update_eq_self i (inUse f.sessions)).symm

theorem remove (hi : (f.sessions i).sessionId ≠ 0) :
    Sound { f with
      sessions := update f.sessions i .zero, activeSessions := f.activeSessions - 1 } := by
  have hcard : _ + 1 = (live f).card := Slots.card_used_giveBack (inUse_iff.mpr hi)
  have hpos : (1 : UInt32) ≤ f.activeSessions := by
    rw [UInt32.le_iff_toNat_le, h.count, ← hcard]
    exact Nat.le_add_left 1 _
  refine h.write calm_zero (fun hzero => absurd rfl hzero) ?_
    ((Nat.zero_le _).trans_lt (h.below i)) .refl
  rw [UInt32.toNat_sub_of_le _ _ hpos, h.count, ← hcard]
  rfl

theorem add (hi : (f.sessions i).sessionId = 0)
    (hroom : f.nextSessionId.toNat + 1 < 4294967296) (hid : ctx.sessionId = f.nextSessionId)
    (hcalm : Calm ctx) :
    Sound { f with
      sessions := update f.sessions i ctx, nextSessionId := f.nextSessionId + 1,
      activeSessions := f.activeSessions + 1 } := by
  have hnext := toNat_succ hroom
  have hzero : ctx.sessionId ≠ 0 := by
    intro hzero
    have hpos := h.below i
    rw [← hid, hzero] at hpos
    exact Nat.not_lt_zero _ hpos
  refine h.write hcalm ?_ ?_ (by rw [hnext, hid]; exact Nat.lt_succ_self _)
    (hnext ▸ Nat.le_succ _)
  · intro _ j _ heq
    rw [hid] at heq
    exact Nat.lt_irrefl _ (heq ▸ h.below j)
  · have hfew : (live f).card ≤ 16 := (Finset.card_le_univ _).trans_eq (Fintype.card_fin 16)
    rw [decide_eq_true hzero, Slots.card_used_take (inUse_eq_false.mpr hi), toNat_succ
      (h.count ▸ (Nat.succ_le_succ hfew).trans_lt (by decide)), h.count]
    rfl

end Sound

namespace Moves

variable {f f' : Fsm} {id : UInt32}

variable (hmoves : Moves id f f')
include hmoves

theorem sound (h : Sound f) : Sound f' := by
  cases hmoves with
  | stay => exact h
  | change hi hid hcalm => exact h.change (hid.trans hi.symm) hcalm
  | remove hi hid => exact h.remove (hi ▸ hid)

theorem next : f'.nextSessionId = f.nextSessionId := by
  cases hmoves <;> rfl

theorem config : f'.config = f.config := by
  cases hmoves <;> rfl

theorem spares {j : Fin 16} (hj : (f.sessions j).sessionId ≠ id) :
    f'.sessions j = f.sessions j := by
  cases hmoves with
  | stay => rfl
  | change hi _ _ | remove hi _ =>
    refine update_of_ne ?_ ..
    rintro rfl
    exact hj hi

end Moves

variable {f : Fsm} {now id : UInt32}

theorem destroySession_moves (f : Fsm) (id : UInt32) : Moves id f (f.destroySession id).1 := by
  unfold Fsm.destroySession
  split
  case isTrue => exact .stay
  case isFalse hgo =>
    rw [Bool.or_eq_true, not_or, decide_eq_true_eq] at hgo
    cases hfind : findSession f.sessions id with
    | none => exact .stay
    | some i => exact .remove (findSession_some hfind) hgo.2

theorem updateActivity_moves (h : Sound f) (now id : UInt32) :
    Moves id f (f.updateActivity now id).1 := by
  unfold Fsm.updateActivity
  split
  case isTrue => exact .stay
  case isFalse =>
    cases hfind : findSession f.sessions id with
    | none => exact .stay
    | some i =>
      have hid := findSession_some hfind
      exact .change hid hid ⟨(h.calm i).state, (h.calm i).level⟩

theorem handleEvent_moves (h : Sound f) (now id : UInt32) (event : Option SessionEvent)
    (data : EventData) :
    f.handleEvent now id event data = none ∧ event = some .request ∧ byteAt data 0 = none ∨
    ∃ f' result, f.handleEvent now id event data = some (f', result) ∧ Moves id f f' := by
  cases event with
  | none => exact .inr ⟨f, false, rfl, .stay⟩
  | some event =>
    have hstart : ¬ (!f.initialized) = true := by
      rw [h.initialized]
      exact Bool.false_ne_true
    rw [Fsm.handleEvent, if_neg hstart]
    cases hfind : findSession f.sessions id with
    | none => exact .inr ⟨f, false, rfl, .stay⟩
    | some i =>
      have hi := findSession_some hfind
      rcases react_calm (h.calm i) f.config now event data with
        ⟨hnone, rfl, hdata⟩ | ⟨ctx, result, hreact, hid, hcalm⟩
      · refine .inl ⟨?_, rfl, hdata⟩
        simp [hnone]
      · refine .inr ⟨_, result, ?_, .change hi (hid.trans hi) hcalm⟩
        simp [hreact]

structure Checked (slots : List (Fin 16)) (f f' : Fsm) : Prop where
  sound : Sound f'
  next : f'.nextSessionId = f.nextSessionId
  config : f'.config = f.config
  spares : ∀ k ∉ slots, f'.sessions k = f.sessions k

theorem Checked.refl (h : Sound f) (slots : List (Fin 16)) : Checked slots f f :=
  ⟨h, rfl, rfl, fun _ _ => rfl⟩

theorem Checked.trans {slots slots' : List (Fin 16)} {f₁ f₂ : Fsm} (h₁ : Checked slots f f₁)
    (h₂ : Checked slots' f₁ f₂) : Checked (slots ++ slots') f f₂ := by
  refine ⟨h₂.sound, h₂.next.trans h₁.next, h₂.config.trans h₁.config, fun k hk => ?_⟩
  rw [mem_append, not_or] at hk
  exact (h₂.spares k hk.2).trans (h₁.spares k hk.1)

theorem Checked.of_moves {f' : Fsm} {i : Fin 16} (h : Sound f) (hi : (f.sessions i).sessionId ≠ 0)
    (hmoves : Moves (f.sessions i).sessionId f f') : Checked [i] f f' := by
  refine ⟨hmoves.sound h, hmoves.next, hmoves.config, fun k hk => hmoves.spares fun heq => ?_⟩
  exact hk (mem_singleton.mpr (h.distinct i k hi heq.symm).symm)

theorem findSession_of_live (h : Sound f) {i : Fin 16} (hi : (f.sessions i).sessionId ≠ 0) :
    findSession f.sessions (f.sessions i).sessionId = some i := by
  cases hfind : findSession f.sessions (f.sessions i).sessionId with
  | none => exact absurd (find?_eq_none.mp hfind i (mem_finRange i)) (by simp)
  | some j => rw [h.distinct i j hi (findSession_some hfind).symm]

theorem destroySession_live (h : Sound f) {i : Fin 16} (hi : (f.sessions i).sessionId ≠ 0) :
    (f.destroySession (f.sessions i).sessionId).1 = { f with
      sessions := update f.sessions i .zero, activeSessions := f.activeSessions - 1 } := by
  simp [Fsm.destroySession, h.initialized, hi, findSession_of_live h hi]

def SessionContext.timedOut (ctx : SessionContext) (now : UInt32) : SessionContext :=
  if ctx.currentState = .default then { ctx.clear with stateEntryTime := now } else ctx

theorem sessionId_timedOut (ctx : SessionContext) (now : UInt32) :
    (ctx.timedOut now).sessionId = ctx.sessionId := by
  unfold SessionContext.timedOut
  split <;> rfl

theorem calm_timedOut {ctx : SessionContext} (h : Calm ctx) (now : UInt32) :
    Calm (ctx.timedOut now) := by
  unfold SessionContext.timedOut
  split
  · exact ⟨h.state, rfl⟩
  · exact h

theorem handleEvent_timeout (h : Sound f) (now : UInt32) {i : Fin 16}
    (hi : (f.sessions i).sessionId ≠ 0) :
    ∃ f₁ result, f.handleEvent now (f.sessions i).sessionId (some .timeout) none =
      some (f₁, result) ∧ Checked [i] f f₁ ∧ f₁.sessions i = (f.sessions i).timedOut now := by
  have hmoves : Moves _ f _ := .change (i := i) rfl (sessionId_timedOut (f.sessions i) now)
    (calm_timedOut (h.calm i) now)
  refine ⟨_, (f.sessions i).currentState = .default, ?_, .of_moves h hi hmoves, update_self ..⟩
  rcases (h.calm i).state with hstate | hstate
  · simp [Fsm.handleEvent, h.initialized, findSession_of_live h hi, SessionContext.react, hstate,
      stateTransitions, handleDefaultTimeout, SessionContext.timedOut, SessionContext.clear]
  · simp [Fsm.handleEvent, h.initialized, findSession_of_live h hi, SessionContext.react, hstate,
      stateTransitions, SessionContext.timedOut]

theorem checkSession_spec (h : Sound f) (now : UInt32) (i : Fin 16) :
    ∃ f', Fsm.checkSession now f i = some f' ∧ Checked [i] f f' ∧
      ((f.sessions i).sessionId ≠ 0 →
        now - (f.sessions i).lastActivityTime > f.config.s3TimeoutMs → f'.sessions i =
          if f.config.autoSessionCleanup then .zero else (f.sessions i).timedOut now) := by
  by_cases hi : (f.sessions i).sessionId = 0
  · exact ⟨f, if_pos hi, .refl h [i], absurd hi⟩
  · obtain ⟨f₁, result, hevent, hchecked, hslot⟩ := handleEvent_timeout h now hi
    have hi₁ : (f₁.sessions i).sessionId ≠ 0 := by rwa [hslot, sessionId_timedOut]
    have hgone := Checked.of_moves hchecked.sound hi₁ (destroySession_moves f₁ _)
    unfold Fsm.checkSession
    simp only [if_neg hi, hevent, bind_eq_bind, bind_some, map_some, hchecked.config]
    generalize (if (f.sessions i).routineActive = true then f.config.p2StarTimeoutMs
      else f.config.p2TimeoutMs) = timeout
    split
    · split
      · refine ⟨_, rfl, ⟨hgone.sound, hgone.next.trans hchecked.next,
          hgone.config.trans hchecked.config, fun k hk => ?_⟩, fun _ _ => ?_⟩
        · exact (hgone.spares k hk).trans (hchecked.spares k hk)
        · rw [destroySession_live hchecked.sound hi₁]
          exact update_self ..
      · exact ⟨f₁, rfl, hchecked, fun _ _ => hslot⟩
    case isFalse hquiet =>
      split
      · split
        · exact ⟨f₁, rfl, hchecked, fun _ hs3 => absurd hs3 hquiet⟩
        · exact ⟨f, rfl, .refl h [i], fun _ hs3 => absurd hs3 hquiet⟩
      · exact ⟨f, rfl, .refl h [i], fun _ hs3 => absurd hs3 hquiet⟩

theorem foldlM_checkSession (now : UInt32) (slots : List (Fin 16)) : ∀ {f : Fsm}, Sound f →
    ∃ f', slots.foldlM (Fsm.checkSession now) f = some f' ∧ Checked slots f f' := by
  induction slots with
  | nil =>
    intro f h
    exact ⟨f, rfl, .refl h []⟩
  | cons i rest ih =>
    intro f h
    obtain ⟨f₁, hbody, h₁, -⟩ := checkSession_spec h now i
    obtain ⟨f₂, hrest, h₂⟩ := ih h₁.sound
    refine ⟨f₂, ?_, h₁.trans h₂⟩
    rw [foldlM_cons, hbody]
    exact hrest

theorem processTimeouts_spec (h : Sound f) (now : UInt32) :
    ∃ f', f.processTimeouts now = some f' ∧ Sound f' ∧ f'.nextSessionId = f.nextSessionId := by
  unfold Fsm.processTimeouts
  split
  · exact ⟨f, rfl, h, rfl⟩
  · split
    · exact ⟨f, rfl, h, rfl⟩
    · have hmarked : Sound { f with lastTimeoutCheck := now } :=
        ⟨h.initialized, h.count, h.distinct, h.calm, h.below⟩
      obtain ⟨f', hloop, hchecked⟩ := foldlM_checkSession now (List.finRange 16) hmarked
      exact ⟨f', hloop, hchecked.sound, hchecked.next⟩

theorem createSession_spec (h : Sound f) (now : UInt32) (target : Bool) :
    f.createSession now target = (f, none) ∧ (target = true → ¬ (live f).card < 16) ∨
    ∃ i ctx, (live f).card < 16 ∧ (f.sessions i).sessionId = 0 ∧
      ctx.sessionId = f.nextSessionId ∧ ctx.currentState = .default ∧ ctx.securityLevel = 0 ∧
      f.createSession now target = ({ f with
          sessions := update f.sessions i ctx, nextSessionId := f.nextSessionId + 1,
          activeSessions := f.activeSessions + 1 }, some f.nextSessionId) := by
  cases target with
  | false =>
    refine .inl ⟨?_, nofun⟩
    rw [Fsm.createSession, Bool.not_false, Bool.or_true, if_pos rfl]
  | true =>
    have hstart : ¬ (!f.initialized || !true) = true := by
      rw [h.initialized]
      exact Bool.false_ne_true
    have hfull : f.activeSessions ≥ 16 ↔ ¬ (live f).card < 16 := by
      rw [ge_iff_le, UInt32.le_iff_toNat_le, h.count, Nat.not_lt]
      rfl
    unfold Fsm.createSession
    rw [if_neg hstart]
    split
    case isTrue hmax => exact .inl ⟨rfl, fun _ => hfull.mp hmax⟩
    case isFalse hmax =>
      have hroom : (live f).card < 16 := not_not.mp (mt hfull.mpr hmax)
      cases hfree : Slots.firstFree (inUse f.sessions) with
      | none => exact absurd (Slots.card_used_of_firstFree_none hfree) hroom.ne
      | some i =>
        refine .inr ⟨i, _, hroom, inUse_eq_false.mp (Slots.firstFree_some hfree), rfl, rfl, ?_, rfl⟩
        exact (h.calm i).level

/-- The log and the table: as many ids were given as the next one says, all of them below it. -/
structure Sane (x : List Entry × Fsm) : Prop where
  sound : Sound x.2
  calls : Historically Right x.1
  next : x.2.nextSessionId.toNat = creations x.1 + 1
  given : ∀ e ∈ x.1, ∀ id ∈ e.output.created, id.toNat < x.2.nextSessionId.toNat

theorem Sane.kept {x : List Entry × Fsm} (h : Sane x) : Kept x := by
  refine ⟨h.sound.count, ?_, h.calls⟩
  intro i hi j _ heq
  exact h.sound.distinct i j (mem_live.mp hi) heq

theorem sane_init (f : Fsm) (now : UInt32) (config : SessionFSMConfig) :
    Sane ([], (f.init now (some config)).1) := by
  refine ⟨⟨rfl, ?_, ?_, fun _ => calm_zero, fun _ => Nat.zero_lt_one⟩, trivial, rfl, ?_⟩
  · rfl
  · intro i _ hi
    exact absurd rfl hi
  · intro e he
    cases he

variable {x : List Entry × Fsm}

theorem Sane.quiet (h : Sane x) {f' : Fsm} (hf' : Sound f')
    (hnext : f'.nextSessionId = x.2.nextSessionId)
    (hright : Right ⟨x.2, call, ⟨answer, none⟩, f'⟩ x.1) :
    Sane (⟨x.2, call, ⟨answer, none⟩, f'⟩ :: x.1, f') := by
  refine ⟨hf', ⟨hright, h.calls⟩, ?_, ?_⟩
  · rw [hnext, h.next]
    rfl
  · intro e he id hid
    rw [hnext]
    rcases mem_cons.mp he with rfl | he
    · cases hid
    · exact h.given e he id hid

theorem Sane.moves (h : Sane x) {f' : Fsm}
    (hmoves : Moves id x.2 f') (hconcerns : ∀ id', call.2.Concerns id' ↔ id' = id)
    (hcreate : ∀ target, call.2 ≠ .createSession target) :
    Sane (⟨x.2, call, ⟨answer, none⟩, f'⟩ :: x.1, f') := by
  refine h.quiet (hmoves.sound h.sound) hmoves.next ⟨?_, ?_, ?_, ?_⟩
  · exact fun hcall => absurd hcall (hcreate true)
  · exact fun target hcall => absurd hcall (hcreate target)
  · intro id hid
    cases hid
  · intro i _ hother
    exact hmoves.spares (mt (hconcerns _).mpr hother)

theorem Sane.create (h : Sane x) (now : UInt32) (target : Bool)
    (hfew : ∀ x' o, logged step x (now, .createSession target) = some (x', o) →
      creations x'.1 < 4294967295) :
    ∃ f' o, step x.2 (now, .createSession target) = some (f', o) ∧
      Sane (⟨x.2, (now, .createSession target), o, f'⟩ :: x.1, f') := by
  refine ⟨_, _, rfl, ?_⟩
  have hsmall := hfew _ _ (logged_eq rfl)
  rcases createSession_spec h.sound now target with
    ⟨hcall, hfull⟩ | ⟨i, ctx, hroom, hfree, hid, hstate, hlevel, hcall⟩
  · rw [hcall]
    refine h.quiet h.sound rfl ⟨?_, fun _ _ => rfl, ?_, fun _ _ _ => rfl⟩
    · rintro ⟨⟩
      exact iff_of_false Bool.false_ne_true (hfull rfl)
    · intro id hid
      cases hid
  · rw [hcall] at hsmall ⊢
    have hcount : ∀ f', creations (⟨x.2, (now, .createSession target),
        ⟨true, some x.2.nextSessionId⟩, f'⟩ :: x.1) = creations x.1 + 1 :=
      fun _ => countP_cons_of_pos rfl
    have hbound : x.2.nextSessionId.toNat + 1 < 4294967296 := by
      rw [h.next, ← hcount]
      exact Nat.succ_lt_succ hsmall
    have hnext := toNat_succ hbound
    have hslot : update x.2.sessions i ctx i = ctx := update_self ..
    refine ⟨h.sound.add hfree hbound hid ⟨.inl hstate, hlevel⟩,
      ⟨⟨fun _ => iff_of_true rfl hroom, fun _ _ => rfl, ?_, ?_⟩, h.calls⟩, ?_, ?_⟩
    · rintro _ ⟨⟩
      refine ⟨?_, ?_, ?_, i, hfree, ?_, ?_, ?_⟩
      · intro hzero
        have hpos := h.next
        rw [hzero] at hpos
        cases hpos
      · intro e he hgiven
        exact Nat.lt_irrefl _ (h.given e he _ hgiven)
      · intro j heq
        exact Nat.lt_irrefl _ (heq ▸ h.sound.below j)
      · exact (congrArg SessionContext.sessionId hslot).trans hid
      · exact (congrArg SessionContext.currentState hslot).trans hstate
      · exact (congrArg SessionContext.securityLevel hslot).trans hlevel
    · intro j hj _
      refine update_of_ne ?_ ..
      rintro rfl
      exact mem_live.mp hj hfree
    · exact hnext.trans (congrArg Nat.succ (h.next.trans (hcount _).symm))
    · intro e he id' hid'
      rw [hnext]
      rcases mem_cons.mp he with rfl | he
      · cases hid'
        exact Nat.lt_succ_self _
      · exact Nat.lt_succ_of_lt (h.given e he id' hid')

/-- Every call that is answered keeps the log and the table in order; only a request without a
first byte is not answered. -/
theorem Sane.step (h : Sane x) (call : UInt32 × Call)
    (hfew : ∀ x' o, logged step x call = some (x', o) → creations x'.1 < 4294967295)
    (hread : call.2.Readable ∨ (logged step x call).isSome) :
    ∃ x' o, logged step x call = some (x', o) ∧ Sane x' := by
  obtain ⟨now, call⟩ := call
  cases call with
  | createSession target =>
    obtain ⟨f', o, hstep, hnext⟩ := h.create now target hfew
    exact ⟨_, o, logged_eq hstep, hnext⟩
  | destroySession id =>
    refine ⟨_, _, logged_eq rfl, ?_⟩
    exact h.moves (destroySession_moves x.2 id) (fun _ => Iff.rfl) fun _ => Call.noConfusion
  | updateActivity id =>
    refine ⟨_, _, logged_eq rfl, ?_⟩
    exact h.moves (updateActivity_moves h.sound now id) (fun _ => Iff.rfl)
      fun _ => Call.noConfusion
  | processTimeouts =>
    obtain ⟨f', hcall, hf', hnext⟩ := processTimeouts_spec h.sound now
    have hstep : SessionFsm.step x.2 (now, .processTimeouts) = some (f', ⟨true, none⟩) := by
      rw [SessionFsm.step, hcall, map_some]
    refine ⟨_, _, logged_eq hstep, h.quiet hf' hnext
      ⟨fun hcall => ?_, fun _ hcall => ?_, fun _ hid => ?_, ?_⟩⟩
    · cases hcall
    · cases hcall
    · cases hid
    · exact fun _ _ hother => absurd trivial hother
  | handleEvent id event data =>
    rcases handleEvent_moves h.sound now id event data with
      ⟨hnone, hevent, hdata⟩ | ⟨f', result, hcall, hmoves⟩
    · have hstop : logged SessionFsm.step x (now, .handleEvent id event data) = none := by
        rw [logged, SessionFsm.step, hnone, map_none, map_none]
      rcases hread with hread | hsome
      · have hbyte := hread hevent
        rw [hdata] at hbyte
        cases hbyte
      · rw [hstop] at hsome
        cases hsome
    · have hstep : SessionFsm.step x.2 (now, .handleEvent id event data) =
          some (f', ⟨result, none⟩) := by
        rw [SessionFsm.step, hcall, map_some]
      refine ⟨_, _, logged_eq hstep, ?_⟩
      exact h.moves hmoves (fun _ => Iff.rfl) fun _ => Call.noConfusion

/-- Fewer than 2^32 - 1 sessions are created all the way. -/
def Few (f : Fsm) (calls : List (UInt32 × Call)) : Prop :=
  Along (logged step)
    (fun x call => ∀ x' o, logged step x call = some (x', o) → creations x'.1 < 4294967295)
    ([], f) calls

theorem few_of_length (f : Fsm) (h : calls.length < 4294967295) : Few f calls := by
  suffices hall : ∀ (calls : List (UInt32 × Call)) (x : List Entry × Fsm),
      x.1.length + calls.length < 4294967295 → Along (logged step)
        (fun x call => ∀ x' o, logged step x call = some (x', o) → creations x'.1 < 4294967295)
        x calls by
    refine hall calls ([], f) ?_
    rwa [length_nil, Nat.zero_add]
  intro calls
  induction calls with
  | nil => exact fun _ _ => trivial
  | cons call rest ih =>
    intro x hlength
    -- one entry more in the log, one call less to make
    have hlonger : ∀ x' o, logged step x call = some (x', o) →
        x'.1.length + rest.length < 4294967295 := by
      intro x' o hstep
      obtain ⟨s', -, rfl⟩ := logged_iff.mp hstep
      rwa [length_cons, Nat.add_right_comm]
    refine ⟨fun x' o hstep => ?_, fun x' o hstep => ih x' (hlonger x' o hstep)⟩
    exact Nat.lt_of_le_of_lt (countP_le_length.trans (Nat.le_add_right ..))
      (hlonger x' o hstep)

theorem sane_of_run {f : Fsm} (h : Sane ([], f)) (hfew : Few f calls)
    {x : List Entry × Fsm} {os : List Outcome}
    (hrun : run (logged step) ([], f) calls = some (x, os)) :
    Sane x := by
  obtain ⟨t, ts, hrun', ht⟩ := run_along (fun _ x => Sane x)
    (fun _ x call h hok => h.step call hok.1 (.inr hok.2)) calls [] h
    (along_and hfew (along_isSome_of_run hrun))
  cases hrun'.symm.trans hrun
  exact ht

/-- The table is in order after every run of calls since the start, with any ids and events, in
which fewer than 2^32 - 1 sessions are created; and every run is answered in which the requests
can be read. -/
theorem sessions_kept (f : Fsm) (now : UInt32) (config : SessionFSMConfig)
    (calls : List (UInt32 × Call)) (hfew : Few (f.init now (some config)).1 calls) :
    (∀ x os, run (logged step) ([], (f.init now (some config)).1) calls = some (x, os) → Kept x) ∧
      ((∀ call ∈ calls, call.2.Readable) →
        (run (logged step) ([], (f.init now (some config)).1) calls).isSome) := by
  have hstart := sane_init f now config
  constructor
  · exact fun x os hrun => (sane_of_run hstart hfew hrun).kept
  · intro hread
    obtain ⟨t, ts, hrun, -⟩ := run_along (fun _ x => Sane x)
      (fun _ x call h hok => h.step call hok.1 (.inl hok.2)) calls [] hstart
      (along_and hfew (along_of_forall hread))
    exact isSome_iff_exists.mpr ⟨_, hrun⟩

def cleanup : SessionFSMConfig := ⟨50, 5000, 100, 3, true, false, true⟩

def off : Fsm := ⟨fun _ => .zero, cleanup, 0, 0, 0, false⟩

def afterRequest : List (UInt32 × Call) :=
  [(5, .handleEvent 0 (some .request) (some [0x10])), (7, .createSession true),
    (200, .processTimeouts), (210, .destroySession 1), (220, .createSession true)]

theorem sessions_kept_after_request :
    ∃ x os, run (logged step) ([], (off.init 0 (some cleanup)).1) afterRequest = some (x, os) ∧
      Kept x := by
  obtain ⟨hkept, hanswered⟩ := sessions_kept off 0 cleanup afterRequest
    (few_of_length _ (by decide))
  have hread : ∀ call ∈ afterRequest, call.2.Readable := by
    refine forall_mem_cons.mpr ⟨fun _ => rfl, ?_⟩
    iterate 4 refine forall_mem_cons.mpr ⟨trivial, ?_⟩
    exact forall_mem_nil _
  obtain ⟨⟨x, os⟩, hrun⟩ := isSome_iff_exists.mp (hanswered hread)
  exact ⟨x, os, hrun, hkept x os hrun⟩

/-! ## Silent sessions -/

/-- The slot holds no session, or one that is back where sessions begin. -/
def Ended (f : Fsm) (i : Fin 16) : Prop :=
  (f.sessions i).sessionId = 0 ∨
    (f.sessions i).currentState = .default ∧ (f.sessions i).securityLevel = 0 ∧
      (f.sessions i).pendingDid = 0 ∧ (f.sessions i).pendingRoutine = 0 ∧
      (f.sessions i).routineActive = false

theorem processTimeouts_slot (h : Sound f) (hcheck : ¬ now - f.lastTimeoutCheck < 100) (i : Fin 16)
    (hi : (f.sessions i).sessionId ≠ 0)
    (hsilent : now - (f.sessions i).lastActivityTime > f.config.s3TimeoutMs) :
    ∃ f', f.processTimeouts now = some f' ∧ f'.sessions i =
      if f.config.autoSessionCleanup then .zero else (f.sessions i).timedOut now := by
  obtain ⟨before, after, hslots⟩ := append_of_mem (mem_finRange i)
  have hnodup := nodup_finRange 16
  rw [hslots] at hnodup
  have hbefore : i ∉ before := fun hmem =>
    (nodup_append.mp hnodup).2.2 i hmem i mem_cons_self rfl
  have hafter : i ∉ after := (nodup_cons.mp (nodup_append.mp hnodup).2.1).1
  have hmarked : Sound { f with lastTimeoutCheck := now } :=
    ⟨h.initialized, h.count, h.distinct, h.calm, h.below⟩
  obtain ⟨f₁, hloop₁, h₁⟩ := foldlM_checkSession now before hmarked
  obtain ⟨f₂, hbody, h₂, hslot⟩ := checkSession_spec h₁.sound now i
  obtain ⟨f₃, hloop₃, h₃⟩ := foldlM_checkSession now after h₂.sound
  have hsame := h₁.spares i hbefore
  rw [h₁.config, hsame] at hslot
  refine ⟨f₃, ?_, (h₃.spares i hafter).trans (hslot hi hsilent)⟩
  have hstart : ¬ (!f.initialized) = true := by simp [h.initialized]
  rw [Fsm.processTimeouts, if_neg hstart, if_neg hcheck, hslots, foldlM_append, hloop₁]
  simp only [bind_eq_bind, bind_some, foldlM_cons, hbody]
  exact hloop₃

/-- **A check of silent sessions, after every run.** A session whose last activity is more than
S3 ago is ended just when sessions are destroyed, or it was in the default state: no other state
has an entry for a timeout. -/
theorem silent_ended_iff (f : Fsm) (start : UInt32) (config : SessionFSMConfig)
    (calls : List (UInt32 × Call)) (hfew : Few (f.init start (some config)).1 calls)
    {x : List Entry × Fsm} {os : List Outcome}
    (hrun : run (logged step) ([], (f.init start (some config)).1) calls = some (x, os))
    {now last : Nat} (hcheck : ¬ .ofNat now - x.2.lastTimeoutCheck < 100) {i : Fin 16}
    (hlive : i ∈ live x.2) (hlast : (x.2.sessions i).lastActivityTime = .ofNat last)
    (hsilent : last + x.2.config.s3TimeoutMs.toNat < now) (hwrap : now < last + 4294967296) :
    ∃ f', x.2.processTimeouts (.ofNat now) = some f' ∧
      (Ended f' i ↔ x.2.config.autoSessionCleanup ∨ (x.2.sessions i).currentState = .default) := by
  have hsound := (sane_of_run (sane_init f start config) hfew hrun).sound
  have hi := mem_live.mp hlive
  have hover : UInt32.ofNat now - (x.2.sessions i).lastActivityTime > x.2.config.s3TimeoutMs := by
    rw [hlast, gt_iff_lt, UInt32.lt_iff_toNat_lt, UInt32.toNat_sub, UInt32.toNat_ofNat',
      UInt32.toNat_ofNat']
    omega
  obtain ⟨f', hcall, hslot⟩ := processTimeouts_slot hsound hcheck i hi hover
  refine ⟨f', hcall, ?_⟩
  rw [Ended, hslot]
  by_cases hauto : x.2.config.autoSessionCleanup = true
  · rw [if_pos hauto]
    exact iff_of_true (.inl rfl) (.inl hauto)
  · rw [if_neg hauto, SessionContext.timedOut]
    by_cases hstate : (x.2.sessions i).currentState = .default
    · rw [if_pos hstate]
      exact iff_of_true (.inr ⟨hstate, rfl, rfl, rfl, rfl⟩) (.inr hstate)
    · rw [if_neg hstate]
      exact iff_of_false (fun h => h.elim hi fun h => hstate h.1) (fun h => h.elim hauto hstate)

def extendedSilent : List (UInt32 × Call) :=
  [(5, .createSession true), (7, .handleEvent 1 (some .request) (some [0x10]))]

theorem silent_ended_with_cleanup :
    ∃ x os f', run (logged step) ([], (off.init 0 (some cleanup)).1) extendedSilent = some (x, os) ∧
      x.2.processTimeouts 200 = some f' ∧ Ended f' 0 := by
  obtain ⟨f', hcall, hiff⟩ := silent_ended_iff off 0 cleanup extendedSilent
    (few_of_length _ (by decide)) rfl (i := 0) (by decide : ¬ UInt32.ofNat 200 - 0 < 100)
    (by decide) (rfl : _ = UInt32.ofNat 7) (by decide) (by decide)
  exact ⟨_, _, f', rfl, hcall, hiff.mpr (.inl rfl)⟩

/-- Without the cleanup it stays extended. -/
theorem silent_stays_extended :
    ∃ x os f', run (logged step)
        ([], (off.init 0 (some { cleanup with autoSessionCleanup := false })).1) extendedSilent =
          some (x, os) ∧
      x.2.processTimeouts 200 = some f' ∧ (f'.sessions 0).currentState = .extended ∧
      ¬ Ended f' 0 := by
  refine ⟨_, _, _, rfl, rfl, rfl, ?_⟩
  rintro (hfree | ⟨hstate, -⟩)
  · cases hfree
  · cases hstate

end Cant.Diagnostic.SessionFsm
