/-
# `FlowMonitor` — checkpoints in sequence (`flow_monitor.c`)

An index outside `checkpoints` or `call_stack` makes a call answer `none`. The first is
never met; the second is, where `max_stack_depth` is more than the 32 entries there are.

`current_checkpoint` is zero when no checkpoint has been passed, and also when checkpoint 0
has: then the monitor lets every checkpoint follow. `sequence_kept_iff` says that this and
the stack are all that goes wrong.
-/
import Cant.Lib.Buf
import Cant.Lib.Past
import Cant.Utils.Timer

namespace Cant.Safety

open Past Run List Option

inductive FlowCheckpointType where
  | start | «end» | branch | loop | call | «return»
  deriving DecidableEq

inductive FlowMonitorResult where
  | ok | errorSequence | errorTiming | errorRecursion | errorStack | errorConfig
  deriving DecidableEq

/-- `FlowCheckpointConfig`, without `checkpoint_id`, which nothing reads. -/
structure FlowCheckpointConfig where
  type : FlowCheckpointType
  expectedNext : UInt32
  alternateNext : UInt32
  maxTimeMs : UInt32
  minTimeMs : UInt32

/-- `FlowMonitorConfig`, without `max_recursion_depth`, which nothing reads; of the callback
only whether it is set. -/
structure FlowMonitorConfig where
  checkpoints : List FlowCheckpointConfig
  maxStackDepth : UInt32
  errorCallback : Bool

structure FlowMonitor where
  config : FlowMonitorConfig
  currentCheckpoint : UInt32
  totalErrors : UInt32
  callStack : Buf UInt32 32
  stackDepth : UInt32
  checkpointTimer : Timer
  initialized : Bool

/-- What a call answers, and what the callback is told. -/
structure FlowOutcome where
  result : FlowMonitorResult
  told : Option (FlowMonitorResult × UInt32)

def isValidTransition (config : FlowMonitorConfig) (fromId toId : UInt32) : Option Bool :=
  config.checkpoints[fromId.toNat]?.map fun c => toId == c.expectedNext || toId == c.alternateNext

namespace FlowMonitor

/-- `Flow_Monitor_Init`; `none` is a null configuration or a null table. -/
def init (m : FlowMonitor) (config : Option FlowMonitorConfig) : FlowMonitor × Bool :=
  match config with
  | none => (m, false)
  | some config =>
    if config.checkpoints.isEmpty then (m, false)
    else (⟨config, 0, 0, Buf.fill 32 0, 0, .idle, true⟩, true)

def validateCheckpointId (m : FlowMonitor) (id : UInt32) : Bool :=
  id.toNat < m.config.checkpoints.length

/-- `handle_error`, and the answer. -/
def handleError (m : FlowMonitor) (result : FlowMonitorResult) (id : UInt32) :
    FlowMonitor × FlowOutcome :=
  ({ m with totalErrors := m.totalErrors + 1 },
    ⟨result, if m.config.errorCallback then some (result, id) else none⟩)

def sequenceValid (m : FlowMonitor) (id : UInt32) : Option Bool :=
  if m.currentCheckpoint = 0 then some true
  else isValidTransition m.config m.currentCheckpoint id

def timingValid (m : FlowMonitor) (now : Nat) (c : FlowCheckpointConfig) : Bool :=
  if c.minTimeMs > 0 || c.maxTimeMs > 0 then
    let elapsed := m.checkpointTimer.remaining (Timer.ticks now)
    !(elapsed < c.minTimeMs.toNat || elapsed > c.maxTimeMs.toNat)
  else true

/-- Whether the switch goes on to change the stack. -/
def stackAllows (m : FlowMonitor) (c : FlowCheckpointConfig) : Bool :=
  match c.type with
  | .call => m.stackDepth < m.config.maxStackDepth
  | .return => m.stackDepth ≠ 0
  | _ => true

def handleStack (m : FlowMonitor) (c : FlowCheckpointConfig) : Option FlowMonitor :=
  match c.type with
  | .call => do
    let stack ← m.callStack.blit m.stackDepth.toNat [m.currentCheckpoint]
    some { m with callStack := stack, stackDepth := m.stackDepth + 1 }
  | .return => some { m with stackDepth := m.stackDepth - 1 }
  | _ => some m

def checkpoint (now : Nat) (m : FlowMonitor) (id : UInt32) : Option (FlowMonitor × FlowOutcome) :=
  if !m.initialized || !m.validateCheckpointId id then some (m, ⟨.errorConfig, none⟩)
  else do
    let c ← m.config.checkpoints[id.toNat]?
    let valid ← m.sequenceValid id
    if !valid then some (m.handleError .errorSequence id)
    else if !m.timingValid now c then some (m.handleError .errorTiming id)
    else if !m.stackAllows c then some (m.handleError .errorStack id)
    else do
      let m ← m.handleStack c
      some ({ m with
        currentCheckpoint := id
        checkpointTimer := .start (Timer.ticks now) c.maxTimeMs.toNat }, ⟨.ok, none⟩)

/-! ## What a log shows -/

abbrev Entry := Taken (Nat × FlowMonitor) (Nat × UInt32) FlowOutcome

def lastAccepted : List Entry → Option UInt32
  | [] => none
  | e :: past => if e.output.result = .ok then some e.input.2 else lastAccepted past

/-- The table lets `b` follow `a`. -/
def Follows (config : FlowMonitorConfig) (a b : UInt32) : Prop :=
  ∃ c ∈ config.checkpoints[a.toNat]?, b = c.expectedNext ∨ b = c.alternateNext
  deriving Decidable

def Unchanged (m m' : FlowMonitor) : Prop :=
  m'.currentCheckpoint = m.currentCheckpoint ∧ m'.callStack = m.callStack ∧
    m'.stackDepth = m.stackDepth ∧ m'.checkpointTimer = m.checkpointTimer

def InSequence (config : FlowMonitorConfig) (e : Entry) (past : List Entry) : Prop :=
  if e.output.result = .ok then ∀ a ∈ lastAccepted past, Follows config a e.input.2
  else Unchanged e.pre.2 e.post.2

def accepts (m : FlowMonitor) (now : Nat) (id : UInt32) : Bool :=
  m.config.checkpoints[id.toNat]?.any fun c =>
    m.sequenceValid id == some true && m.timingValid now c && m.stackAllows c

def hasRoom (m : FlowMonitor) (id : UInt32) : Bool :=
  m.config.checkpoints[id.toNat]?.all fun c => c.type ≠ .call || m.stackDepth.toNat < 32

section

variable {m : FlowMonitor} {now : Nat} {id : UInt32}

theorem isValidTransition_iff {config : FlowMonitorConfig} {a b : UInt32} :
    isValidTransition config a b = some true ↔ Follows config a b := by
  unfold isValidTransition Follows
  cases config.checkpoints[a.toNat]? with
  | none | some c => simp

theorem sequenceValid_isSome (id : UInt32)
    (hcurrent : m.currentCheckpoint.toNat < m.config.checkpoints.length) :
    ∃ valid, m.sequenceValid id = some valid := by
  unfold sequenceValid isValidTransition
  split
  · exact ⟨true, rfl⟩
  · rw [getElem?_eq_getElem hcurrent]
    exact ⟨_, rfl⟩

theorem handleStack_spec (m : FlowMonitor) (c : FlowCheckpointConfig) :
    if c.type = .call ∧ 32 ≤ m.stackDepth.toNat then m.handleStack c = none
    else ∃ stack depth,
      m.handleStack c = some { m with callStack := stack, stackDepth := depth } := by
  unfold handleStack
  cases htype : c.type with
  | call =>
    by_cases hfull : 32 ≤ m.stackDepth.toNat
    · have hnone : m.callStack.blit m.stackDepth.toNat [m.currentCheckpoint] = none :=
        dif_neg (by rw [length_singleton]; omega)
      rw [if_pos ⟨rfl, hfull⟩, hnone]
      rfl
    · obtain ⟨stack, hblit, -⟩ := m.callStack.blit_eq_some m.stackDepth.toNat
        [m.currentCheckpoint] (by rw [length_singleton]; omega)
      rw [if_neg fun h => hfull h.2, hblit]
      exact ⟨stack, m.stackDepth + 1, rfl⟩
  | «return» => exact ⟨m.callStack, m.stackDepth - 1, rfl⟩
  | start | «end» | branch | loop => exact ⟨m.callStack, m.stackDepth, rfl⟩

theorem checkpoint_refused
    (hcurrent : m.currentCheckpoint.toNat < m.config.checkpoints.length)
    (h : m.accepts now id = false) :
    ∃ errors o, m.checkpoint now id = some ({ m with totalErrors := errors }, o) ∧
      o.result ≠ .ok := by
  unfold checkpoint
  split
  · exact ⟨m.totalErrors, _, rfl, by decide⟩
  case isFalse hvalid =>
    simp only [Bool.or_eq_true, not_or, Bool.not_eq_true', Bool.not_eq_false,
      validateCheckpointId, decide_eq_true_eq] at hvalid
    obtain ⟨valid, hsequence⟩ := sequenceValid_isSome id hcurrent
    rw [accepts, getElem?_eq_getElem hvalid.2, hsequence] at h
    rw [getElem?_eq_getElem hvalid.2, hsequence]
    simp only [bind_eq_bind, bind_some]
    split
    · exact ⟨_, _, rfl, nofun⟩
    case isFalse hseq =>
      split
      · exact ⟨_, _, rfl, nofun⟩
      case isFalse htime =>
        split
        · exact ⟨_, _, rfl, nofun⟩
        case isFalse hstack =>
          simp only [Bool.not_eq_true', Bool.not_eq_false] at hseq htime hstack
          simp only [hseq, htime, hstack, any_some, beq_self_eq_true, Bool.and_self] at h
          cases h

section

variable (hinit : m.initialized = true)
include hinit

section

variable (h : m.accepts now id = true)
include h

theorem checkpoint_accepted :
    ∃ c, m.config.checkpoints[id.toNat]? = some c ∧ m.sequenceValid id = some true ∧
      m.checkpoint now id = (m.handleStack c).map fun m' : FlowMonitor =>
        ({ m' with
          currentCheckpoint := id
          checkpointTimer := .start (Timer.ticks now) c.maxTimeMs.toNat }, ⟨.ok, none⟩) := by
  unfold accepts at h
  cases hc : m.config.checkpoints[id.toNat]? with
  | none =>
    rw [hc] at h
    cases h
  | some c =>
    simp only [hc, any_some, Bool.and_eq_true, beq_iff_eq] at h
    obtain ⟨⟨hsequence, htiming⟩, hstack⟩ := h
    have hlt : id.toNat < m.config.checkpoints.length := (List.getElem?_eq_some_iff.mp hc).1
    refine ⟨c, rfl, hsequence, ?_⟩
    simp only [checkpoint, hinit, validateCheckpointId, hlt, hc, hsequence, htiming, hstack,
      decide_true, Bool.not_true, Bool.or_self, Bool.false_eq_true, if_false,
      bind_eq_bind, bind_some]
    cases m.handleStack c with
    | none | some m' => rfl

theorem checkpoint_overflow
    (hroom : m.hasRoom id = false) : m.checkpoint now id = none := by
  obtain ⟨c, hc, -, hcall⟩ := checkpoint_accepted hinit h
  rw [hasRoom, hc] at hroom
  simp only [all_some, Bool.or_eq_false_iff, decide_eq_false_iff_not, ne_eq, not_not,
    Nat.not_lt] at hroom
  have hstack := handleStack_spec m c
  rw [if_pos hroom] at hstack
  rw [hcall, hstack]
  rfl

theorem checkpoint_ok
    (hroom : m.hasRoom id = true) :
    ∃ stack depth timer, m.checkpoint now id = some
      ({ m with
        callStack := stack, stackDepth := depth, currentCheckpoint := id,
        checkpointTimer := timer }, ⟨.ok, none⟩) := by
  obtain ⟨c, hc, -, hcall⟩ := checkpoint_accepted hinit h
  rw [hasRoom, hc] at hroom
  simp only [all_some, Bool.or_eq_true, decide_eq_true_eq, ne_eq] at hroom
  have hnot : ¬ (c.type = .call ∧ 32 ≤ m.stackDepth.toNat) := by
    rintro ⟨htype, hfull⟩
    rcases hroom with hother | hlt
    · exact hother htype
    · exact Nat.not_le.mpr hlt hfull
  have hstack := handleStack_spec m c
  rw [if_neg hnot] at hstack
  obtain ⟨stack, depth, hsome⟩ := hstack
  refine ⟨stack, depth, .start (Timer.ticks now) c.maxTimeMs.toNat, ?_⟩
  rw [hcall, hsome]
  rfl

end

theorem checkpoint_defined_iff
    (hcurrent : m.currentCheckpoint.toNat < m.config.checkpoints.length) :
    (∃ m' o, m.checkpoint now id = some (m', o)) ↔
      (m.accepts now id = true → m.hasRoom id = true) := by
  cases haccepts : m.accepts now id with
  | false =>
    obtain ⟨errors, o, hcall, -⟩ := checkpoint_refused hcurrent haccepts
    exact iff_of_true ⟨_, o, hcall⟩ nofun
  | true =>
    cases hroom : m.hasRoom id with
    | false =>
      refine iff_of_false ?_ fun h => absurd (h rfl) Bool.false_ne_true
      rintro ⟨m', o, hcall⟩
      rw [checkpoint_overflow hinit haccepts hroom] at hcall
      cases hcall
    | true =>
      obtain ⟨stack, depth, timer, hcall⟩ := checkpoint_ok hinit haccepts hroom
      exact iff_of_true ⟨_, _, hcall⟩ fun _ => rfl

theorem follows_of_accepts (h : m.accepts now id = true)
    (hcurrent : m.currentCheckpoint ≠ 0) : Follows m.config m.currentCheckpoint id := by
  obtain ⟨c, -, hsequence, -⟩ := checkpoint_accepted hinit h
  rw [sequenceValid, if_neg hcurrent] at hsequence
  exact isValidTransition_iff.mp hsequence

end

theorem stackAllows_of_accepts {c : FlowCheckpointConfig} (h : m.accepts now id = true)
    (hc : m.config.checkpoints[id.toNat]? = some c) : m.stackAllows c = true := by
  rw [accepts, hc, any_some, Bool.and_eq_true] at h
  exact h.2

theorem lt_of_accepts (hinit : m.initialized = true) (h : m.accepts now id = true) :
    id.toNat < m.config.checkpoints.length := by
  obtain ⟨c, hc, -, -⟩ := checkpoint_accepted hinit h
  exact (List.getElem?_eq_some_iff.mp hc).1

end

/-- A call that passes its checks finds room on the stack, and names a checkpoint that may
follow checkpoint 0 if that was the last. -/
def Regular (config : FlowMonitorConfig) (x : List Entry × (Nat × FlowMonitor))
    (i : Nat × UInt32) : Prop :=
  x.2.2.accepts (x.2.1 + i.1) i.2 = true →
    (lastAccepted x.1 = some 0 → Follows config 0 i.2) ∧ x.2.2.hasRoom i.2 = true
  deriving Decidable

/-- The monitor remembers the last accepted checkpoint, or zero. -/
structure Remembers (config : FlowMonitorConfig) (x : List Entry × (Nat × FlowMonitor)) : Prop where
  same : x.2.2.config = config
  initialized : x.2.2.initialized = true
  current : x.2.2.currentCheckpoint = (lastAccepted x.1).getD 0
  inTable : x.2.2.currentCheckpoint.toNat < x.2.2.config.checkpoints.length

namespace Remembers

variable {config : FlowMonitorConfig} {x : List Entry × (Nat × FlowMonitor)} {i : Nat × UInt32}

variable (h : Remembers config x)
include h

theorem follows_iff
    (haccepts : x.2.2.accepts (x.2.1 + i.1) i.2 = true) :
    (lastAccepted x.1 = some 0 → Follows config 0 i.2) ↔
      ∀ a ∈ lastAccepted x.1, Follows config a i.2 := by
  constructor
  · intro hzero a ha
    by_cases h0 : a = 0
    · rw [h0] at ha ⊢
      exact hzero ha
    · have hcurrent : x.2.2.currentCheckpoint = a := by
        rw [h.current, mem_def.mp ha, getD_some]
      rw [← h.same, ← hcurrent]
      exact follows_of_accepts h.initialized haccepts (hcurrent.symm ▸ h0)
  · intro hall hzero
    exact hall 0 hzero

theorem regular_iff :
    Regular config x i ↔ ∃ s' o, timed checkpoint x.2 i = some (s', o) ∧
      InSequence config ⟨x.2, i, o, s'⟩ x.1 := by
  cases haccepts : x.2.2.accepts (x.2.1 + i.1) i.2 with
  | false =>
    refine iff_of_true (fun htrue => absurd (haccepts.symm.trans htrue) Bool.false_ne_true) ?_
    obtain ⟨errors, o, hcall, hresult⟩ := checkpoint_refused h.inTable haccepts
    refine ⟨(x.2.1 + i.1, { x.2.2 with totalErrors := errors }), o, ?_, ?_⟩
    · exact timed_eq hcall
    · rw [InSequence, if_neg hresult]
      exact ⟨rfl, rfl, rfl, rfl⟩
  | true =>
    unfold Regular
    simp only [haccepts, forall_const]
    rw [h.follows_iff haccepts]
    cases hroom : x.2.2.hasRoom i.2 with
    | false =>
      refine iff_of_false (fun hok => absurd hok.2 Bool.false_ne_true) ?_
      rintro ⟨s', o, hcall, -⟩
      rw [timed, checkpoint_overflow h.initialized haccepts hroom] at hcall
      cases hcall
    | true =>
      obtain ⟨stack, depth, timer, hcall⟩ := checkpoint_ok h.initialized haccepts hroom
      simp only [timed, hcall, map_some, Option.some.injEq, Prod.mk.injEq, and_true]
      constructor
      · intro hfollows
        refine ⟨_, _, ⟨rfl, rfl⟩, ?_⟩
        exact hfollows
      · rintro ⟨s', o, ⟨-, rfl⟩, hentry⟩
        rwa [InSequence] at hentry

theorem step {s' : Nat × FlowMonitor} {o : FlowOutcome}
    (hcall : timed checkpoint x.2 i = some (s', o)) :
    Remembers config (⟨x.2, i, o, s'⟩ :: x.1, s') := by
  cases haccepts : x.2.2.accepts (x.2.1 + i.1) i.2 with
  | false =>
    obtain ⟨errors, o', hrefused, hresult⟩ := checkpoint_refused h.inTable haccepts
    rw [timed, hrefused] at hcall
    cases hcall
    refine ⟨h.same, h.initialized, ?_, h.inTable⟩
    rw [lastAccepted, if_neg hresult]
    exact h.current
  | true =>
    cases hroom : x.2.2.hasRoom i.2 with
    | false =>
      rw [timed, checkpoint_overflow h.initialized haccepts hroom] at hcall
      cases hcall
    | true =>
      obtain ⟨stack, depth, timer, hok⟩ := checkpoint_ok h.initialized haccepts hroom
      rw [timed, hok] at hcall
      cases hcall
      have hlt := lt_of_accepts h.initialized haccepts
      exact ⟨h.same, h.initialized, rfl, hlt⟩

end Remembers

theorem remembers_of_init {config : FlowMonitorConfig} {m₀ m : FlowMonitor}
    (hinit : m₀.init (some config) = (m, true)) (started : Nat) :
    Remembers config ([], (started, m)) := by
  simp only [init] at hinit
  split at hinit
  · cases hinit
  case isFalse hempty =>
    cases hinit
    refine ⟨rfl, rfl, rfl, ?_⟩
    exact length_pos_iff.mpr fun hnil => hempty (hnil ▸ rfl)

/-- **The sequence, over every run.** Of two checkpoints accepted in a row the second may follow
the first, and a refused call changes nothing, exactly in the runs whose calls are `Regular`. -/
theorem sequence_kept_iff {config : FlowMonitorConfig} {m₀ m : FlowMonitor}
    (hinit : m₀.init (some config) = (m, true)) (started : Nat) (calls : List (Nat × UInt32)) :
    Throughout (logged (timed checkpoint)) (fun x => Historically (InSequence config) x.1)
        ([], (started, m)) calls ↔
      Along (logged (timed checkpoint)) (Regular config) ([], (started, m)) calls := by
  refine historically_iff (Remembers config) ?_ ?_ calls ?_ trivial
  · exact fun x i h => h.regular_iff
  · exact fun x i s' o h _ hcall => h.step hcall
  · exact remembers_of_init hinit started

def threeSteps : FlowMonitorConfig :=
  ⟨[⟨.start, 1, 1, 0, 0⟩, ⟨.branch, 2, 2, 0, 0⟩, ⟨.end, 0, 0, 0, 0⟩], 8, false⟩

def watching (config : FlowMonitorConfig) : FlowMonitor :=
  ⟨config, 0, 0, Buf.fill 32 0, 0, .idle, true⟩

theorem sequence_kept_round :
    (watching threeSteps).init (some threeSteps) = (watching threeSteps, true) ∧
      Throughout (logged (timed checkpoint)) (fun x => Historically (InSequence threeSteps) x.1)
        ([], (0, watching threeSteps)) [(1, 0), (1, 1), (1, 0), (1, 2), (1, 0), (1, 1)] := by
  have hinit : (watching threeSteps).init (some threeSteps) = (watching threeSteps, true) := rfl
  exact ⟨hinit, (sequence_kept_iff hinit 0 _).mpr (by decide)⟩

/-- After checkpoint 0 the monitor accepts checkpoint 2. -/
theorem skipped_step_accepted :
    ¬ Follows threeSteps 0 2 ∧
      (∃ m, (watching threeSteps).checkpoint 1 0 = some (m, ⟨.ok, none⟩) ∧
        ∃ m', m.checkpoint 2 2 = some (m', ⟨.ok, none⟩)) ∧
      ¬ Throughout (logged (timed checkpoint)) (fun x => Historically (InSequence threeSteps) x.1)
        ([], (0, watching threeSteps)) [(1, 0), (1, 2)] := by
  refine ⟨by decide, ⟨_, rfl, _, rfl⟩, fun h => ?_⟩
  have hlast := h.last rfl
  exact absurd (hlast.1 0 rfl) (by decide)

end FlowMonitor

end Cant.Safety
