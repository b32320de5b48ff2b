/-
# `AliveMonitor` — supervision of tasks that report (`alive_monitor.c`)

A task is checked at each expiration of the supervision interval, once it has reported for
the first time: a task that never reports is never missed (`Watched.unreported`). For one
that has reported, a counter of 32 bits runs from whatever the reports have left in it, and
may wrap on its way; it still passes the tolerance within `tolerance_count + 2` late checks
(`Counts.late_le`).

`detected_iff_reported` is the supervision over every run.
-/
import Cant.Lib.Past
import Cant.Utils.Timer

namespace Cant.Safety

open Past Run Function List

inductive AliveState where
  | healthy | degraded | critical | failed
  deriving DecidableEq

/-- The number of the state, which the code compares. -/
def AliveState.rank : AliveState → Nat
  | .healthy => 0
  | .degraded => 1
  | .critical => 2
  | .failed => 3

/-- `AliveTaskConfig`, without `task_id` and `max_jitter_ms`, which nothing reads. -/
structure AliveTaskConfig where
  deadlineMs : UInt32
  minCycleMs : UInt32
  maxCycleMs : UInt32
  toleranceCount : UInt32
  isCritical : Bool

/-- `AliveMonitorConfig`; of the callbacks only whether they are set. -/
structure AliveMonitorConfig where
  tasks : List AliveTaskConfig
  supervisionIntervalMs : UInt32
  stateChangeCallback : Bool
  errorCallback : Bool

/-- `TaskMonitorState`, without `cycle_timer`, which nothing uses. -/
structure TaskMonitorState where
  deadlineTimer : Timer
  deadlineMisses : UInt32
  toleranceCount : UInt32
  lastExecutionTime : UInt32
  state : AliveState
  firstExecution : Bool

structure AliveMonitor where
  config : AliveMonitorConfig
  tasks : Fin 32 → TaskMonitorState
  supervisionTimer : Timer
  systemState : AliveState
  initialized : Bool

inductive AliveNotice where
  | stateChange (taskId : Nat) (newState : AliveState)
  | error (taskId : Nat) (cycleTime : UInt32)

namespace TaskMonitorState

def zero : TaskMonitorState := ⟨.idle, 0, 0, 0, .healthy, false⟩

/-- What the loop of `Alive_Monitor_Process` does for one task, and the change it tells of. -/
def check (t : TaskMonitorState) (c : AliveTaskConfig) (now : Nat) :
    TaskMonitorState × Option AliveState :=
  if !t.firstExecution && t.deadlineTimer.expired (Timer.ticks now) then
    let t := { t with
      deadlineMisses := t.deadlineMisses + 1, toleranceCount := t.toleranceCount + 1 }
    if t.toleranceCount > c.toleranceCount then
      let newState := if c.isCritical then .critical else .degraded
      if t.state ≠ newState then ({ t with state := newState }, some newState) else (t, none)
    else (t, none)
  else (t, none)

/-- The cycle check of `Alive_Monitor_ReportAlive`, with the change and the error it tells of. -/
def checkCycle (t : TaskMonitorState) (c : AliveTaskConfig) (currentTime : UInt32) :
    TaskMonitorState × Option AliveState × Option UInt32 :=
  if !t.firstExecution then
    let cycleTime := currentTime - t.lastExecutionTime
    if cycleTime < c.minCycleMs || cycleTime > c.maxCycleMs then
      let t := { t with toleranceCount := t.toleranceCount + 1 }
      if t.toleranceCount > c.toleranceCount then
        ({ t with state := .degraded }, some .degraded, some cycleTime)
      else (t, none, some cycleTime)
    else
      let changed := if t.state ≠ .healthy then some .healthy else none
      ({ t with toleranceCount := 0, state := .healthy }, changed, none)
  else (t, none, none)

/-- What `Alive_Monitor_ReportAlive` does to the task that reports. -/
def report (t : TaskMonitorState) (c : AliveTaskConfig) (now : Nat) :
    TaskMonitorState × Option AliveState × Option UInt32 :=
  let (t, told) := t.checkCycle c (.ofNat now)
  ({ t with
    lastExecutionTime := .ofNat now
    firstExecution := false
    deadlineTimer := .start (Timer.ticks now) c.deadlineMs.toNat }, told)

end TaskMonitorState

def worstState (config : AliveMonitorConfig) (tasks : Fin 32 → TaskMonitorState) : AliveState :=
  (List.finRange 32).foldl (fun worst i =>
    match config.tasks[i.val]? with
    | none => worst
    | some c =>
      if c.isCritical && worst.rank < (tasks i).state.rank then (tasks i).state else worst)
    .healthy

namespace AliveMonitor

variable {tasks : Fin 32 → TaskMonitorState}

/-- `Alive_Monitor_Init`, at clock `now`; `none` is a null configuration or a null table. -/
def init (m : AliveMonitor) (now : Nat) (config : Option AliveMonitorConfig) :
    AliveMonitor × Bool :=
  match config with
  | none => (m, false)
  | some config =>
    if config.tasks.isEmpty || 32 < config.tasks.length then (m, false)
    else
      ({ config
         tasks := fun i =>
           if i.val < config.tasks.length then { TaskMonitorState.zero with firstExecution := true }
           else .zero
         supervisionTimer := .start (Timer.ticks now) config.supervisionIntervalMs.toNat
         systemState := .healthy
         initialized := true }, true)

def checkAll (m : AliveMonitor) (now : Nat) : Fin 32 → TaskMonitorState × Option AliveState :=
  fun i =>
    match m.config.tasks[i.val]? with
    | none => (m.tasks i, none)
    | some c => (m.tasks i).check c now

def process (m : AliveMonitor) (now : Nat) : AliveMonitor × List AliveNotice :=
  if !m.initialized then (m, [])
  else if m.supervisionTimer.expired (Timer.ticks now) then
    let checked := m.checkAll now
    let tasks := fun i => (checked i).1
    ({ m with
      tasks
      systemState := worstState m.config tasks
      supervisionTimer := .start (Timer.ticks now) m.config.supervisionIntervalMs.toNat },
      if m.config.stateChangeCallback then
        (List.finRange 32).filterMap fun i => (checked i).2.map (.stateChange i.val)
      else [])
  else (m, [])

def reportAlive (m : AliveMonitor) (now : Nat) (taskId : UInt32) :
    AliveMonitor × List AliveNotice :=
  if !m.initialized then (m, [])
  else if h : taskId.toNat < 32 then
    match m.config.tasks[taskId.toNat]? with
    | none => (m, [])
    | some c =>
      let (t, change, error) := (m.tasks ⟨taskId.toNat, h⟩).report c now
      let tasks := update m.tasks ⟨taskId.toNat, h⟩ t
      ({ m with tasks, systemState := worstState m.config tasks },
        (if m.config.stateChangeCallback then
            change.toList.map (.stateChange taskId.toNat) else []) ++
          if m.config.errorCallback then error.toList.map (.error taskId.toNat) else [])
  else (m, [])

def resetStatistics (m : AliveMonitor) : AliveMonitor :=
  if !m.initialized then m
  else
    { m with
      tasks := fun i =>
        if i.val < m.config.tasks.length then
          { m.tasks i with deadlineMisses := 0, toleranceCount := 0, state := .healthy }
        else m.tasks i
      systemState := .healthy }

inductive Call where
  | process | reportAlive (taskId : UInt32) | resetStatistics
  deriving DecidableEq

def step (now : Nat) (m : AliveMonitor) : Call → Option (AliveMonitor × List AliveNotice)
  | .process => some (m.process now)
  | .reportAlive taskId => some (m.reportAlive now taskId)
  | .resetStatistics => some (m.resetStatistics, [])

/-! ## What a log shows -/

abbrev Entry := Taken (Nat × AliveMonitor) (Nat × Call) (List AliveNotice)

def IsReport (k : Fin 32) : Call → Prop
  | .reportAlive taskId => taskId.toNat = k.val
  | _ => False

instance (k : Fin 32) (call : Call) : Decidable (IsReport k call) := by
  cases call <;> unfold IsReport <;> infer_instance

def Reported (k : Fin 32) (log : List Entry) : Prop := ∃ e ∈ log, IsReport k e.input.2
  deriving Decidable

/-- When task `k` reported last, or the monitor was started. -/
def lastReport (started : Nat) (k : Fin 32) : List Entry → Nat
  | [] => started
  | e :: past => if IsReport k e.input.2 then e.post.1 else lastReport started k past

/-- When the supervision interval last expired with `Alive_Monitor_Process` there to see it, or
was started first. -/
def lastCheck (started interval : Nat) : List Entry → Nat
  | [] => started
  | e :: past =>
    if e.input.2 = .process ∧ interval ≤ e.post.1 - lastCheck started interval past then e.post.1
    else lastCheck started interval past

/-- The call at clock `now` is `Alive_Monitor_Process` at an expiration of the interval, and
task `k` has made no report for longer than its deadline. -/
def LateCheck (started interval : Nat) (k : Fin 32) (deadline : Nat) (now : Nat) (call : Call)
    (log : List Entry) : Prop :=
  call = .process ∧ interval ≤ now - lastCheck started interval log ∧
    deadline < now - lastReport started k log
  deriving Decidable

/-- How often that has happened since the last report, or since the statistics were reset. -/
def lateChecks (started interval : Nat) (k : Fin 32) (deadline : Nat) : List Entry → Nat
  | [] => 0
  | e :: past =>
    if IsReport k e.input.2 ∨ e.input.2 = .resetStatistics then 0
    else if LateCheck started interval k deadline e.post.1 e.input.2 past then
      lateChecks started interval k deadline past + 1
    else lateChecks started interval k deadline past

/-- Task `k`, with configuration `c`, is critical, and more than `tolerance_count + 1` checks
were late. -/
def Missing (config : AliveMonitorConfig) (started : Nat) (k : Fin 32) (c : AliveTaskConfig)
    (log : List Entry) : Prop :=
  c.isCritical = true ∧ c.toleranceCount.toNat + 1 <
    lateChecks started config.supervisionIntervalMs.toNat k c.deadlineMs.toNat log
  deriving Decidable

/-- A critical task that is missing is seen to be: its state and the system's are critical. -/
def Detected (config : AliveMonitorConfig) (started : Nat)
    (x : List Entry × (Nat × AliveMonitor)) : Prop :=
  ∀ k : Fin 32, ∀ c ∈ config.tasks[k.val]?, Missing config started k c x.1 →
    (x.2.2.tasks k).state = .critical ∧ x.2.2.systemState = .critical

/-- A critical task that is missing has reported before. -/
def MissedReported (config : AliveMonitorConfig) (started : Nat)
    (x : List Entry × (Nat × AliveMonitor)) : Prop :=
  ∀ k : Fin 32, ∀ c ∈ config.tasks[k.val]?, Missing config started k c x.1 → Reported k x.1
  deriving Decidable

/-- The timers have not come round: when the interval or a deadline is over, it still is
modulo `2 ^ 32`. -/
def Timely (config : AliveMonitorConfig) (started : Nat) (x : List Entry × (Nat × AliveMonitor))
    (i : Nat × Call) : Prop :=
  let now := x.2.1 + i.1
  let interval := config.supervisionIntervalMs.toNat
  (i.2 = .process → interval ≤ now - lastCheck started interval x.1 →
    interval ≤ (now - lastCheck started interval x.1) % 4294967296) ∧
  ∀ k : Fin 32, ∀ c ∈ config.tasks[k.val]?,
    LateCheck started interval k c.deadlineMs.toNat now i.2 x.1 →
      c.deadlineMs.toNat ≤ (now - lastReport started k x.1) % 4294967296
  deriving Decidable

/-! ## The counter -/

/-- The counter stands at `n` after at least `late` steps, none of which brought it above
`tolerance`. -/
def Counts (tolerance late n : Nat) : Prop :=
  ∃ n₀ d, late ≤ d ∧ n = (n₀ + d) % 4294967296 ∧
    ∀ j, 0 < j → j ≤ d → (n₀ + j) % 4294967296 ≤ tolerance

variable {late n tolerance : Nat} {config : AliveMonitorConfig}

theorem counts_zero (hn : n < 4294967296) : Counts tolerance 0 n :=
  ⟨n, 0, Nat.le_refl 0, (Nat.mod_eq_of_lt hn).symm, fun _ hj hle => absurd hle (Nat.not_le.mpr hj)⟩

section

variable (h : Counts tolerance late n)
include h

theorem Counts.mono {late' : Nat} (hle : late' ≤ late) : Counts tolerance late' n := by
  obtain ⟨n₀, d, hlate, hn, hall⟩ := h
  exact ⟨n₀, d, hle.trans hlate, hn, hall⟩

theorem Counts.succ (hn : (n + 1) % 4294967296 ≤ tolerance) :
    Counts tolerance (late + 1) ((n + 1) % 4294967296) := by
  obtain ⟨n₀, d, hlate, rfl, hall⟩ := h
  have hnext : ((n₀ + d) % 4294967296 + 1) % 4294967296 = (n₀ + (d + 1)) % 4294967296 := by omega
  refine ⟨n₀, d + 1, Nat.succ_le_succ hlate, hnext, fun j hj hle => ?_⟩
  rcases Nat.lt_or_eq_of_le hle with hlt | rfl
  · exact hall j hj (Nat.le_of_lt_succ hlt)
  · rwa [← hnext]

theorem Counts.late_le (htolerance : tolerance + 1 < 4294967296) : late ≤ tolerance + 1 := by
  obtain ⟨n₀, d, hlate, -, hall⟩ := h
  by_contra hmore
  -- the step that takes it from below or at the tolerance to above, or out of the wrap
  by_cases htop : n₀ % 4294967296 = 4294967295
  · have := hall (tolerance + 2) (by omega) (by omega)
    omega
  · by_cases hlow : n₀ % 4294967296 ≤ tolerance
    · have := hall (tolerance + 1 - n₀ % 4294967296) (by omega) (by omega)
      omega
    · have := hall 1 (by omega) (by omega)
      omega

end

/-! ## The worst state -/

theorem foldl_worst {bound : Nat}
    (hbound : ∀ i : Fin 32, ∀ c ∈ config.tasks[i.val]?, (tasks i).state.rank ≤ bound)
    (is : List (Fin 32)) (worst : AliveState) (hworst : worst.rank ≤ bound) :
    let last := is.foldl (fun worst i =>
      match config.tasks[i.val]? with
      | none => worst
      | some c =>
        if c.isCritical && worst.rank < (tasks i).state.rank then (tasks i).state else worst) worst
    last.rank ≤ bound ∧ worst.rank ≤ last.rank ∧
      ∀ i ∈ is, ∀ c ∈ config.tasks[i.val]?, c.isCritical = true →
        (tasks i).state.rank ≤ last.rank := by
  induction is generalizing worst with
  | nil => exact ⟨hworst, .refl, nofun⟩
  | cons i is ih =>
    rw [foldl_cons]
    cases hc : config.tasks[i.val]? with
    | none =>
      obtain ⟨hle, hge, hall⟩ := ih worst hworst
      refine ⟨hle, hge, fun j hj c hj' hcritical => ?_⟩
      rcases mem_cons.mp hj with rfl | hj
      · rw [hc] at hj'
        cases hj'
      · exact hall j hj c hj' hcritical
    | some c =>
      dsimp only
      split
      case isTrue hmore =>
        rw [Bool.and_eq_true, decide_eq_true_eq] at hmore
        obtain ⟨hle, hge, hall⟩ := ih (tasks i).state (hbound i c hc)
        refine ⟨hle, (Nat.le_of_lt hmore.2).trans hge, fun j hj c' hj' hcritical => ?_⟩
        rcases mem_cons.mp hj with rfl | hj
        · exact hge
        · exact hall j hj c' hj' hcritical
      case isFalse hless =>
        obtain ⟨hle, hge, hall⟩ := ih worst hworst
        refine ⟨hle, hge, fun j hj c' hj' hcritical => ?_⟩
        rcases mem_cons.mp hj with rfl | hj
        · obtain rfl : c' = c := Option.mem_unique hj' hc
          rw [hcritical, Bool.true_and, decide_eq_true_eq, Nat.not_lt] at hless
          exact hless.trans hge
        · exact hall j hj c' hj' hcritical

theorem rank_eq_two {state : AliveState} : state.rank = 2 ↔ state = .critical := by
  cases state <;> decide

/-! ## One task -/

section

variable {t : TaskMonitorState} {c : AliveTaskConfig} {now : Nat}

theorem check_of_due (hfirst : t.firstExecution = false)
    (h : t.deadlineTimer.expired (Timer.ticks now) = true) :
    (t.check c now).1 = { t with
      deadlineMisses := t.deadlineMisses + 1
      toleranceCount := t.toleranceCount + 1
      state :=
        if t.toleranceCount + 1 > c.toleranceCount then
          if c.isCritical then .critical else .degraded
        else t.state } := by
  simp only [TaskMonitorState.check, hfirst, h, Bool.not_false, Bool.and_self, if_true]
  generalize (if c.isCritical = true then AliveState.critical else AliveState.degraded) = newState
  split
  · split
    · rfl
    case isFalse hsame =>
      rw [not_not.mp hsame]
  · rfl

theorem report_fst :
    (t.report c now).1 = { (t.checkCycle c (.ofNat now)).1 with
      lastExecutionTime := .ofNat now
      firstExecution := false
      deadlineTimer := .start (Timer.ticks now) c.deadlineMs.toNat } := rfl

theorem checkCycle_spec (currentTime : UInt32) (hbounded : t.state.rank ≤ 2) :
    ∃ state n, state.rank ≤ 2 ∧
      (t.checkCycle c currentTime).1 = { t with toleranceCount := n, state := state } := by
  unfold TaskMonitorState.checkCycle
  split
  · dsimp only
    split
    · split
      · exact ⟨.degraded, t.toleranceCount + 1, by decide, rfl⟩
      · exact ⟨t.state, t.toleranceCount + 1, hbounded, rfl⟩
    · exact ⟨.healthy, 0, by decide, rfl⟩
  · exact ⟨t.state, t.toleranceCount, hbounded, rfl⟩

end

/-! ## The calls of a monitor that is running -/

section

variable {config : AliveMonitorConfig} {m : AliveMonitor} {now : Nat} {taskId : UInt32}

theorem process_waiting (hwaiting : m.supervisionTimer.expired (Timer.ticks now) = false) :
    m.process now = (m, []) := by
  simp [process, hwaiting]

theorem process_due (hrunning : m.initialized = true) (hconfig : m.config = config)
    (hdue : m.supervisionTimer.expired (Timer.ticks now) = true) :
    m.process now = ({ m with
      tasks := fun k => (m.checkAll now k).1
      systemState := worstState config fun k => (m.checkAll now k).1
      supervisionTimer := .start (Timer.ticks now) config.supervisionIntervalMs.toNat },
      if config.stateChangeCallback then
        (List.finRange 32).filterMap fun k => (m.checkAll now k).2.map (.stateChange k.val)
      else []) := by
  simp [process, hrunning, hdue, hconfig]

theorem reportAlive_unknown (hconfig : m.config = config)
    (hnone : config.tasks[taskId.toNat]? = none) : m.reportAlive now taskId = (m, []) := by
  simp [reportAlive, hconfig, hnone]

theorem reportAlive_known {k : Fin 32} {c : AliveTaskConfig} (hrunning : m.initialized = true)
    (hconfig : m.config = config) (hk : taskId.toNat = k.val) (hc : c ∈ config.tasks[k.val]?) :
    m.reportAlive now taskId = ({ m with
      tasks := update m.tasks k ((m.tasks k).report c now).1
      systemState := worstState config
        (update m.tasks k ((m.tasks k).report c now).1) }, (if config.stateChangeCallback then
          ((m.tasks k).report c now).2.1.toList.map (.stateChange k.val) else []) ++
        if config.errorCallback then
          ((m.tasks k).report c now).2.2.toList.map (.error k.val) else []) := by
  simp [reportAlive, hrunning, hconfig, hk, Option.mem_def.mp hc]

theorem resetStatistics_eq (hrunning : m.initialized = true) (hconfig : m.config = config) :
    m.resetStatistics = { m with
      tasks := fun k =>
        if k.val < config.tasks.length then
          { m.tasks k with deadlineMisses := 0, toleranceCount := 0, state := .healthy }
        else m.tasks k
      systemState := .healthy } := by
  simp [resetStatistics, hrunning, hconfig]

end

/-- What the monitor holds of task `k`, at clock `now`. -/
structure Watched (config : AliveMonitorConfig) (started : Nat) (k : Fin 32) (c : AliveTaskConfig)
    (log : List Entry) (now : Nat) (t : TaskMonitorState) : Prop where
  seen : lastReport started k log ≤ now
  unreported : ¬ Reported k log → t.firstExecution = true ∧ t.state = .healthy
  reported : Reported k log → t.firstExecution = false ∧
    t.deadlineTimer = .start (Timer.ticks (lastReport started k log)) c.deadlineMs.toNat
  bounded : t.state.rank ≤ 2
  counting : Reported k log → c.isCritical = true → t.state = .critical ∨
    Counts c.toleranceCount.toNat
      (lateChecks started config.supervisionIntervalMs.toNat k c.deadlineMs.toNat log)
      t.toleranceCount.toNat

namespace Watched

variable {config : AliveMonitorConfig} {started : Nat} {k : Fin 32} {c : AliveTaskConfig}
  {log : List Entry} {now : Nat} {t : TaskMonitorState} {e : Entry}

theorem reported_cons_of_not (hother : ¬ IsReport k e.input.2) :
    Reported k (e :: log) ↔ Reported k log := by
  simp [Reported, hother]

theorem reported_cons (hreport : IsReport k e.input.2) : Reported k (e :: log) :=
  ⟨e, .head _, hreport⟩

theorem not_report_of_process (hprocess : e.input.2 = .process) : ¬ IsReport k e.input.2 := by
  rw [hprocess]
  exact id

section

variable (h : Watched config started k c log now t)
include h

section

variable (hclock : now ≤ e.post.1)
include hclock

theorem seen_cons
    (hother : ¬ IsReport k e.input.2) : lastReport started k (e :: log) ≤ e.post.1 := by
  rw [lastReport, if_neg hother]
  exact h.seen.trans hclock

theorem keep
    (hother : ¬ IsReport k e.input.2) (hreset : e.input.2 ≠ .resetStatistics)
    (hearly : ¬ LateCheck started config.supervisionIntervalMs.toNat k c.deadlineMs.toNat e.post.1
      e.input.2 log) :
    Watched config started k c (e :: log) e.post.1 t := by
  have hlate : lateChecks started config.supervisionIntervalMs.toNat k c.deadlineMs.toNat
    (e :: log) =
      lateChecks started config.supervisionIntervalMs.toNat k c.deadlineMs.toNat log := by
    rw [lateChecks, if_neg (not_or.mpr ⟨hother, hreset⟩), if_neg hearly]
  refine ⟨h.seen_cons hclock hother, ?_, ?_, h.bounded, ?_⟩
  · rw [reported_cons_of_not hother]
    exact h.unreported
  · rw [reported_cons_of_not hother, lastReport, if_neg hother]
    exact h.reported
  · rw [reported_cons_of_not hother, hlate]
    exact h.counting

theorem check_early
    (hprocess : e.input.2 = .process)
    (htimely : LateCheck started config.supervisionIntervalMs.toNat k c.deadlineMs.toNat e.post.1
      e.input.2 log → c.deadlineMs.toNat ≤ (e.post.1 - lastReport started k log) % 4294967296)
    (hreported : Reported k log) (hearly : t.deadlineTimer.expired (Timer.ticks e.post.1) = false) :
    Watched config started k c (e :: log) e.post.1 (t.check c e.post.1).1 := by
  simp only [TaskMonitorState.check, hearly, Bool.and_false, Bool.false_eq_true, if_false]
  refine h.keep hclock (not_report_of_process hprocess) ?_ fun hlate => ?_
  · rw [hprocess]
    exact Call.noConfusion
  · rw [(h.reported hreported).2, Bool.eq_false_iff, ne_eq,
      Timer.expired_start _ (h.seen.trans hclock)] at hearly
    exact hearly (htimely hlate)

theorem check_due
    (hprocess : e.input.2 = .process) (hreported : Reported k log)
    (hdue : t.deadlineTimer.expired (Timer.ticks e.post.1) = true) :
    Watched config started k c (e :: log) e.post.1 (t.check c e.post.1).1 := by
  have hother : ¬ IsReport k e.input.2 := not_report_of_process hprocess
  have hreset : e.input.2 ≠ .resetStatistics := by
    rw [hprocess]
    exact Call.noConfusion
  have hlate : lateChecks started config.supervisionIntervalMs.toNat k c.deadlineMs.toNat
      (e :: log) ≤
      lateChecks started config.supervisionIntervalMs.toNat k c.deadlineMs.toNat log + 1 := by
    rw [lateChecks, if_neg (not_or.mpr ⟨hother, hreset⟩)]
    split
    · exact .refl
    · exact Nat.le_succ _
  obtain ⟨hfirst, htimer⟩ := h.reported hreported
  rw [check_of_due hfirst hdue]
  refine ⟨h.seen_cons hclock hother, ?_, ?_, ?_, ?_⟩
  · rw [reported_cons_of_not hother]
    exact fun hnot => absurd hreported hnot
  · rw [lastReport, if_neg hother]
    exact fun _ => ⟨hfirst, htimer⟩
  · dsimp only
    split
    · split
      · exact Nat.le_refl 2
      · decide
    · exact h.bounded
  · intro _ hcritical
    split
    · exact .inl rfl
    case isFalse hwithin =>
      rcases h.counting hreported hcritical with hstate | hcounts
      · exact .inl hstate
      · have hle : (t.toleranceCount.toNat + 1) % 4294967296 ≤ c.toleranceCount.toNat := by
          exact UInt32.le_iff_toNat_le.mp (UInt32.not_lt.mp hwithin)
        exact .inr ((hcounts.succ hle).mono hlate)

theorem check
    (hprocess : e.input.2 = .process)
    (htimely : LateCheck started config.supervisionIntervalMs.toNat k c.deadlineMs.toNat e.post.1
      e.input.2 log → c.deadlineMs.toNat ≤ (e.post.1 - lastReport started k log) % 4294967296) :
    Watched config started k c (e :: log) e.post.1 (t.check c e.post.1).1 := by
  by_cases hreported : Reported k log
  · cases hexpired : t.deadlineTimer.expired (Timer.ticks e.post.1) with
    | false => exact h.check_early hclock hprocess htimely hreported hexpired
    | true => exact h.check_due hclock hprocess hreported hexpired
  · -- a task that has not reported is passed over
    have hother : ¬ IsReport k e.input.2 := not_report_of_process hprocess
    obtain ⟨hfirst, hstate⟩ := h.unreported hreported
    simp only [TaskMonitorState.check, hfirst]
    refine ⟨h.seen_cons hclock hother, fun _ => ⟨hfirst, hstate⟩, fun hnow => ?_, h.bounded,
      fun hnow => ?_⟩
    all_goals exact absurd ((reported_cons_of_not hother).mp hnow) hreported

end

theorem report (hreport : IsReport k e.input.2) :
    Watched config started k c (e :: log) e.post.1 (t.report c e.post.1).1 := by
  obtain ⟨state, n, hstate, heq⟩ := checkCycle_spec (c := c) (.ofNat e.post.1) h.bounded
  have hlate : lateChecks started config.supervisionIntervalMs.toNat k c.deadlineMs.toNat
      (e :: log) = 0 := by
    rw [lateChecks, if_pos (.inl hreport)]
  rw [report_fst, heq]
  refine ⟨?_, fun hnot => absurd (reported_cons hreport) hnot, fun _ => ?_, hstate, fun _ _ => ?_⟩
  · rw [lastReport, if_pos hreport]
  · rw [lastReport, if_pos hreport]
    exact ⟨rfl, rfl⟩
  · rw [hlate]
    exact .inr (counts_zero (UInt32.toNat_lt n))

theorem reset (hclock : now ≤ e.post.1) (hreset : e.input.2 = .resetStatistics) :
    Watched config started k c (e :: log) e.post.1
      { t with deadlineMisses := 0, toleranceCount := 0, state := .healthy } := by
  have hother : ¬ IsReport k e.input.2 := by
    rw [hreset]
    exact id
  have hlate : lateChecks started config.supervisionIntervalMs.toNat k c.deadlineMs.toNat
      (e :: log) = 0 := by
    rw [lateChecks, if_pos (.inr hreset)]
  refine ⟨h.seen_cons hclock hother, ?_, ?_, Nat.zero_le 2, fun _ _ => ?_⟩
  · rw [reported_cons_of_not hother]
    exact fun hnot => ⟨(h.unreported hnot).1, rfl⟩
  · rw [reported_cons_of_not hother, lastReport, if_neg hother]
    exact h.reported
  · rw [hlate]
    exact .inr (counts_zero (UInt32.toNat_lt 0))

end

end Watched

/-- What the monitor holds: the timer of the interval runs since the last check, every task is
watched, and the system is critical if a critical task is. -/
structure Supervises (config : AliveMonitorConfig) (started : Nat)
    (x : List Entry × (Nat × AliveMonitor)) : Prop where
  same : x.2.2.config = config
  small : config.tasks.length ≤ 32
  initialized : x.2.2.initialized = true
  checked : lastCheck started config.supervisionIntervalMs.toNat x.1 ≤ x.2.1
  timer : x.2.2.supervisionTimer = .start
    (Timer.ticks (lastCheck started config.supervisionIntervalMs.toNat x.1))
    config.supervisionIntervalMs.toNat
  tasks : ∀ k : Fin 32, ∀ c ∈ config.tasks[k.val]?,
    Watched config started k c x.1 x.2.1 (x.2.2.tasks k)
  system : ∀ k : Fin 32, ∀ c ∈ config.tasks[k.val]?, c.isCritical = true →
    (x.2.2.tasks k).state = .critical → x.2.2.systemState = .critical

theorem supervises_of_init {m₀ m : AliveMonitor} {started : Nat}
    (hinit : m₀.init started (some config) = (m, true)) :
    Supervises config started ([], (started, m)) := by
  simp only [init] at hinit
  split at hinit
  · cases hinit
  case isFalse hsize =>
    cases hinit
    rw [Bool.or_eq_true, not_or, decide_eq_true_eq, Nat.not_lt] at hsize
    have hfresh : ∀ k : Fin 32, ∀ c ∈ config.tasks[k.val]?, k.val < config.tasks.length :=
      fun k c hc => (List.getElem?_eq_some_iff.mp hc).1
    refine ⟨rfl, hsize.2, rfl, .refl, rfl, fun k c hc => ?_, fun k c hc _ hk => ?_⟩
    · dsimp only
      rw [if_pos (hfresh k c hc)]
      have hnone : ¬ Reported k [] := fun ⟨_, he, _⟩ => absurd he not_mem_nil
      exact ⟨.refl, fun _ => ⟨rfl, rfl⟩, fun h => absurd h hnone, Nat.zero_le 2,
        fun h => absurd h hnone⟩
    · dsimp only at hk
      rw [if_pos (hfresh k c hc)] at hk
      cases hk

namespace Supervises

variable {config : AliveMonitorConfig} {started : Nat} {x : List Entry × (Nat × AliveMonitor)}
  {i : Nat × Call} {o : List AliveNotice} {m : AliveMonitor}

/-- A call that makes no check leaves the timer of the interval alone; the tasks and the
system are left to show. -/
theorem unchecked (h : Supervises config started x)
    (hcheck : lastCheck started config.supervisionIntervalMs.toNat
      (⟨x.2, i, o, (x.2.1 + i.1, m)⟩ :: x.1) =
        lastCheck started config.supervisionIntervalMs.toNat x.1)
    (hsame : m.config = x.2.2.config ∧ m.initialized = x.2.2.initialized ∧
      m.supervisionTimer = x.2.2.supervisionTimer)
    (htasks : ∀ k : Fin 32, ∀ c ∈ config.tasks[k.val]?,
      Watched config started k c (⟨x.2, i, o, (x.2.1 + i.1, m)⟩ :: x.1) (x.2.1 + i.1) (m.tasks k))
    (hsystem : ∀ k : Fin 32, ∀ c ∈ config.tasks[k.val]?, c.isCritical = true →
      (m.tasks k).state = .critical → m.systemState = .critical) :
    Supervises config started (⟨x.2, i, o, (x.2.1 + i.1, m)⟩ :: x.1, (x.2.1 + i.1, m)) where
  same := hsame.1.trans h.same
  small := h.small
  initialized := hsame.2.1.trans h.initialized
  checked := by
    rw [hcheck]
    exact h.checked.trans (Nat.le_add_right _ _)
  timer := by
    rw [hcheck]
    exact hsame.2.2.trans h.timer
  tasks := htasks
  system := hsystem

theorem worst_of_watched {log : List Entry} {now : Nat} {tasks : Fin 32 → TaskMonitorState}
    (hwatched : ∀ k : Fin 32, ∀ c ∈ config.tasks[k.val]?,
      Watched config started k c log now (tasks k)) :
    ∀ k : Fin 32, ∀ c ∈ config.tasks[k.val]?, c.isCritical = true →
      (tasks k).state = .critical → worstState config tasks = .critical := by
  intro k c hc hcritical hk
  obtain ⟨hle, -, hall⟩ := foldl_worst (fun j c' hc' => (hwatched j c' hc').bounded)
    (List.finRange 32) .healthy (Nat.zero_le 2)
  have hge := hall k (mem_finRange k) c hc hcritical
  rw [rank_eq_two.mpr hk] at hge
  exact rank_eq_two.mp (Nat.le_antisymm hle hge)

theorem step_waiting (h : Supervises config started x) (htimely : Timely config started x i)
    (hprocess : i.2 = .process)
    (hwaiting : x.2.2.supervisionTimer.expired (Timer.ticks (x.2.1 + i.1)) = false) :
    Supervises config started (⟨x.2, i, o, (x.2.1 + i.1, x.2.2)⟩ :: x.1, (x.2.1 + i.1, x.2.2)) := by
  have hclock : x.2.1 ≤ x.2.1 + i.1 := Nat.le_add_right _ _
  have hearly : ¬ config.supervisionIntervalMs.toNat ≤
      x.2.1 + i.1 - lastCheck started config.supervisionIntervalMs.toNat x.1 := by
    intro hover
    rw [h.timer, Bool.eq_false_iff, ne_eq,
      Timer.expired_start _ (h.checked.trans hclock)] at hwaiting
    exact hwaiting (htimely.1 hprocess hover)
  have hcheck : lastCheck started config.supervisionIntervalMs.toNat
      (⟨x.2, i, o, (x.2.1 + i.1, x.2.2)⟩ :: x.1) =
      lastCheck started config.supervisionIntervalMs.toNat x.1 := by
    rw [lastCheck, if_neg fun hboth => hearly hboth.2]
  refine h.unchecked hcheck ⟨rfl, rfl, rfl⟩ (fun k c hc => ?_) h.system
  refine (h.tasks k c hc).keep hclock ?_ ?_ fun hlate => hearly hlate.2.1
  · simp [hprocess, IsReport]
  · simp [hprocess]

theorem step_process (h : Supervises config started x) (htimely : Timely config started x i)
    (hprocess : i.2 = .process) :
    Supervises config started (⟨x.2, i, o, (x.2.1 + i.1, (x.2.2.process (x.2.1 + i.1)).1)⟩ :: x.1,
      (x.2.1 + i.1, (x.2.2.process (x.2.1 + i.1)).1)) := by
  have hclock : x.2.1 ≤ x.2.1 + i.1 := Nat.le_add_right _ _
  cases hexpired : x.2.2.supervisionTimer.expired (Timer.ticks (x.2.1 + i.1)) with
  | false =>
    rw [process_waiting hexpired]
    exact h.step_waiting htimely hprocess hexpired
  | true =>
    rw [process_due h.initialized h.same hexpired]
    have hover : config.supervisionIntervalMs.toNat ≤
        x.2.1 + i.1 - lastCheck started config.supervisionIntervalMs.toNat x.1 := by
      rw [h.timer, Timer.expired_start _ (h.checked.trans hclock)] at hexpired
      exact hexpired.trans (Nat.mod_le _ _)
    have htask : ∀ k : Fin 32, ∀ c ∈ config.tasks[k.val]?,
        (x.2.2.checkAll (x.2.1 + i.1) k).1 = ((x.2.2.tasks k).check c (x.2.1 + i.1)).1 := by
      intro k c hc
      rw [checkAll, h.same, Option.mem_def.mp hc]
    have hwatched : ∀ k : Fin 32, ∀ c ∈ config.tasks[k.val]?, ∀ e : Entry, e.post.1 = x.2.1 + i.1 →
        e.input.2 = i.2 →
        Watched config started k c (e :: x.1) (x.2.1 + i.1) (x.2.2.checkAll (x.2.1 + i.1) k).1 := by
      intro k c hc e hpost hinput
      rw [htask k c hc, ← hpost]
      refine (h.tasks k c hc).check (hpost ▸ hclock) (hinput.trans hprocess) fun hlate => ?_
      rw [hpost, hinput] at hlate
      rw [hpost]
      exact htimely.2 k c hc hlate
    have hcheck : ∀ e : Entry, e.post.1 = x.2.1 + i.1 → e.input.2 = i.2 →
        lastCheck started config.supervisionIntervalMs.toNat (e :: x.1) = x.2.1 + i.1 := by
      intro e hpost hinput
      rw [lastCheck, hpost, hinput, if_pos ⟨hprocess, hover⟩]
    refine ⟨h.same, h.small, h.initialized, ?_, ?_, fun k c hc => hwatched k c hc _ rfl rfl, ?_⟩
    · rw [hcheck _ rfl rfl]
    · rw [hcheck _ rfl rfl]
    · exact worst_of_watched fun k c hc => hwatched k c hc ⟨x.2, i, o, (_, x.2.2)⟩ rfl rfl

theorem lastCheck_of_ne {e : Entry} {log : List Entry} {interval : Nat}
    (hother : e.input.2 ≠ .process) :
    lastCheck started interval (e :: log) = lastCheck started interval log := by
  rw [lastCheck, if_neg fun hboth => hother hboth.1]

variable {taskId : UInt32}

variable (h : Supervises config started x)
include h

theorem step_ignored (hreport : i.2 = .reportAlive taskId)
    (hnone : config.tasks[taskId.toNat]? = none) :
    Supervises config started (⟨x.2, i, o, (x.2.1 + i.1, x.2.2)⟩ :: x.1, (x.2.1 + i.1, x.2.2)) := by
  have hother : i.2 ≠ .process := by
    rw [hreport]
    exact Call.noConfusion
  refine h.unchecked (lastCheck_of_ne hother) ⟨rfl, rfl, rfl⟩ (fun k c hc => ?_) h.system
  refine (h.tasks k c hc).keep (Nat.le_add_right _ _) ?_ ?_ fun hlate => hother hlate.1
  · simp only [hreport, IsReport]
    intro heq
    rw [heq, Option.mem_def.mp hc] at hnone
    cases hnone
  · simp [hreport]

theorem step_reported {k : Fin 32} {c : AliveTaskConfig}
    (hreport : i.2 = .reportAlive taskId) (hk : taskId.toNat = k.val)
    (hc : c ∈ config.tasks[k.val]?) (hm : m = { x.2.2 with
      tasks := update x.2.2.tasks k ((x.2.2.tasks k).report c (x.2.1 + i.1)).1
      systemState := worstState config
        (update x.2.2.tasks k ((x.2.2.tasks k).report c (x.2.1 + i.1)).1) }) :
    Supervises config started (⟨x.2, i, o, (x.2.1 + i.1, m)⟩ :: x.1, (x.2.1 + i.1, m)) := by
  have hother : i.2 ≠ .process := by
    rw [hreport]
    exact Call.noConfusion
  have hwatched : ∀ j : Fin 32, ∀ c' ∈ config.tasks[j.val]?,
      Watched config started j c' (⟨x.2, i, o, (x.2.1 + i.1, m)⟩ :: x.1) (x.2.1 + i.1)
        (update x.2.2.tasks k ((x.2.2.tasks k).report c (x.2.1 + i.1)).1 j) := by
    intro j c' hc'
    rcases eq_or_ne j k with rfl | hne
    · obtain rfl : c' = c := Option.mem_unique hc' hc
      rw [update_self]
      refine (h.tasks j c' hc').report ?_
      rw [hreport]
      exact hk
    · rw [update_of_ne hne]
      refine (h.tasks j c' hc').keep (Nat.le_add_right _ _) ?_ ?_ fun hlate => hother hlate.1
      · simp only [hreport, IsReport, hk]
        exact fun heq => hne (Fin.ext heq.symm)
      · simp [hreport]
  subst hm
  exact h.unchecked (lastCheck_of_ne hother) ⟨rfl, rfl, rfl⟩ hwatched (worst_of_watched hwatched)

theorem step_reset (hreset : i.2 = .resetStatistics) :
    Supervises config started (⟨x.2, i, o, (x.2.1 + i.1, x.2.2.resetStatistics)⟩ :: x.1,
      (x.2.1 + i.1, x.2.2.resetStatistics)) := by
  have hother : i.2 ≠ .process := by
    rw [hreset]
    exact Call.noConfusion
  have hlt : ∀ k : Fin 32, ∀ c ∈ config.tasks[k.val]?, k.val < config.tasks.length :=
    fun k c hc => (List.getElem?_eq_some_iff.mp hc).1
  rw [resetStatistics_eq h.initialized h.same]
  refine h.unchecked (lastCheck_of_ne hother) ⟨rfl, rfl, rfl⟩ (fun k c hc => ?_)
    fun k c hc _ hk => ?_
  · dsimp only
    rw [if_pos (hlt k c hc)]
    exact (h.tasks k c hc).reset (Nat.le_add_right _ _) hreset
  · dsimp only at hk
    rw [if_pos (hlt k c hc)] at hk
    cases hk

theorem step_reportAlive (hreport : i.2 = .reportAlive taskId) :
    Supervises config started
      (⟨x.2, i, o, (x.2.1 + i.1, (x.2.2.reportAlive (x.2.1 + i.1) taskId).1)⟩ :: x.1,
        (x.2.1 + i.1, (x.2.2.reportAlive (x.2.1 + i.1) taskId).1)) := by
  cases hc : config.tasks[taskId.toNat]? with
  | none =>
    rw [reportAlive_unknown h.same hc]
    exact h.step_ignored hreport hc
  | some c =>
    have hlt : taskId.toNat < 32 := Nat.lt_of_lt_of_le (List.getElem?_eq_some_iff.mp hc).1 h.small
    refine h.step_reported (k := ⟨taskId.toNat, hlt⟩) hreport rfl hc ?_
    rw [reportAlive_known (k := ⟨taskId.toNat, hlt⟩) h.initialized h.same rfl hc]

theorem step (htimely : Timely config started x i)
    (hcall : AliveMonitor.step (x.2.1 + i.1) x.2.2 i.2 = some (m, o)) :
    Supervises config started (⟨x.2, i, o, (x.2.1 + i.1, m)⟩ :: x.1, (x.2.1 + i.1, m)) := by
  cases hi : i.2 with
  | process =>
    rw [hi] at hcall
    obtain ⟨rfl, rfl⟩ := eq_of_some hcall
    exact h.step_process htimely hi
  | reportAlive taskId =>
    rw [hi] at hcall
    obtain ⟨rfl, rfl⟩ := eq_of_some hcall
    exact h.step_reportAlive hi
  | resetStatistics =>
    rw [hi] at hcall
    cases hcall
    exact h.step_reset hi

theorem detected_iff
    (htolerance : ∀ c ∈ config.tasks, c.isCritical = true → c.toleranceCount.toNat ≠ 4294967295) :
    Detected config started x ↔ MissedReported config started x := by
  refine forall_congr' fun k => forall₂_congr fun c hc => forall_congr' fun hmissing => ?_
  have hk := h.tasks k c hc
  constructor
  · rintro ⟨hstate, -⟩
    by_contra hnot
    rw [(hk.unreported hnot).2] at hstate
    cases hstate
  · intro hreported
    have hstate : (x.2.2.tasks k).state = .critical := by
      refine (hk.counting hreported hmissing.1).resolve_right fun hcounts => ?_
      have hlt : c.toleranceCount.toNat < 4294967296 := UInt32.toNat_lt _
      have hne := htolerance c (mem_of_getElem? hc) hmissing.1
      exact absurd (hcounts.late_le (by omega)) (Nat.not_le.mpr hmissing.2)
    exact ⟨hstate, h.system k c hc hmissing.1 hstate⟩

end Supervises

/-- **The supervision, over every run.** As long as the timers do not come round and no tolerance
is the greatest number of 32 bits, every critical task that is missing is `Detected` exactly in the
runs where such a task has reported at least once. -/
theorem detected_iff_reported {config : AliveMonitorConfig} {m₀ m : AliveMonitor} {started : Nat}
    (hinit : m₀.init started (some config) = (m, true))
    (htolerance : ∀ c ∈ config.tasks, c.isCritical = true → c.toleranceCount.toNat ≠ 4294967295)
    (calls : List (Nat × Call))
    (htimely : Along (logged (timed step)) (Timely config started) ([], (started, m)) calls) :
    Throughout (logged (timed step)) (Detected config started) ([], (started, m)) calls ↔
      Throughout (logged (timed step)) (MissedReported config started)
        ([], (started, m)) calls := by
  refine throughout_congr (Supervises config started) (fun x h => h.detected_iff htolerance) ?_
    calls (supervises_of_init hinit) htimely
  intro x i x' o h hnow hx'
  obtain ⟨s', hs', rfl⟩ := logged_iff.mp hx'
  obtain ⟨m', hm', rfl⟩ := timed_iff.mp hs'
  exact h.step hnow hm'

def oneTask : AliveMonitorConfig := ⟨[⟨10, 0, 100, 0, true⟩], 10, false, false⟩

def watching (config : AliveMonitorConfig) : AliveMonitor :=
  ((⟨config, fun _ => .zero, .idle, .healthy, false⟩ : AliveMonitor).init 0 (some config)).1

theorem detected_after_report :
    (watching oneTask).init 0 (some oneTask) = (watching oneTask, true) ∧
      Throughout (logged (timed step)) (Detected oneTask 0) ([], (0, watching oneTask))
        [(1, .reportAlive 0), (20, .process), (20, .process), (20, .process)] := by
  have hinit : (watching oneTask).init 0 (some oneTask) = (watching oneTask, true) := rfl
  refine ⟨hinit, (detected_iff_reported hinit (by decide) _ (by decide)).mpr ?_⟩
  refine (throughout_cons_of rfl).mpr ⟨by decide, ?_⟩
  refine (throughout_cons_of rfl).mpr ⟨by decide, ?_⟩
  refine (throughout_cons_of rfl).mpr ⟨by decide, ?_⟩
  refine (throughout_cons_of rfl).mpr ⟨by decide, ?_⟩
  show MissedReported oneTask 0 _
  decide

/-- A task that never reports is never missed. -/
theorem silent_from_start_undetected :
    ¬ Throughout (logged (timed step)) (Detected oneTask 0) ([], (0, watching oneTask))
      [(20, .process), (20, .process), (20, .process)] := by
  intro h
  have hlast := h.last rfl
  have hcritical := hlast ⟨0, by decide⟩ ⟨10, 0, 100, 0, true⟩ rfl (by decide)
  cases hcritical.1

end AliveMonitor

end Cant.Safety
