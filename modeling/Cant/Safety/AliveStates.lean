/-
# `AliveStates` — the states the alive monitor shows

The states are ordered by severity, and what `update_system_state` computes is the least
upper bound of the critical tasks (`worstState_eq_sup`).

A task's own state has two writers that do not know of each other:

    writer                          from        to          tells
    Alive_Monitor_Process           any         critical    if it changed
    cycle too short or too long     any         degraded    always
    cycle as it should be           any         healthy     if it changed
    Alive_Monitor_ResetStatistics   any         healthy     never

The second row takes a critical task down to degraded, and the last one is silent:
`steady_iff_orderly` says that these, and a callback that is not set, are all that goes wrong.
-/
import Mathlib.Data.Finset.Lattice.Fold
import Mathlib.Data.Fintype.Basic
import Cant.Safety.AliveMonitor

namespace Cant.Safety

open Past Run List Function

/-! ## The order of severity -/

theorem AliveState.rank_injective : Function.Injective AliveState.rank := by
  intro a b h
  cases a <;> cases b <;> first | rfl | cases h

instance : LinearOrder AliveState := LinearOrder.lift' AliveState.rank AliveState.rank_injective

instance : OrderBot AliveState where
  bot := .healthy
  bot_le _ := Nat.zero_le _

def criticalTasks (config : AliveMonitorConfig) : Finset (Fin 32) :=
  Finset.univ.filter fun k => (config.tasks[k.val]?).any (·.isCritical)

theorem mem_criticalTasks {config : AliveMonitorConfig} {k : Fin 32} :
    k ∈ criticalTasks config ↔ ∃ c ∈ config.tasks[k.val]?, c.isCritical = true := by
  rw [criticalTasks, Finset.mem_filter, Option.any_eq_true]
  exact and_iff_right (Finset.mem_univ k)

theorem worstState_eq_sup (config : AliveMonitorConfig) (tasks : Fin 32 → TaskMonitorState) :
    worstState config tasks = (criticalTasks config).sup fun k => (tasks k).state := by
  apply le_antisymm
  · -- what the loop holds never passes the bound
    refine List.foldlRecOn (motive := fun worst =>
      worst ≤ (criticalTasks config).sup fun k => (tasks k).state) _ _ bot_le ?_
    intro worst hworst k _
    cases hc : config.tasks[k.val]? with
    | none => exact hworst
    | some c =>
      dsimp only
      split
      case isTrue hmore =>
        rw [Bool.and_eq_true] at hmore
        exact Finset.le_sup (f := fun k => (tasks k).state)
          (mem_criticalTasks.mpr ⟨c, hc, hmore.1⟩)
      case isFalse => exact hworst
  · refine Finset.sup_le fun k hk => ?_
    obtain ⟨c, hc, hcritical⟩ := mem_criticalTasks.mp hk
    have hbound : ∀ i : Fin 32, ∀ c ∈ config.tasks[i.val]?, (tasks i).state.rank ≤ 3 := by
      intro i _ _
      cases (tasks i).state <;> decide
    obtain ⟨-, -, hall⟩ :=
      AliveMonitor.foldl_worst hbound (List.finRange 32) .healthy (Nat.zero_le 3)
    exact hall k (mem_finRange k) c hc hcritical

namespace AliveMonitor

/-! ## The state of the system -/

/-- The monitor runs on `config`, and its cached state is the worst of the critical tasks. -/
structure Current (config : AliveMonitorConfig) (m : AliveMonitor) : Prop where
  same : m.config = config
  small : config.tasks.length ≤ 32
  running : m.initialized = true
  system : m.systemState = (criticalTasks config).sup fun k => (m.tasks k).state

theorem sup_eq_healthy {config : AliveMonitorConfig} {tasks : Fin 32 → TaskMonitorState}
    (h : ∀ k : Fin 32, k.val < config.tasks.length → (tasks k).state = .healthy) :
    ((criticalTasks config).sup fun k => (tasks k).state) = .healthy := by
  refine le_bot_iff.mp (Finset.sup_le fun k hk => ?_)
  obtain ⟨c, hc, -⟩ := mem_criticalTasks.mp hk
  exact le_of_eq (h k (List.getElem?_eq_some_iff.mp hc).1)

theorem current_of_init {config : AliveMonitorConfig} {m₀ m : AliveMonitor} {started : Nat}
    (hinit : m₀.init started (some config) = (m, true)) : Current config m := by
  simp only [init] at hinit
  split at hinit
  · cases hinit
  case isFalse hsize =>
    cases hinit
    rw [Bool.or_eq_true, not_or, decide_eq_true_eq, Nat.not_lt] at hsize
    refine ⟨rfl, hsize.2, rfl, (sup_eq_healthy fun k hk => ?_).symm⟩
    dsimp only
    rw [if_pos hk]
    rfl

namespace Current

variable {config : AliveMonitorConfig} {m m' : AliveMonitor} {now : Nat} {o : List AliveNotice}

variable (h : Current config m)
include h

theorem process : Current config (m.process now).1 := by
  cases hexpired : m.supervisionTimer.expired (Timer.ticks now) with
  | false =>
    rw [process_waiting hexpired]
    exact h
  | true =>
    rw [process_due h.running h.same hexpired]
    exact ⟨h.same, h.small, h.running, worstState_eq_sup config fun k => (m.checkAll now k).1⟩

theorem reportAlive (taskId : UInt32) : Current config (m.reportAlive now taskId).1 := by
  cases hc : config.tasks[taskId.toNat]? with
  | none =>
    rw [reportAlive_unknown h.same hc]
    exact h
  | some c =>
    have hlt : taskId.toNat < 32 := Nat.lt_of_lt_of_le (List.getElem?_eq_some_iff.mp hc).1 h.small
    rw [reportAlive_known (k := ⟨taskId.toNat, hlt⟩) h.running h.same rfl hc]
    exact ⟨h.same, h.small, h.running, worstState_eq_sup config _⟩

theorem resetStatistics : Current config m.resetStatistics := by
  rw [resetStatistics_eq h.running h.same]
  refine ⟨h.same, h.small, h.running, (sup_eq_healthy fun k hk => ?_).symm⟩
  dsimp only
  rw [if_pos hk]

theorem step {call : Call}
    (hcall : AliveMonitor.step now m call = some (m', o)) : Current config m' := by
  cases call with
  | process =>
    obtain ⟨rfl, -⟩ := eq_of_some hcall
    exact h.process
  | reportAlive taskId =>
    obtain ⟨rfl, -⟩ := eq_of_some hcall
    exact h.reportAlive taskId
  | resetStatistics =>
    cases hcall
    exact h.resetStatistics

end Current

theorem step_isSome (now : Nat) (m : AliveMonitor) (call : Call) :
    ∃ m' o, step now m call = some (m', o) := by
  cases call <;> exact ⟨_, _, rfl⟩

/-- **The state of the system, in every state that can be reached.** It is the worst state of
the critical tasks, and healthy where there is none. -/
theorem system_state_eq_sup {config : AliveMonitorConfig} {m₀ m : AliveMonitor} {started : Nat}
    (hinit : m₀.init started (some config) = (m, true)) (calls : List (Nat × Call)) :
    Throughout (timed step) (fun s : Nat × AliveMonitor =>
      s.2.systemState = (criticalTasks config).sup fun k => (s.2.tasks k).state)
        (started, m) calls := by
  refine throughout_of_inv (fun s : Nat × AliveMonitor => Current config s.2)
    (fun s h => h.system) ?_ calls (current_of_init hinit)
  intro s i h
  obtain ⟨m', o, hcall⟩ := step_isSome (s.1 + i.1) s.2 i.2
  exact ⟨_, o, timed_eq hcall, h.step hcall⟩

def twoTasks : AliveMonitorConfig :=
  ⟨[⟨10, 0, 100, 0, true⟩, ⟨50, 0, 100, 0, true⟩], 10, false, false⟩

/-- The first of two tasks is late. -/
theorem system_state_of_two_tasks :
    (watching twoTasks).init 0 (some twoTasks) = (watching twoTasks, true) ∧
      Throughout (timed step) (fun s : Nat × AliveMonitor =>
        s.2.systemState = (criticalTasks twoTasks).sup fun k => (s.2.tasks k).state)
        (0, watching twoTasks) [(1, .reportAlive 0), (1, .reportAlive 1), (20, .process)] ∧
      ∃ s outs, run (timed step) (0, watching twoTasks)
          [(1, .reportAlive 0), (1, .reportAlive 1), (20, .process)] = some (s, outs) ∧
        (s.2.tasks 0).state ≠ (s.2.tasks 1).state := by
  have hinit : (watching twoTasks).init 0 (some twoTasks) = (watching twoTasks, true) := rfl
  exact ⟨hinit, system_state_eq_sup hinit _, _, _, rfl, by decide⟩

/-! ## The state of a task -/

/-- The cycle that a report at clock `now` ends was too short or too long. -/
def Strays (t : TaskMonitorState) (c : AliveTaskConfig) (now : Nat) : Prop :=
  t.firstExecution = false ∧
    (UInt32.ofNat now - t.lastExecutionTime < c.minCycleMs ∨
      UInt32.ofNat now - t.lastExecutionTime > c.maxCycleMs)
  deriving Decidable

/-- The states of task `k` that the callback was told of. -/
def announced (k : Fin 32) (notices : List AliveNotice) : List AliveState :=
  notices.filterMap fun
    | .stateChange taskId newState => if taskId = k.val then some newState else none
    | .error _ _ => none

/-- What a call should be: a report of a bad cycle leaves neither the task nor the system better
off, and whatever state changed was announced, once and as it is now. -/
structure Steady (config : AliveMonitorConfig) (e : Entry) (_ : List Entry) : Prop where
  severe : ∀ k : Fin 32, IsReport k e.input.2 → ∀ c ∈ config.tasks[k.val]?,
    Strays (e.pre.2.tasks k) c e.post.1 →
      (e.pre.2.tasks k).state ≤ (e.post.2.tasks k).state ∧ e.pre.2.systemState ≤
        e.post.2.systemState
  told : ∀ k : Fin 32, (e.post.2.tasks k).state ≠ (e.pre.2.tasks k).state →
    announced k e.output = [(e.post.2.tasks k).state]

/-- A report or a check finds every task in the state that it gives it, and a reset finds it
healthy. -/
def Quiet (now : Nat) (m : AliveMonitor) (call : Call) : Prop :=
  ∀ r ∈ step now m call, ∀ k : Fin 32, (r.1.tasks k).state = (m.tasks k).state
  deriving Decidable

/-- What it takes: the report that passes the tolerance with a bad cycle finds its task at most
degraded, and where nobody is told, no state changes: without a callback, or when the statistics
are reset. -/
def Orderly (config : AliveMonitorConfig) (x : List Entry × (Nat × AliveMonitor))
    (i : Nat × Call) : Prop :=
  (∀ k : Fin 32, IsReport k i.2 → ∀ c ∈ config.tasks[k.val]?,
    Strays (x.2.2.tasks k) c (x.2.1 + i.1) →
      (x.2.2.tasks k).toleranceCount + 1 > c.toleranceCount → (x.2.2.tasks k).state ≤ .degraded) ∧
  (config.stateChangeCallback = false ∨ i.2 = .resetStatistics → Quiet (x.2.1 + i.1) x.2.2 i.2)
  deriving Decidable

section

variable {t : TaskMonitorState} {c : AliveTaskConfig} {now : Nat}

theorem check_told (h : (t.check c now).1.state ≠ t.state) :
    (t.check c now).2 = some (t.check c now).1.state := by
  simp only [TaskMonitorState.check] at h ⊢
  generalize (if c.isCritical = true then AliveState.critical else AliveState.degraded) =
    newState at h ⊢
  split at h
  · split at h
    · split at h
      case isTrue hexpired hover hnew => simp [hexpired, hover, hnew]
      · exact absurd rfl h
    · exact absurd rfl h
  · exact absurd rfl h

theorem report_told (h : (t.report c now).1.state ≠ t.state) :
    (t.report c now).2.1 = some (t.report c now).1.state := by
  simp only [TaskMonitorState.report, TaskMonitorState.checkCycle] at h ⊢
  split at h
  · split at h
    · split at h
      case isTrue hfirst hbad hover => simp [hfirst, hbad, hover]
      · exact absurd rfl h
    case isFalse hfirst hgood =>
      simp [hfirst, hgood, if_pos (Ne.symm h)]
  · exact absurd rfl h

theorem report_of_strays (h : Strays t c now) :
    (t.report c now).1.state =
      if t.toleranceCount + 1 > c.toleranceCount then .degraded else t.state := by
  have hbad : (decide (UInt32.ofNat now - t.lastExecutionTime < c.minCycleMs) ||
      decide (UInt32.ofNat now - t.lastExecutionTime > c.maxCycleMs)) = true := by
    rw [Bool.or_eq_true, decide_eq_true_eq, decide_eq_true_eq]
    exact h.2
  simp only [TaskMonitorState.report, TaskMonitorState.checkCycle, h.1, Bool.not_false, if_true,
    hbad]
  split <;> rfl

end

/-! ## What is announced -/

theorem announced_append (k : Fin 32) (l l' : List AliveNotice) :
    announced k (l ++ l') = announced k l ++ announced k l' :=
  filterMap_append

theorem announced_errors (k : Fin 32) (taskId : Nat) (errors : List UInt32) :
    announced k (errors.map (.error taskId)) = [] := by
  rw [announced, filterMap_map]
  exact filterMap_eq_nil_iff.mpr fun _ _ => rfl

theorem announced_changes (k : Fin 32) (states : List AliveState) :
    announced k (states.map (.stateChange k.val)) = states := by
  rw [announced, filterMap_map]
  refine (filterMap_congr fun s _ => ?_).trans filterMap_some
  exact if_pos rfl

theorem announced_loop (k : Fin 32) (told : Fin 32 → Option AliveState) :
    ∀ {ks : List (Fin 32)}, ks.Nodup → k ∈ ks →
      announced k (ks.filterMap fun j => (told j).map (.stateChange j.val)) = (told k).toList := by
  have hother : ∀ js : List (Fin 32), k ∉ js →
      announced k (js.filterMap fun j => (told j).map (.stateChange j.val)) = [] := by
    intro js hk
    refine filterMap_eq_nil_iff.mpr fun notice hnotice => ?_
    obtain ⟨j, hj, heq⟩ := mem_filterMap.mp hnotice
    obtain ⟨s, -, rfl⟩ := Option.map_eq_some_iff.mp heq
    exact if_neg fun hval : j.val = k.val => hk (Fin.ext hval ▸ hj)
  intro ks hnodup hk
  obtain ⟨before, after, rfl⟩ := append_of_mem hk
  have hapart := nodup_middle.mp hnodup
  rw [nodup_cons, mem_append, not_or] at hapart
  rw [filterMap_append, announced_append, hother before hapart.1.1, filterMap_cons]
  cases htold : told k with
  | none => exact hother after hapart.1.2
  | some s =>
    have hrest := hother after hapart.1.2
    simp only [Option.map_some, announced, filterMap_cons, if_true] at hrest ⊢
    rw [hrest]
    rfl

namespace Current

variable {config : AliveMonitorConfig} {m m' : AliveMonitor} {now : Nat} {o : List AliveNotice}

variable (h : Current config m)
include h

section

variable (hcallback : config.stateChangeCallback = true)
include hcallback

theorem process_announced
    (k : Fin 32) (hk : ((m.process now).1.tasks k).state ≠ (m.tasks k).state) :
    announced k (m.process now).2 = [((m.process now).1.tasks k).state] := by
  cases hexpired : m.supervisionTimer.expired (Timer.ticks now) with
  | false =>
    rw [process_waiting hexpired] at hk
    exact absurd rfl hk
  | true =>
    rw [process_due h.running h.same hexpired] at hk ⊢
    dsimp only at hk ⊢
    rw [if_pos hcallback, announced_loop k (fun j => (m.checkAll now j).2) (nodup_finRange 32)
      (mem_finRange k)]
    unfold checkAll at hk ⊢
    rw [h.same] at hk ⊢
    cases hc : config.tasks[k.val]? with
    | none =>
      rw [hc] at hk
      exact absurd rfl hk
    | some c =>
      rw [hc] at hk
      rw [check_told hk]
      rfl

theorem reportAlive_announced
    (taskId : UInt32) (k : Fin 32)
    (hk : ((m.reportAlive now taskId).1.tasks k).state ≠ (m.tasks k).state) :
    announced k (m.reportAlive now taskId).2 = [((m.reportAlive now taskId).1.tasks k).state] := by
  cases hc : config.tasks[taskId.toNat]? with
  | none =>
    rw [reportAlive_unknown h.same hc] at hk
    exact absurd rfl hk
  | some c =>
    have hlt : taskId.toNat < 32 := Nat.lt_of_lt_of_le (List.getElem?_eq_some_iff.mp hc).1 h.small
    rw [reportAlive_known (k := ⟨taskId.toNat, hlt⟩) h.running h.same rfl hc] at hk ⊢
    rcases eq_or_ne k ⟨taskId.toNat, hlt⟩ with rfl | hne
    · dsimp only at hk ⊢
      rw [update_self] at hk ⊢
      rw [if_pos hcallback, announced_append, report_told hk, Option.toList_some,
        announced_changes ⟨taskId.toNat, hlt⟩]
      split
      · rw [announced_errors, append_nil]
      · rfl
    · dsimp only at hk
      rw [update_of_ne hne] at hk
      exact absurd rfl hk

end

theorem step_untold {call : Call} (hcall : AliveMonitor.step now m call = some (m', o))
    (hnobody : config.stateChangeCallback = false ∨ call = .resetStatistics) (k : Fin 32) :
    announced k o = [] := by
  have hunset : call ≠ .resetStatistics → config.stateChangeCallback = false :=
    fun hne => hnobody.resolve_right hne
  cases call with
  | process =>
    obtain ⟨-, rfl⟩ := eq_of_some hcall
    cases hexpired : m.supervisionTimer.expired (Timer.ticks now) with
    | false =>
      rw [process_waiting hexpired]
      rfl
    | true =>
      rw [process_due h.running h.same hexpired, hunset Call.noConfusion]
      rfl
  | reportAlive taskId =>
    obtain ⟨-, rfl⟩ := eq_of_some hcall
    cases hc : config.tasks[taskId.toNat]? with
    | none =>
      rw [reportAlive_unknown h.same hc]
      rfl
    | some c =>
      have hlt : taskId.toNat < 32 := Nat.lt_of_lt_of_le (List.getElem?_eq_some_iff.mp hc).1 h.small
      rw [reportAlive_known (k := ⟨taskId.toNat, hlt⟩) h.running h.same rfl hc,
        hunset Call.noConfusion]
      rw [if_neg Bool.false_ne_true]
      split
      · exact announced_errors k _ _
      · rfl
  | resetStatistics =>
    obtain ⟨-, rfl⟩ := eq_of_some hcall
    rfl

theorem told_iff {call : Call} (hcall : AliveMonitor.step now m call = some (m', o)) :
    (∀ k : Fin 32, (m'.tasks k).state ≠ (m.tasks k).state → announced k o = [(m'.tasks k).state]) ↔
      (config.stateChangeCallback = false ∨ call = .resetStatistics → Quiet now m call) := by
  constructor
  · intro htold hnobody r hr k
    obtain rfl : r = (m', o) := Option.mem_unique hr hcall
    by_contra hne
    have hone := htold k hne
    rw [h.step_untold hcall hnobody k] at hone
    cases hone
  · intro hquiet k hne
    cases hcallback : config.stateChangeCallback with
    | false => exact absurd (hquiet (.inl hcallback) _ hcall k) hne
    | true =>
      cases call with
      | process =>
        obtain ⟨rfl, rfl⟩ := eq_of_some hcall
        exact h.process_announced hcallback k hne
      | reportAlive taskId =>
        obtain ⟨rfl, rfl⟩ := eq_of_some hcall
        exact h.reportAlive_announced hcallback taskId k hne
      | resetStatistics => exact absurd (hquiet (.inr rfl) _ hcall k) hne

/-- A report of a bad cycle makes things no better just when it does not find its task worse
than degraded. -/
theorem severe_iff {taskId : UInt32} {k : Fin 32} {c : AliveTaskConfig}
    (hk : taskId.toNat = k.val) (hc : c ∈ config.tasks[k.val]?)
    (hstrays : Strays (m.tasks k) c now) :
    ((m.tasks k).state ≤ ((m.reportAlive now taskId).1.tasks k).state ∧
        m.systemState ≤ (m.reportAlive now taskId).1.systemState) ↔
      ((m.tasks k).toleranceCount + 1 > c.toleranceCount → (m.tasks k).state ≤ .degraded) := by
  rw [reportAlive_known h.running h.same hk hc]
  dsimp only
  rw [update_self, h.system, worstState_eq_sup]
  have hreport := report_of_strays hstrays
  constructor
  · rintro ⟨htask, -⟩ hover
    rwa [hreport, if_pos hover] at htask
  · intro hbelow
    have htask : (m.tasks k).state ≤ ((m.tasks k).report c now).1.state := by
      rw [hreport]
      split
      case isTrue hover => exact hbelow hover
      case isFalse => exact le_refl _
    refine ⟨htask, Finset.sup_mono_fun fun j _ => ?_⟩
    rcases eq_or_ne j k with rfl | hne
    · rw [update_self]
      exact htask
    · rw [update_of_ne hne]

end Current

/-- **Severity and announcements, over every run.** Every call is as it should be (`Steady`)
exactly in the runs whose calls are `Orderly`. -/
theorem steady_iff_orderly {config : AliveMonitorConfig} {m₀ m : AliveMonitor} {started : Nat}
    (hinit : m₀.init started (some config) = (m, true)) (calls : List (Nat × Call)) :
    Throughout (logged (timed step)) (fun x => Historically (Steady config) x.1) ([], (started, m))
        calls ↔
      Along (logged (timed step)) (Orderly config) ([], (started, m)) calls := by
  refine historically_iff_of_total (fun x => Current config x.2.2) ?_ calls (current_of_init hinit)
    trivial
  intro x i h
  obtain ⟨m', o, hcall⟩ := step_isSome (x.2.1 + i.1) x.2.2 i.2
  refine ⟨_, o, timed_eq hcall, fun _ => h.step hcall, ?_⟩
  have hsevere : (∀ k : Fin 32, IsReport k i.2 → ∀ c ∈ config.tasks[k.val]?,
      Strays (x.2.2.tasks k) c (x.2.1 + i.1) →
        (x.2.2.tasks k).state ≤ (m'.tasks k).state ∧ x.2.2.systemState ≤ m'.systemState) ↔
      ∀ k : Fin 32, IsReport k i.2 → ∀ c ∈ config.tasks[k.val]?,
        Strays (x.2.2.tasks k) c (x.2.1 + i.1) →
          (x.2.2.tasks k).toleranceCount + 1 > c.toleranceCount →
            (x.2.2.tasks k).state ≤ .degraded := by
    refine forall₂_congr fun k hreport => forall₂_congr fun c hc => forall_congr' fun hstrays => ?_
    cases hi : i.2 with
    | process | resetStatistics =>
      rw [hi] at hreport
      exact hreport.elim
    | reportAlive taskId =>
      rw [hi] at hreport hcall
      obtain ⟨rfl, -⟩ := eq_of_some hcall
      exact h.severe_iff hreport hc hstrays
  constructor
  · rintro ⟨hbad, hquiet⟩
    exact ⟨hsevere.mpr hbad, (h.told_iff hcall).mpr hquiet⟩
  · rintro ⟨hbad, htold⟩
    exact ⟨hsevere.mp hbad, (h.told_iff hcall).mp htold⟩

def oneTaskTold : AliveMonitorConfig := { oneTask with stateChangeCallback := true }

theorem steady_while_late :
    (watching oneTaskTold).init 0 (some oneTaskTold) = (watching oneTaskTold, true) ∧
      Throughout (logged (timed step)) (fun x => Historically (Steady oneTaskTold) x.1)
        ([], (0, watching oneTaskTold))
          [(1, .reportAlive 0), (20, .process), (50, .reportAlive 0)] := by
  have hinit : (watching oneTaskTold).init 0 (some oneTaskTold) = (watching oneTaskTold, true) :=
    rfl
  exact ⟨hinit, (steady_iff_orderly hinit _).mpr (by decide)⟩

/-- A task that missed its deadline is critical; when it then reports after a cycle that was too
long, it is degraded, and so is the system. -/
theorem late_report_lowers_severity :
    ¬ Throughout (logged (timed step)) (fun x => Historically (Steady oneTaskTold) x.1)
      ([], (0, watching oneTaskTold))
        [(1, .reportAlive 0), (20, .process), (100, .reportAlive 0)] := by
  intro h
  obtain ⟨hlast, -⟩ := h.last rfl
  have hsevere := hlast.severe 0 rfl ⟨10, 0, 100, 0, true⟩ rfl (by decide)
  exact absurd hsevere.1 (by decide)

end AliveMonitor

end Cant.Safety
