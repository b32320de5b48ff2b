/-
# `Watchdog` — the window watchdog (`watchdog.c`)

The hardware functions are empty; that `hw_watchdog_refresh` is called shows in the outcome
of a refresh, and so do the callback and `Watchdog_ForceReset`. A reset ends a run; here the
next call finds the state as it was, so the runs of the program are among those of the model.

The window is meant to open `window_start_ms` after the last refresh. The code starts a
timer with that time and takes what `timer_remaining` says is left of it for the time that
has passed. What is left is at least `window_start_ms` only in the millisecond of the
refresh itself (`Runs.inWindow_iff`), unless `window_start_ms` is zero.
-/
import Cant.Lib.Past
import Cant.Utils.Timer

namespace Cant.Safety

open Past Run

inductive WatchdogType where
  | window | independent | external
  deriving DecidableEq

/-- `WatchdogConfig`; of the callback only whether it is set. -/
structure WatchdogConfig where
  type : WatchdogType
  timeoutMs : UInt32
  windowStartMs : UInt32
  windowEndMs : UInt32
  resetOnTimeout : Bool
  timeoutCallback : Bool
  deriving DecidableEq

structure Watchdog where
  config : WatchdogConfig
  windowTimer : Timer
  timeoutTimer : Timer
  enabled : Bool
  windowValid : Bool
  deriving DecidableEq

/-- What a refresh does outside the watchdog's own state. -/
structure Refreshed where
  hardware : Bool
  callback : Bool
  reset : Bool
  deriving DecidableEq

namespace Watchdog

def init (w : Watchdog) (now : Nat) (config : Option WatchdogConfig) : Watchdog × Bool :=
  match config with
  | none => (w, false)
  | some config =>
    if config.timeoutMs = 0 then (w, false)
    else
      let w := { w with
        config, timeoutTimer := .start (Timer.ticks now) config.timeoutMs.toNat }
      let w :=
        if config.type = .window then
          { w with
            windowTimer := .start (Timer.ticks now) config.windowStartMs.toNat
            windowValid := true }
        else w
      ({ w with enabled := true }, true)

/-- The comparison that `Watchdog_Refresh` and `Watchdog_IsWindowOpen` make; the variable is
called `elapsed`. -/
def inWindow (w : Watchdog) (now : Nat) : Bool :=
  let elapsed := w.windowTimer.remaining (Timer.ticks now)
  w.config.windowStartMs.toNat ≤ elapsed && elapsed ≤ w.config.windowEndMs.toNat

def restart (w : Watchdog) (now : Nat) : Watchdog :=
  let w := { w with timeoutTimer := .start (Timer.ticks now) w.config.timeoutMs.toNat }
  if w.config.type = .window then
    { w with windowTimer := .start (Timer.ticks now) w.config.windowStartMs.toNat }
  else w

def refresh (w : Watchdog) (now : Nat) : Watchdog × Refreshed :=
  if !w.enabled then (w, ⟨false, false, false⟩)
  else if w.config.type = .window && !w.inWindow now then
    (w, ⟨false, w.config.timeoutCallback, w.config.resetOnTimeout⟩)
  else (w.restart now, ⟨true, false, false⟩)

def isWindowOpen (w : Watchdog) (now : Nat) : Bool :=
  if !w.enabled || w.config.type ≠ .window then false else w.inWindow now

def getRemainingTime (w : Watchdog) (now : Nat) : Nat :=
  if !w.enabled then 0 else w.timeoutTimer.remaining (Timer.ticks now)

inductive Call where
  | refresh | isWindowOpen | getRemainingTime
  deriving DecidableEq

inductive Answer where
  | refreshed (outcome : Refreshed)
  | windowOpen (answer : Bool)
  | remaining (ms : Nat)
  deriving DecidableEq

def step (now : Nat) (w : Watchdog) : Call → Option (Watchdog × Answer)
  | .refresh =>
    let (w', outcome) := w.refresh now
    some (w', .refreshed outcome)
  | .isWindowOpen => some (w, .windowOpen (w.isWindowOpen now))
  | .getRemainingTime => some (w, .remaining (w.getRemainingTime now))

/-! ## What a log shows -/

abbrev Entry := Taken (Nat × Watchdog) (Nat × Call) Answer

/-- The refresh is accepted: the hardware is refreshed, nobody is told, and both timers are
started anew. -/
def Accepted (e : Entry) : Prop :=
  e.output = .refreshed ⟨true, false, false⟩ ∧ e.post.2 = e.pre.2.restart e.post.1
  deriving Decidable

def lastStart (started : Nat) : List Entry → Nat
  | [] => started
  | e :: past => if Accepted e then e.post.1 else lastStart started past

/-- `passed` milliseconds after a start the window is to be open. -/
def Open (config : WatchdogConfig) (passed : Nat) : Prop :=
  config.windowStartMs.toNat ≤ passed ∧ passed ≤ config.windowEndMs.toNat
  deriving Decidable

def Windowed (config : WatchdogConfig) (started : Nat) (e : Entry) (past : List Entry) : Prop :=
  match e.input.2 with
  | .refresh => Accepted e ↔ Open config (e.post.1 - lastStart started past)
  | .isWindowOpen =>
    e.output = .windowOpen true ↔ Open config (e.post.1 - lastStart started past)
  | .getRemainingTime => True

/-! ## What the timer says -/

/-- The watchdog is enabled, and its window timer was started at `t`. -/
structure Runs (config : WatchdogConfig) (t : Nat) (w : Watchdog) : Prop where
  same : w.config = config
  enabled : w.enabled = true
  timer : w.windowTimer = .start (Timer.ticks t) config.windowStartMs.toNat

section

variable {config : WatchdogConfig} {w : Watchdog} {t now : Nat}

theorem Runs.init {w' : Watchdog} (htype : config.type = .window)
    (h : w.init now (some config) = (w', true)) : Runs config now w' := by
  simp only [Watchdog.init, htype, if_true] at h
  split at h
  · cases h
  · cases h
    exact ⟨rfl, rfl, rfl⟩

section

variable (h : Runs config t w)
include h

theorem Runs.restart (htype : config.type = .window) (now : Nat) :
    Runs config now (w.restart now) := by
  obtain ⟨rfl, henabled, -⟩ := h
  simp only [Watchdog.restart, htype, if_true]
  exact ⟨rfl, henabled, rfl⟩

/-- The comparison succeeds in the millisecond of the start, and always if the window begins
at once. -/
theorem Runs.inWindow_iff
    (hwindow : config.windowStartMs.toNat ≤ config.windowEndMs.toNat) (hle : t ≤ now) :
    w.inWindow now = true ↔
      config.windowStartMs = 0 ∨ (now - t) % 4294967296 = 0 := by
  have hzero : config.windowStartMs = 0 ↔ config.windowStartMs.toNat = 0 := by
    rw [← UInt32.toNat_inj, UInt32.toNat_zero]
  have hleft := Timer.remaining_start config.windowStartMs.toNat hle
  rw [← h.timer] at hleft
  rw [inWindow, h.same, hzero]
  simp only [Bool.and_eq_true, decide_eq_true_eq]
  omega

/-- A refresh is accepted just where the comparison succeeds, and otherwise leaves the
watchdog alone. -/
theorem Runs.refresh (htype : config.type = .window) (now : Nat) :
    w.refresh now = if w.inWindow now = true then (w.restart now, ⟨true, false, false⟩)
      else (w, ⟨false, config.timeoutCallback, config.resetOnTimeout⟩) := by
  obtain ⟨rfl, henabled, -⟩ := h
  simp only [Watchdog.refresh, henabled, htype, Bool.not_true, Bool.false_eq_true, if_false,
    decide_true, Bool.true_and]
  cases hin : w.inWindow now with
  | true | false => rfl

theorem Runs.isWindowOpen (htype : config.type = .window) (now : Nat) :
    w.isWindowOpen now = w.inWindow now := by
  obtain ⟨rfl, henabled, -⟩ := h
  simp [Watchdog.isWindowOpen, henabled, htype]

end

end

/-- When a call finds the window as it is meant to be: with a window that begins at once,
before its end; otherwise when it is shut, and not at a multiple of `2 ^ 32`. -/
def WellTimed (config : WatchdogConfig) (passed : Nat) : Prop :=
  config.windowStartMs = 0 ∧ passed ≤ config.windowEndMs.toNat ∨
    config.windowStartMs ≠ 0 ∧ passed % 4294967296 ≠ 0 ∧ ¬ Open config passed
  deriving Decidable

theorem wellTimed_iff (config : WatchdogConfig) (passed : Nat) :
    WellTimed config passed ↔
      ((config.windowStartMs = 0 ∨ passed % 4294967296 = 0) ↔ Open config passed) := by
  unfold WellTimed Open
  by_cases hzero : config.windowStartMs = 0
  · simp [hzero]
  · have hstart : config.windowStartMs.toNat ≠ 0 := fun h0 => hzero (UInt32.toNat_inj.mp h0)
    have hend := config.windowEndMs.toNat_lt
    simp only [hzero, ne_eq, not_false_eq_true, false_and, false_or, true_and]
    omega

/-- Every refresh and every query of the window is well timed. -/
def Timely (config : WatchdogConfig) (started : Nat) (x : List Entry × (Nat × Watchdog))
    (i : Nat × Call) : Prop :=
  i.2 ≠ .getRemainingTime → WellTimed config (x.2.1 + i.1 - lastStart started x.1)
  deriving Decidable

/-- The window timer was started when the log says. -/
structure Tracks (config : WatchdogConfig) (started : Nat) (x : List Entry × (Nat × Watchdog)) :
    Prop where
  runs : Runs config (lastStart started x.1) x.2.2
  past : lastStart started x.1 ≤ x.2.1

section

variable {config : WatchdogConfig} {started : Nat} {x : List Entry × (Nat × Watchdog)}
  {i : Nat × Call}

variable (h : Tracks config started x)
include h

theorem Tracks.inWindow_iff
    (hwindow : config.windowStartMs.toNat ≤ config.windowEndMs.toNat) (delay : Nat) :
    (x.2.2.inWindow (x.2.1 + delay) = true ↔
      Open config (x.2.1 + delay - lastStart started x.1)) ↔
      WellTimed config (x.2.1 + delay - lastStart started x.1) := by
  rw [wellTimed_iff, h.runs.inWindow_iff hwindow (h.past.trans (Nat.le_add_right _ _))]

section

variable (htype : config.type = .window)
include htype

theorem Tracks.refresh (delay : Nat) :
    ∃ w' o, step (x.2.1 + delay) x.2.2 .refresh = some (w', o) ∧
      (Accepted ⟨x.2, (delay, .refresh), o, (x.2.1 + delay, w')⟩ ↔
        x.2.2.inWindow (x.2.1 + delay) = true) ∧
      (x.2.2.inWindow (x.2.1 + delay) = false → w' = x.2.2) := by
  have hcall := h.runs.refresh htype (x.2.1 + delay)
  cases hin : x.2.2.inWindow (x.2.1 + delay) with
  | true =>
    rw [hin, if_pos rfl] at hcall
    refine ⟨x.2.2.restart (x.2.1 + delay), .refreshed ⟨true, false, false⟩, ?_,
      iff_of_true ⟨rfl, rfl⟩ rfl, nofun⟩
    simp only [Watchdog.step, hcall]
  | false =>
    rw [hin, if_neg Bool.false_ne_true] at hcall
    refine ⟨x.2.2, .refreshed ⟨false, config.timeoutCallback, config.resetOnTimeout⟩, ?_,
      iff_of_false (fun haccepted => absurd haccepted.1 (by simp)) Bool.false_ne_true,
      fun _ => rfl⟩
    simp only [Watchdog.step, hcall]

theorem Tracks.timely_iff
    (hwindow : config.windowStartMs.toNat ≤ config.windowEndMs.toNat) :
    Timely config started x i ↔ ∃ s' o, timed step x.2 i = some (s', o) ∧
      Windowed config started ⟨x.2, i, o, s'⟩ x.1 := by
  obtain ⟨delay, call⟩ := i
  cases call with
  | refresh =>
    obtain ⟨w', o, hcall, haccepted, -⟩ := h.refresh htype delay
    have htimed : timed step x.2 (delay, .refresh) = some ((x.2.1 + delay, w'), o) := timed_eq hcall
    simp only [Timely, ne_eq, reduceCtorEq, not_false_eq_true, forall_const]
    rw [← h.inWindow_iff hwindow, htimed]
    constructor
    · intro hok
      exact ⟨_, o, rfl, haccepted.trans hok⟩
    · rintro ⟨s', o', heq, hentry⟩
      cases heq
      exact haccepted.symm.trans hentry
  | isWindowOpen =>
    have hopen := h.runs.isWindowOpen htype (x.2.1 + delay)
    simp only [Timely, ne_eq, reduceCtorEq, not_false_eq_true, forall_const]
    rw [← h.inWindow_iff hwindow]
    constructor
    · intro hok
      refine ⟨_, _, rfl, ?_⟩
      show Answer.windowOpen (x.2.2.isWindowOpen (x.2.1 + delay)) = _ ↔ _
      rw [hopen, Answer.windowOpen.injEq]
      exact hok
    · rintro ⟨s', o', heq, hentry⟩
      cases heq
      have hentry' : Answer.windowOpen (x.2.2.isWindowOpen (x.2.1 + delay)) = .windowOpen true ↔
        Open config (x.2.1 + delay - lastStart started x.1) := hentry
      rwa [hopen, Answer.windowOpen.injEq] at hentry'
  | getRemainingTime =>
    refine iff_of_true (fun hne => absurd rfl hne) ⟨_, _, rfl, trivial⟩

theorem Tracks.step
    {s' : Nat × Watchdog} {o : Answer} (hcall : timed step x.2 i = some (s', o)) :
    Tracks config started (⟨x.2, i, o, s'⟩ :: x.1, s') := by
  obtain ⟨delay, call⟩ := i
  have hwait : ∀ o', ¬ Accepted ⟨x.2, (delay, call), o', (x.2.1 + delay, x.2.2)⟩ →
      Tracks config started (⟨x.2, (delay, call), o', (x.2.1 + delay, x.2.2)⟩ :: x.1,
        (x.2.1 + delay, x.2.2)) := by
    intro o' hnot
    constructor
    · rw [lastStart, if_neg hnot]
      exact h.runs
    · rw [lastStart, if_neg hnot]
      exact h.past.trans (Nat.le_add_right _ _)
  cases call with
  | refresh =>
    obtain ⟨w', o', hstep, haccepted, hsame⟩ := h.refresh htype delay
    rw [timed, hstep] at hcall
    cases hcall
    cases hin : x.2.2.inWindow (x.2.1 + delay) with
    | true =>
      have hyes := haccepted.mpr hin
      have hpost := hyes.2
      constructor
      · rw [lastStart, if_pos hyes, hpost]
        exact h.runs.restart htype _
      · rw [lastStart, if_pos hyes]
    | false =>
      have hno : ¬ Accepted ⟨x.2, (delay, .refresh), o', (x.2.1 + delay, w')⟩ := by
        rw [haccepted, hin]
        exact Bool.false_ne_true
      rw [hsame hin] at hno ⊢
      exact hwait o' hno
  | isWindowOpen | getRemainingTime =>
    cases hcall
    exact hwait _ fun haccepted => absurd haccepted.1 (by simp)

end

end

/-- **The window, over every run.** A refresh is accepted, and the window reported open,
exactly between the two configured times after the last accepted refresh, in the runs whose
calls are well timed, and in no others. -/
theorem window_kept_iff {config : WatchdogConfig} {w₀ w : Watchdog} {started : Nat}
    (htype : config.type = .window)
    (hwindow : config.windowStartMs.toNat ≤ config.windowEndMs.toNat)
    (hinit : w₀.init started (some config) = (w, true)) (calls : List (Nat × Call)) :
    Throughout (logged (timed step)) (fun x => Historically (Windowed config started) x.1)
        ([], (started, w)) calls ↔
      Along (logged (timed step)) (Timely config started) ([], (started, w)) calls := by
  refine historically_iff (Tracks config started) ?_ ?_ calls ?_ trivial
  · exact fun x i h => h.timely_iff htype hwindow
  · exact fun x i s' o h _ hcall => h.step htype hcall
  · exact ⟨Runs.init htype hinit, Nat.le_refl started⟩

def tenToFifty : WatchdogConfig := ⟨.window, 100, 10, 50, false, true⟩

def off : Watchdog := ⟨⟨.window, 0, 0, 0, false, false⟩, .idle, .idle, false, false⟩

def armed : Watchdog := (off.init 0 (some tenToFifty)).1

theorem window_kept_early :
    off.init 0 (some tenToFifty) = (armed, true) ∧
      Throughout (logged (timed step)) (fun x => Historically (Windowed tenToFifty 0) x.1)
        ([], (0, armed)) [(5, .refresh), (1, .isWindowOpen), (60, .refresh)] := by
  have hinit : off.init 0 (some tenToFifty) = (armed, true) := rfl
  exact ⟨hinit, (window_kept_iff rfl (by decide) hinit _).mpr (by decide)⟩

/-- After 20 ms the window is to be open; it is reported shut, and the refresh is refused. -/
theorem refresh_in_window_refused :
    Open tenToFifty 20 ∧ armed.isWindowOpen 20 = false ∧
      armed.refresh 20 = (armed, ⟨false, true, false⟩) ∧
      ¬ Throughout (logged (timed step)) (fun x => Historically (Windowed tenToFifty 0) x.1)
        ([], (0, armed)) [(20, .refresh)] := by
  refine ⟨by decide, by decide, by decide, fun h => ?_⟩
  have hlast := h.last rfl
  exact absurd (hlast.1.mpr (by decide)) (by decide)

end Watchdog

end Cant.Safety
