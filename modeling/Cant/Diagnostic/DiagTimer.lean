/-
# `DiagTimer` — timers with callbacks (`diag_timer.c`)

A callback may start, stop and reset timers, and takes its time. So `DiagTimer_Process` is a
sequence of steps: it begins and takes a snapshot of the clock, visits one slot after the
other, and where a timer has expired enters its callback, which returns later.

Two things go wrong. A timer that a callback starts or resets after the snapshot has, by the
snapshot, been running for almost `2 ^ 32` ms, and is taken to have expired if its slot is
still to come. And when a callback returns, the timer that is then in its slot is stopped,
even if it is another one. `timers_kept` is what holds where neither happens.
-/
import Cant.Lib.Past
import Cant.Lib.Slots

namespace Cant.Diagnostic.DiagTimer

open Past Run Function

inductive DiagTimerType where
  | request | session | security | testerPresent

inductive TimerState where
  | inactive | running | expired
  deriving DecidableEq

structure Timer where
  id : UInt32
  type : DiagTimerType
  timeoutMs : UInt32
  startTime : UInt32
  state : TimerState
  callback : Nat
  context : Nat
  active : Bool

def Timer.zero : Timer := ⟨0, .request, 0, 0, .inactive, 0, 0, false⟩

structure TimerManager where
  timers : Fin 32 → Timer
  timerCount : Nat
  nextId : UInt32
  lastCheck : UInt32
  initialized : Bool

namespace TimerManager

def init (m : TimerManager) (now : Nat) : TimerManager × Bool :=
  if m.initialized then (m, false)
  else (⟨fun _ => .zero, 0, 1, .ofNat now, true⟩, true)

def findTimer (m : TimerManager) (timerId : UInt32) : Option (Fin 32) :=
  if !m.initialized || timerId = 0 then none
  else (List.finRange 32).find? fun i =>
    i.val < m.timerCount && ((m.timers i).active && (m.timers i).id = timerId)

def freeSlot (m : TimerManager) : Option (Fin 32) :=
  (List.finRange 32).find? fun i => !(m.timers i).active

def start (m : TimerManager) (now : Nat) (type : DiagTimerType) (timeoutMs : UInt32)
    (callback context : Nat) : TimerManager × UInt32 :=
  if !m.initialized || callback = 0 || timeoutMs = 0 then (m, 0)
  else
    let timeoutMs := if timeoutMs < 5 then 5 else timeoutMs
    match m.freeSlot with
    | none => (m, 0)
    | some slot =>
      let timer : Timer :=
        ⟨m.nextId, type, timeoutMs, .ofNat now, .running, callback, context, true⟩
      let nextId := m.nextId + 1
      ({ m with
        timers := update m.timers slot timer
        timerCount := if slot.val ≥ m.timerCount then slot.val + 1 else m.timerCount
        nextId := if nextId = 0 then 1 else nextId }, timer.id)

/-- The loop of `DiagTimer_Stop`. -/
def trim (timers : Fin 32 → Timer) : Nat → Nat
  | 0 => 0
  | n + 1 => if h : n < 32 then if (timers ⟨n, h⟩).active then n + 1 else trim timers n else n + 1

def stop (m : TimerManager) (timerId : UInt32) : TimerManager :=
  match m.findTimer timerId with
  | none => m
  | some i =>
    let timers := update m.timers i .zero
    { m with timers, timerCount := trim timers m.timerCount }

def reset (m : TimerManager) (now : Nat) (timerId : UInt32) : TimerManager :=
  match m.findTimer timerId with
  | none => m
  | some i =>
    { m with
      timers := update m.timers i
        { m.timers i with startTime := .ofNat now, state := .running } }

/-- `DiagTimer_Process` up to its loop; `none` if there is nothing to do yet. -/
def begin (m : TimerManager) (now : Nat) : Option TimerManager :=
  if !m.initialized then none
  else if UInt32.ofNat now - m.lastCheck < 5 then none
  else some { m with lastCheck := .ofNat now }

/-- The loop body of `DiagTimer_Process` up to the callback, with the snapshot `currentTime`: the
timer that has expired. -/
def visit (m : TimerManager) (i : Fin 32) (currentTime : Nat) : Option (TimerManager × Timer) :=
  let timer := m.timers i
  if !timer.active || timer.state ≠ .running then none
  else if UInt32.ofNat currentTime - timer.startTime ≥ timer.timeoutMs then
    some ({ m with timers := update m.timers i { timer with state := .expired } }, timer)
  else none

end TimerManager

/-! ## Steps -/

/-- Where `DiagTimer_Process` is: not called, before slot `i`, or in the callback of slot `i`. -/
inductive Control where
  | outside
  | loop (i : Nat) (currentTime : Nat)
  | callback (i : Fin 32) (currentTime : Nat)

structure System where
  manager : TimerManager
  control : Control

inductive Action where
  | start (type : DiagTimerType) (timeoutMs : UInt32) (callback context : Nat)
  | stop (timerId : UInt32)
  | reset (timerId : UInt32)
  | process
  | visit
  | return

inductive Event where
  | none
  | started (timerId timeoutMs : UInt32)
  | stopped (timerId : UInt32)
  | reset (timerId : UInt32)
  | entered
  | called (callback : Nat) (timerId : UInt32) (context : Nat)
  | left

def Control.open : Control → Bool
  | .outside => true
  | .loop .. => false
  | .callback .. => true

/-- A step at clock `now`; what cannot happen does nothing. -/
def step (now : Nat) (s : System) : Action → Option (System × Event)
  | .start type timeoutMs callback context =>
    if s.control.open then
      let (manager, timerId) := s.manager.start now type timeoutMs callback context
      some ({ s with manager }, .started timerId timeoutMs)
    else some (s, .none)
  | .stop timerId =>
    if s.control.open then some ({ s with manager := s.manager.stop timerId }, .stopped timerId)
    else some (s, .none)
  | .reset timerId =>
    if s.control.open then some ({ s with manager := s.manager.reset now timerId }, .reset timerId)
    else some (s, .none)
  | .process =>
    match s.control with
    | .outside =>
      match s.manager.begin now with
      | none => some (s, .none)
      | some manager => some (⟨manager, .loop 0 now⟩, .entered)
    | _ => some (s, .none)
  | .visit =>
    match s.control with
    | .loop i currentTime =>
      if h : i < s.manager.timerCount ∧ i < 32 then
        match s.manager.visit ⟨i, h.2⟩ currentTime with
        | none => some ({ s with control := .loop (i + 1) currentTime }, .none)
        | some (manager, timer) =>
          some (⟨manager, .callback ⟨i, h.2⟩ currentTime⟩,
            .called timer.callback timer.id timer.context)
      else some ({ s with control := .outside }, .left)
    | _ => some (s, .none)
  | .return =>
    match s.control with
    | .callback i currentTime =>
      some (⟨s.manager.stop (s.manager.timers i).id, .loop (i.val + 1) currentTime⟩, .none)
    | _ => some (s, .none)

/-! ## What a log shows -/

abbrev Entry := Taken (Nat × System) (Nat × Action) Event

/-- When timer `k` was last started or reset, and its timeout, if it has been started and
neither stopped nor called since. -/
def running (k : UInt32) : List Entry → Option (Nat × UInt32)
  | [] => none
  | e :: past =>
    match e.output with
    | .started timerId timeoutMs =>
      if timerId = k ∧ k ≠ 0 then some (e.post.1, timeoutMs) else running k past
    | .stopped timerId => if timerId = k then none else running k past
    | .reset timerId =>
      if timerId = k then (running k past).map fun a => (e.post.1, a.2) else running k past
    | .called _ timerId _ => if timerId = k then none else running k past
    | _ => running k past

/-- Timer `k` was started since `DiagTimer_Process` entered its loop, and not stopped since. -/
def inside (k : UInt32) : List Entry → Bool
  | [] => false
  | e :: past =>
    match e.output with
    | .entered => false
    | .started timerId _ => if timerId = k ∧ k ≠ 0 then true else inside k past
    | .stopped timerId => if timerId = k then false else inside k past
    | _ => inside k past

/-- A callback is called once for a start, not after a stop, and not before its time; and a timer
that a callback has started and nobody stopped is active when `DiagTimer_Process` is left. -/
structure Kept (e : Entry) (past : List Entry) : Prop where
  called : ∀ callback k context, e.output = .called callback k context →
    ∃ a ∈ running k past, a.2.toNat ≤ e.post.1 - a.1
  left : e.output = .left → ∀ k, inside k past = true →
    ∃ i, (e.post.2.manager.timers i).active = true ∧ (e.post.2.manager.timers i).id = k

/-- A start gives out an id that no active timer has; a timer whose callback is called was
not started or reset after the snapshot; and when a callback returns, its slot does not
hold another timer that is running. -/
def Careful (x : List Entry × (Nat × System)) (i : Nat × Action) : Prop :=
  match i.2, x.2.2.control with
  | .start .., _ => ∀ j, (x.2.2.manager.timers j).active = true →
      (x.2.2.manager.timers j).id ≠ x.2.2.manager.nextId
  | .visit, .loop n currentTime => ∀ h : n < 32,
      (x.2.2.manager.visit ⟨n, h⟩ currentTime).isSome = true →
        ∀ a ∈ running (x.2.2.manager.timers ⟨n, h⟩).id x.1, a.1 ≤ currentTime
  | .return, .callback j _ => (x.2.2.manager.timers j).active = true →
      running (x.2.2.manager.timers j).id x.1 = none
  | _, _ => True

instance (x : List Entry × (Nat × System)) (i : Nat × Action) : Decidable (Careful x i) := by
  obtain ⟨_, action⟩ := i
  cases action <;> unfold Careful <;> first | infer_instance | (split <;> infer_instance)

/-! ## What holds between the slots and the log -/

def Control.snapshot : Control → Option Nat
  | .outside => none
  | .loop _ currentTime => some currentTime
  | .callback _ currentTime => some currentTime

/-- The slot runs since the timer was started or reset, with at least its timeout; `since` says
what the log has of it. -/
def Tracked (since : Option (Nat × UInt32)) (now : Nat) (timer : Timer) : Prop :=
  ∃ a ∈ since, a.1 ≤ now ∧ timer.startTime = .ofNat a.1 ∧ a.2.toNat ≤ timer.timeoutMs.toNat ∧
    5 ≤ timer.timeoutMs.toNat ∧ timer.state = .running

/-- The state at clock `now`; `runs` and `fresh` are what the log has of each timer. -/
structure Orderly (runs : UInt32 → Option (Nat × UInt32)) (fresh : UInt32 → Bool) (now : Nat)
    (s : System) : Prop where
  initialized : s.manager.initialized = true
  nextId : s.manager.nextId ≠ 0
  idle : ∀ i, (s.manager.timers i).active = false → s.manager.timers i = .zero
  below : ∀ i, (s.manager.timers i).active = true → i.val < s.manager.timerCount
  id_ne : ∀ i, (s.manager.timers i).active = true → (s.manager.timers i).id ≠ 0
  unique : ∀ i j, (s.manager.timers i).active = true → (s.manager.timers j).active = true →
    (s.manager.timers i).id = (s.manager.timers j).id → i = j
  tracked : ∀ i, (s.manager.timers i).active = true →
    Tracked (runs (s.manager.timers i).id) now (s.manager.timers i) ∨
      (∃ currentTime, s.control = .callback i currentTime) ∧ runs (s.manager.timers i).id = none
  seen : ∀ currentTime ∈ s.control.snapshot, currentTime ≤ now
  fresh : ∀ currentTime ∈ s.control.snapshot, ∀ k, fresh k = true →
    (∃ i, (s.manager.timers i).active = true ∧ (s.manager.timers i).id = k) ∧
      ∃ a ∈ runs k, currentTime ≤ a.1

/-! ## The manager -/

namespace TimerManager

variable {m : TimerManager} {k : UInt32} {i : Fin 32}

theorem findTimer_some (h : m.findTimer k = some i) :
    (m.timers i).active = true ∧ (m.timers i).id = k := by
  unfold findTimer at h
  split at h
  · cases h
  · have hfound := List.find?_some h
    simp only [Bool.and_eq_true, decide_eq_true_eq] at hfound
    exact hfound.2

theorem trim_eq (timers : Fin 32 → Timer) : ∀ n,
    trim timers n = Slots.trim (fun i => (timers i).active) n
  | 0 => rfl
  | n + 1 => by rw [trim, Slots.trim, trim_eq timers n]

end TimerManager

namespace Orderly

variable {runs : UInt32 → Option (Nat × UInt32)} {fresh : UInt32 → Bool} {now : Nat} {s : System}
  {k : UInt32} {i : Fin 32}

section

variable (h : Orderly runs fresh now s)
include h

theorem later {later : Nat} (hle : now ≤ later) : Orderly runs fresh later s := by
  refine { h with
    tracked := fun i hi => ?_
    seen := fun currentTime hc => (h.seen currentTime hc).trans hle }
  rcases h.tracked i hi with ⟨a, ha, hnow, hrest⟩ | hcallback
  · exact .inl ⟨a, ha, hnow.trans hle, hrest⟩
  · exact .inr hcallback

theorem moves {control : Control}
    (hclosed : ∀ i, (s.manager.timers i).active = true → runs (s.manager.timers i).id ≠ none)
    (hsnapshot : ∀ currentTime ∈ control.snapshot, currentTime ∈ s.control.snapshot) :
    Orderly runs fresh now { s with control } := by
  refine { h with
    tracked := fun i hi => .inl ?_
    seen := fun currentTime hc => h.seen currentTime (hsnapshot currentTime hc)
    fresh := fun currentTime hc => h.fresh currentTime (hsnapshot currentTime hc) }
  exact (h.tracked i hi).resolve_right fun hcallback => hclosed i hi hcallback.2

theorem runs_ne_none
    (hcontrol : ∀ i currentTime, s.control = .callback i currentTime →
      (s.manager.timers i).active = false) :
    ∀ i, (s.manager.timers i).active = true → runs (s.manager.timers i).id ≠ none := by
  intro i hi hnone
  rcases h.tracked i hi with ⟨a, ha, -⟩ | ⟨⟨currentTime, hcallback⟩, -⟩
  · rw [hnone] at ha
    cases ha
  · rw [hcontrol i currentTime hcallback] at hi
    cases hi

theorem reassign {runs' : UInt32 → Option (Nat × UInt32)} {fresh' : UInt32 → Bool}
    (hruns : ∀ i, (s.manager.timers i).active = true →
      runs' (s.manager.timers i).id = runs (s.manager.timers i).id)
    (hfresh : ∀ k, fresh' k = true → fresh k = true) : Orderly runs' fresh' now s := by
  refine { h with
    tracked := fun i hi => ?_
    fresh := fun currentTime hc k hk => ?_ }
  · rw [hruns i hi]
    exact h.tracked i hi
  · obtain ⟨⟨i, hi, rfl⟩, hsince⟩ := h.fresh currentTime hc k (hfresh k hk)
    rw [hruns i hi]
    exact ⟨⟨i, hi, rfl⟩, hsince⟩

theorem not_found (hfind : s.manager.findTimer k = none) :
    ∀ i, (s.manager.timers i).active = true → (s.manager.timers i).id ≠ k := by
  intro i hi hid
  rcases eq_or_ne k 0 with rfl | hk
  · exact h.id_ne i hi hid
  · rw [TimerManager.findTimer, if_neg (by simp [h.initialized, hk]), List.find?_eq_none] at hfind
    have hnot := hfind i (List.mem_finRange i)
    simp [h.below i hi, hi, hid] at hnot

end

variable {currentTime : Nat} {timer : Timer}

section

variable {since : Option (Nat × UInt32)} {control : Control}
variable (h : Orderly runs fresh now s)
include h

theorem write {id nextId : UInt32} {fresh' : UInt32 → Bool} {timerCount : Nat}
    (hold : (s.manager.timers i).active = true → (s.manager.timers i).id = id)
    (hother : ∀ j ≠ i, (s.manager.timers j).active = true → (s.manager.timers j).id ≠ id)
    (hidle : timer.active = false → timer = .zero)
    (hactive : timer.active = true → timer.id = id ∧ id ≠ 0 ∧
      (Tracked since now timer ∨ (∃ currentTime, control = .callback i currentTime) ∧ since = none))
    (hnext : nextId ≠ 0)
    (hbelow : ∀ j, (update s.manager.timers i timer j).active = true → j.val < timerCount)
    (hcontrol : ∀ j ≠ i, ∀ currentTime, s.control = .callback j currentTime →
      control = .callback j currentTime)
    (hsnapshot : control.snapshot = s.control.snapshot)
    (hfresh : ∀ currentTime ∈ s.control.snapshot, ∀ k, fresh' k = true →
      k = id ∧ timer.active = true ∧ (∃ a ∈ since, currentTime ≤ a.1) ∨ k ≠ id ∧ fresh k = true) :
    Orderly (update runs id since) fresh' now
      ⟨{ s.manager with timers := update s.manager.timers i timer, timerCount, nextId },
        control⟩ := by
  have hcases : ∀ j, j = i ∨ j ≠ i ∧
      update s.manager.timers i timer j = s.manager.timers j := by
    intro j
    rcases eq_or_ne j i with heq | hne
    · exact .inl heq
    · exact .inr ⟨hne, update_of_ne hne _ _⟩
  refine ⟨h.initialized, hnext, fun j hj => ?_, hbelow, fun j hj => ?_, fun j l hj hl heq => ?_,
    fun j hj => ?_, fun currentTime hc => h.seen currentTime (hsnapshot ▸ hc),
    fun currentTime hc k hk => ?_⟩
  all_goals dsimp only at *
  · rcases hcases j with rfl | ⟨-, hsame⟩
    · rw [update_self] at hj ⊢
      exact hidle hj
    · rw [hsame] at hj ⊢
      exact h.idle j hj
  · rcases hcases j with rfl | ⟨-, hsame⟩
    · rw [update_self] at hj ⊢
      exact (hactive hj).1 ▸ (hactive hj).2.1
    · rw [hsame] at hj ⊢
      exact h.id_ne j hj
  · rcases hcases j with rfl | ⟨hne, hsame⟩
    · rcases hcases l with rfl | ⟨hne, hsame⟩
      · rfl
      · rw [update_self] at hj heq
        rw [hsame] at hl heq
        exact absurd (heq.symm.trans (hactive hj).1) (hother l hne hl)
    · rw [hsame] at hj heq
      rcases hcases l with rfl | ⟨hne', hsame'⟩
      · rw [update_self] at hl heq
        exact absurd (heq.trans (hactive hl).1) (hother j hne hj)
      · rw [hsame'] at hl heq
        exact h.unique j l hj hl heq
  · rcases hcases j with rfl | ⟨hne, hsame⟩
    · rw [update_self] at hj ⊢
      rw [(hactive hj).1, update_self]
      exact (hactive hj).2.2
    · rw [hsame] at hj ⊢
      rw [update_of_ne (hother j hne hj)]
      refine (h.tracked j hj).imp_right fun ⟨⟨currentTime, hcallback⟩, hnone⟩ => ?_
      exact ⟨⟨currentTime, hcontrol j hne currentTime hcallback⟩, hnone⟩
  · rw [hsnapshot] at hc
    rcases hfresh currentTime hc k hk with ⟨rfl, htimer, hsince⟩ | ⟨hne, hk⟩
    · refine ⟨⟨i, ?_⟩, ?_⟩
      · rw [update_self]
        exact ⟨htimer, (hactive htimer).1⟩
      · rwa [update_self]
    · obtain ⟨⟨j, hj, rfl⟩, hsince⟩ := h.fresh currentTime hc k hk
      rcases hcases j with rfl | ⟨-, hsame⟩
      · exact absurd (hold hj) hne
      · refine ⟨⟨j, ?_⟩, ?_⟩
        · rw [hsame]
          exact ⟨hj, rfl⟩
        · rwa [update_of_ne hne]

theorem other_ne (hi : (s.manager.timers i).active = true) :
    ∀ j ≠ i, (s.manager.timers j).active = true →
      (s.manager.timers j).id ≠ (s.manager.timers i).id :=
  fun j hne hj heq => hne (h.unique j i hj hi heq)

theorem clear (hi : (s.manager.timers i).active = true) :
    Orderly (update runs (s.manager.timers i).id none)
      (update fresh (s.manager.timers i).id false) now
      { s with manager := { s.manager with
          timers := update s.manager.timers i .zero
          timerCount :=
            TimerManager.trim (update s.manager.timers i .zero) s.manager.timerCount } } := by
  refine h.write (fun _ => rfl) (h.other_ne hi) (fun _ => rfl) nofun h.nextId (fun j hj => ?_)
    (fun _ _ _ hcallback => hcallback) rfl fun _ _ k hk => .inr ?_
  · rw [TimerManager.trim_eq]
    refine Slots.lt_trim ?_ hj
    rcases eq_or_ne j i with rfl | hne
    · exact h.below j hi
    · rw [update_of_ne hne] at hj
      exact h.below j hj
  · rcases eq_or_ne k (s.manager.timers i).id with rfl | hne
    · rw [update_self] at hk
      cases hk
    · rw [update_of_ne hne] at hk
      exact ⟨hne, hk⟩

theorem stop (k : UInt32) :
    Orderly (update runs k none) (update fresh k false) now
      { s with manager := s.manager.stop k } := by
  unfold TimerManager.stop
  cases hfind : s.manager.findTimer k with
  | some i =>
    obtain ⟨hi, rfl⟩ := TimerManager.findTimer_some hfind
    exact h.clear hi
  | none =>
    have hnone := h.not_found hfind
    refine h.reassign (fun i hi => update_of_ne (hnone i hi) _ _) fun l hl => ?_
    rcases eq_or_ne l k with rfl | hne
    · rw [update_self] at hl
      cases hl
    · rwa [update_of_ne hne] at hl

theorem change (hi : (s.manager.timers i).active = true)
    (timer : Timer) (hactive : timer.active = true) (hid : timer.id = (s.manager.timers i).id)
    (htracked : Tracked since now timer ∨
      (∃ currentTime, control = .callback i currentTime) ∧ since = none)
    (hcontrol : ∀ j ≠ i, ∀ currentTime, s.control = .callback j currentTime →
      control = .callback j currentTime)
    (hsnapshot : control.snapshot = s.control.snapshot)
    (hfresh : ∀ currentTime ∈ s.control.snapshot, fresh (s.manager.timers i).id = true →
      ∃ a ∈ since, currentTime ≤ a.1) :
    Orderly (update runs (s.manager.timers i).id since) fresh now
      ⟨{ s.manager with timers := update s.manager.timers i timer }, control⟩ := by
  refine h.write (fun _ => rfl) (h.other_ne hi)
    (fun hidle => absurd (hactive.symm.trans hidle) nofun)
    (fun _ => ⟨hid, h.id_ne i hi, htracked⟩) h.nextId (fun j hj => ?_) hcontrol hsnapshot
    fun currentTime hc k hk => ?_
  · rcases eq_or_ne j i with rfl | hne
    · exact h.below j hi
    · rw [update_of_ne hne] at hj
      exact h.below j hj
  · rcases eq_or_ne k (s.manager.timers i).id with rfl | hne
    · exact .inl ⟨rfl, hactive, hfresh currentTime hc hk⟩
    · exact .inr ⟨hne, hk⟩

theorem reset (k : UInt32) :
    Orderly (update runs k ((runs k).map fun a => (now, a.2))) fresh now
      { s with manager := s.manager.reset now k } := by
  unfold TimerManager.reset
  cases hfind : s.manager.findTimer k with
  | none =>
    have hnone := h.not_found hfind
    exact h.reassign (fun i hi => update_of_ne (hnone i hi) _ _) fun _ hl => hl
  | some i =>
    obtain ⟨hi, rfl⟩ := TimerManager.findTimer_some hfind
    refine h.change hi { s.manager.timers i with startTime := .ofNat now, state := .running } hi
      rfl ?_ (fun _ _ _ hcallback => hcallback) rfl fun currentTime hc hk => ?_
    · rcases h.tracked i hi with ⟨a, ha, -, -, hlong, hmin, -⟩ | ⟨hcallback, hnone⟩
      · rw [Option.mem_def.mp ha]
        exact .inl ⟨(now, a.2), rfl, Nat.le_refl now, rfl, hlong, hmin, rfl⟩
      · rw [hnone]
        exact .inr ⟨hcallback, rfl⟩
    · obtain ⟨-, a, ha, -⟩ := h.fresh currentTime hc _ hk
      rw [Option.mem_def.mp ha]
      exact ⟨(now, a.2), rfl, h.seen currentTime hc⟩

theorem start (type : DiagTimerType) (timeoutMs : UInt32) (callback context : Nat)
    (hnew : ∀ j, (s.manager.timers j).active = true → (s.manager.timers j).id ≠ s.manager.nextId) :
    s.manager.start now type timeoutMs callback context = (s.manager, 0) ∨
    ∃ manager, s.manager.start now type timeoutMs callback context = (manager, s.manager.nextId) ∧
      Orderly (update runs s.manager.nextId (some (now, timeoutMs)))
        (update fresh s.manager.nextId true) now { s with manager } := by
  unfold TimerManager.start
  split
  · exact .inl rfl
  · dsimp only
    split
    · exact .inl rfl
    case h_2 slot hslot =>
      refine .inr ⟨_, rfl, h.write (i := slot) (fun hactive => ?_) (fun j _ => hnew j) nofun
        (fun _ => ⟨rfl, h.nextId, .inl ⟨_, rfl, Nat.le_refl now, rfl, ?_, ?_, rfl⟩⟩) ?_
        (fun j hj => ?_) (fun _ _ _ hcallback => hcallback) rfl fun currentTime hc k hk => ?_⟩
      · cases hactive.symm.trans (Slots.firstFree_some hslot)
      · split
        case isTrue hlt => exact Nat.le_of_lt (UInt32.lt_iff_toNat_lt.mp hlt)
        case isFalse => exact .refl
      · split
        · exact Nat.le_refl 5
        case isFalse hge => exact UInt32.le_iff_toNat_le.mp (UInt32.not_lt.mp hge)
      · split
        · decide
        case isFalse hne => exact hne
      · have hlt : j ≠ slot → j.val < s.manager.timerCount := fun hne => by
          rw [update_of_ne hne] at hj
          exact h.below j hj
        split <;> omega
      · rcases eq_or_ne k s.manager.nextId with rfl | hne
        · exact .inl ⟨rfl, rfl, _, rfl, h.seen currentTime hc⟩
        · rw [update_of_ne hne] at hk
          exact .inr ⟨hne, hk⟩

theorem begin (hcontrol : s.control = .outside)
    {manager : TimerManager} (hbegin : s.manager.begin now = some manager) :
    Orderly runs (fun _ => false) now ⟨manager, .loop 0 now⟩ := by
  unfold TimerManager.begin at hbegin
  split at hbegin
  · cases hbegin
  · split at hbegin
    · cases hbegin
    · cases hbegin
      have hclosed := h.runs_ne_none fun i currentTime hcallback => by
        rw [hcontrol] at hcallback
        cases hcallback
      refine { h with
        tracked := fun i hi => .inl ?_
        seen := fun currentTime hc => ?_
        fresh := fun _ _ _ hk => nomatch hk }
      · exact (h.tracked i hi).resolve_right fun hcallback => hclosed i hi hcallback.2
      · cases hc
        exact Nat.le_refl now

end

theorem elapsed_le {since : Nat} {timeoutMs : UInt32} (hle : since ≤ currentTime)
    (hexpired : UInt32.ofNat currentTime - UInt32.ofNat since ≥ timeoutMs) :
    timeoutMs.toNat ≤ currentTime - since := by
  have hage := UInt32.le_iff_toNat_le.mp hexpired
  rw [UInt32.toNat_sub, UInt32.toNat_ofNat', UInt32.toNat_ofNat'] at hage
  omega

section

variable (h : Orderly runs fresh now s)
include h

theorem visit {n : Nat} {hn : n < 32}
    (hcontrol : s.control = .loop n currentTime) {manager : TimerManager}
    (hvisit : s.manager.visit ⟨n, hn⟩ currentTime = some (manager, timer))
    (hbefore : ∀ a ∈ runs (s.manager.timers ⟨n, hn⟩).id, a.1 ≤ currentTime) :
    timer = s.manager.timers ⟨n, hn⟩ ∧ (∃ a ∈ runs timer.id, a.2.toNat ≤ now - a.1) ∧
      Orderly (update runs timer.id none) fresh now
        ⟨manager, .callback ⟨n, hn⟩ currentTime⟩ := by
  unfold TimerManager.visit at hvisit
  dsimp only at hvisit
  split at hvisit
  · cases hvisit
  case isFalse hrunning =>
    split at hvisit
    case isFalse => cases hvisit
    case isTrue hexpired =>
      cases hvisit
      rw [Bool.or_eq_true, not_or, Bool.not_eq_true', Bool.not_eq_false] at hrunning
      have hi := hrunning.1
      have hsnapshot : s.control.snapshot = some currentTime := by
        rw [hcontrol]
        rfl
      obtain ⟨a, ha, -, hstart, hlong, hmin, -⟩ : Tracked _ now (s.manager.timers ⟨n, hn⟩) := by
        refine (h.tracked _ hi).resolve_right fun ⟨⟨c, hcallback⟩, _⟩ => ?_
        rw [hcontrol] at hcallback
        cases hcallback
      rw [hstart] at hexpired
      have hage := elapsed_le (hbefore a ha) hexpired
      have hseen := h.seen currentTime hsnapshot
      refine ⟨rfl, ⟨a, ha, by omega⟩, ?_⟩
      refine h.change hi { s.manager.timers ⟨n, hn⟩ with state := .expired } hi rfl
        (.inr ⟨⟨currentTime, rfl⟩, rfl⟩) ?_ hsnapshot.symm fun c hc hk => ?_
      · intro j _ c hcallback
        rw [hcontrol] at hcallback
        cases hcallback
      · -- a timer that was started in the loop is not that old
        obtain ⟨-, b, hb, hlate⟩ := h.fresh currentTime hsnapshot _ hk
        obtain rfl := Option.mem_unique ha hb
        omega

theorem settle (hcontrol : s.control = .callback i currentTime)
    (hidle : (s.manager.timers i).active = false) (n : Nat) :
    Orderly runs fresh now { s with control := .loop n currentTime } := by
  refine h.moves (h.runs_ne_none fun j c hcallback => ?_) fun c hc => ?_
  · rw [hcontrol] at hcallback
    cases hcallback
    exact hidle
  · rw [hcontrol]
    exact hc

theorem returns (hcontrol : s.control = .callback i currentTime)
    (hown : (s.manager.timers i).active = true → runs (s.manager.timers i).id = none) :
    Orderly runs fresh now
      ⟨s.manager.stop (s.manager.timers i).id, .loop (i.val + 1) currentTime⟩ := by
  cases hactive : (s.manager.timers i).active with
  | false =>
    have hid : (s.manager.timers i).id = 0 := by
      rw [h.idle i hactive]
      rfl
    have hstop : s.manager.stop 0 = s.manager := by
      simp [TimerManager.stop, TimerManager.findTimer]
    rw [hid, hstop]
    exact h.settle hcontrol hactive _
  | true =>
    have hstop : s.manager.stop (s.manager.timers i).id = { s.manager with
        timers := update s.manager.timers i .zero
        timerCount :=
          TimerManager.trim (update s.manager.timers i .zero) s.manager.timerCount } := by
      unfold TimerManager.stop
      cases hfind : s.manager.findTimer (s.manager.timers i).id with
      | none => exact absurd rfl (h.not_found hfind i hactive)
      | some j =>
        obtain ⟨hj, hid⟩ := TimerManager.findTimer_some hfind
        obtain rfl := h.unique j i hj hactive hid
        rfl
    have hruns : update runs (s.manager.timers i).id none = runs :=
      update_eq_self_iff.mpr (hown hactive).symm
    have hfresh : update fresh (s.manager.timers i).id false = fresh := by
      refine update_eq_self_iff.mpr ?_
      by_contra hnot
      obtain ⟨-, a, ha, -⟩ := h.fresh currentTime (by rw [hcontrol]; rfl) _
        (Bool.eq_true_of_not_eq_false (Ne.symm hnot))
      rw [hown hactive] at ha
      cases ha
    have hcleared := h.clear hactive
    rw [hruns, hfresh] at hcleared
    rw [hstop]
    refine hcleared.settle hcontrol ?_ _
    dsimp only
    rw [update_self]
    rfl

end

end Orderly

section

/-! A log changes what it has of one timer, whose id it gives. -/

variable {α : Type} {timerId : UInt32} (f : UInt32 → α) (v : α)

theorem named_eq_update : (fun k => if timerId = k then v else f k) = update f timerId v := by
  funext k
  simp only [update_apply, eq_comm]

theorem issued_eq_update (hid : timerId ≠ 0) :
    (fun k => if timerId = k ∧ k ≠ 0 then v else f k) = update f timerId v := by
  funext k
  rw [update_apply]
  by_cases hk : k = timerId
  · subst hk
    rw [if_pos ⟨rfl, hid⟩, if_pos rfl]
  · rw [if_neg fun hboth => hk hboth.1.symm, if_neg hk]

theorem refused_eq : (fun k => if 0 = k ∧ k ≠ 0 then v else f k) = f :=
  funext fun _ => if_neg fun hboth => hboth.2 hboth.1.symm

theorem reset_eq_update (g : α → α) :
    (fun k => if timerId = k then g (f k) else f k) = update f timerId (g (f timerId)) := by
  funext k
  rw [update_apply]
  by_cases hk : k = timerId
  · subst hk
    rw [if_pos rfl]
  · rw [if_neg (Ne.symm hk), if_neg hk]

end

def Agrees (x : List Entry × (Nat × System)) : Prop :=
  Orderly (running · x.1) (inside · x.1) x.2.1 x.2.2

/-- Nothing is called, and `DiagTimer_Process` is not left. -/
def Event.Quiet : Event → Prop
  | .called .. => False
  | .left => False
  | _ => True

theorem kept_of_quiet {e : Entry} {past : List Entry} (hquiet : e.output.Quiet) : Kept e past := by
  refine ⟨fun callback k context hcalled => ?_, fun hleft => ?_⟩
  · rw [hcalled] at hquiet
    exact hquiet.elim
  · rw [hleft] at hquiet
    exact hquiet.elim

section

variable {x : List Entry × (Nat × System)} {d : Nat} {s' : System} {o : Event}

def Keeps (x : List Entry × (Nat × System)) (i : Nat × Action) (s' : System) (o : Event) : Prop :=
  Agrees (⟨x.2, i, o, (x.2.1 + i.1, s')⟩ :: x.1, (x.2.1 + i.1, s')) ∧
    Kept ⟨x.2, i, o, (x.2.1 + i.1, s')⟩ x.1

section

variable (h : Agrees x)
include h

theorem Agrees.wait (i : Nat × Action) : Keeps x i x.2.2 .none :=
  ⟨Orderly.later h (Nat.le_add_right _ _), kept_of_quiet trivial⟩

theorem Agrees.step_start {type : DiagTimerType} {timeoutMs : UInt32} {callback context : Nat}
    (hcareful : Careful x (d, .start type timeoutMs callback context))
    (hstep : step (x.2.1 + d) x.2.2 (.start type timeoutMs callback context) = some (s', o)) :
    Keeps x (d, .start type timeoutMs callback context) s' o := by
  have hnow := Orderly.later h (Nat.le_add_right x.2.1 d)
  simp only [step] at hstep
  split at hstep
  · cases hstep
    refine ⟨?_, kept_of_quiet trivial⟩
    rcases hnow.start type timeoutMs callback context hcareful with heq | ⟨manager, heq, hnext⟩
    · rw [heq]
      rw [← refused_eq (running · x.1), ← refused_eq (inside · x.1)] at hnow
      exact hnow
    · rw [heq]
      rw [← issued_eq_update _ _ h.nextId, ← issued_eq_update _ _ h.nextId] at hnext
      exact hnext
  · cases hstep
    exact h.wait _

theorem Agrees.step_stop {timerId : UInt32}
    (hstep : step (x.2.1 + d) x.2.2 (.stop timerId) = some (s', o)) :
    Keeps x (d, .stop timerId) s' o := by
  simp only [step] at hstep
  split at hstep
  · cases hstep
    have hnext := (Orderly.later h (Nat.le_add_right x.2.1 d)).stop timerId
    rw [← named_eq_update, ← named_eq_update] at hnext
    exact ⟨hnext, kept_of_quiet trivial⟩
  · cases hstep
    exact h.wait _

theorem Agrees.step_reset {timerId : UInt32}
    (hstep : step (x.2.1 + d) x.2.2 (.reset timerId) = some (s', o)) :
    Keeps x (d, .reset timerId) s' o := by
  simp only [step] at hstep
  split at hstep
  · cases hstep
    have hnext := (Orderly.later h (Nat.le_add_right x.2.1 d)).reset timerId
    rw [← reset_eq_update] at hnext
    exact ⟨hnext, kept_of_quiet trivial⟩
  · cases hstep
    exact h.wait _

theorem Agrees.step_process
    (hstep : step (x.2.1 + d) x.2.2 .process = some (s', o)) : Keeps x (d, .process) s' o := by
  simp only [step] at hstep
  split at hstep
  case h_1 hcontrol =>
    split at hstep
    case h_1 =>
      cases hstep
      exact h.wait _
    case h_2 manager hbegin =>
      cases hstep
      exact ⟨(Orderly.later h (Nat.le_add_right x.2.1 d)).begin hcontrol hbegin,
        kept_of_quiet trivial⟩
  case h_2 =>
    cases hstep
    exact h.wait _

theorem Agrees.step_visit (hcareful : Careful x (d, .visit))
    (hstep : step (x.2.1 + d) x.2.2 .visit = some (s', o)) : Keeps x (d, .visit) s' o := by
  have hnow := Orderly.later h (Nat.le_add_right x.2.1 d)
  simp only [step] at hstep
  split at hstep
  case h_1 n currentTime hcontrol =>
    have hsnapshot : x.2.2.control.snapshot = some currentTime := by
      rw [hcontrol]
      rfl
    have hclosed := hnow.runs_ne_none fun i c hcallback => by
      rw [hcontrol] at hcallback
      cases hcallback
    split at hstep
    case isTrue hn =>
      simp only [Careful, hcontrol] at hcareful
      split at hstep
      case h_1 =>
        cases hstep
        refine ⟨hnow.moves hclosed fun c hc => ?_, kept_of_quiet trivial⟩
        rw [hsnapshot]
        exact hc
      case h_2 manager timer hvisit =>
        cases hstep
        obtain ⟨htimer, hage, hnext⟩ := hnow.visit hcontrol hvisit
          (hcareful hn.2 (by rw [hvisit]; rfl))
        rw [← named_eq_update] at hnext
        refine ⟨hnext, ?_, nofun⟩
        rintro callback k context ⟨⟩
        exact hage
    case isFalse =>
      cases hstep
      refine ⟨hnow.moves hclosed fun c hc => (nomatch hc), ⟨?_, ?_⟩⟩
      · exact nofun
      · intro _ k hk
        exact (hnow.fresh currentTime hsnapshot k hk).1
  case h_2 =>
    cases hstep
    exact h.wait _

theorem Agrees.step_return (hcareful : Careful x (d, .return))
    (hstep : step (x.2.1 + d) x.2.2 .return = some (s', o)) : Keeps x (d, .return) s' o := by
  simp only [step] at hstep
  split at hstep
  case h_1 i currentTime hcontrol =>
    simp only [Careful, hcontrol] at hcareful
    cases hstep
    exact ⟨(Orderly.later h (Nat.le_add_right x.2.1 d)).returns hcontrol hcareful,
      kept_of_quiet trivial⟩
  case h_2 =>
    cases hstep
    exact h.wait _

theorem Agrees.step {i : Nat × Action} (hcareful : Careful x i)
    (hstep : step (x.2.1 + i.1) x.2.2 i.2 = some (s', o)) : Keeps x i s' o := by
  obtain ⟨d, action⟩ := i
  cases action with
  | start type timeoutMs callback context => exact h.step_start hcareful hstep
  | stop timerId => exact h.step_stop hstep
  | reset timerId => exact h.step_reset hstep
  | process => exact h.step_process hstep
  | visit => exact h.step_visit hcareful hstep
  | «return» => exact h.step_return hcareful hstep

end

end

theorem step_total (now : Nat) (s : System) (action : Action) :
    ∃ s' o, step now s action = some (s', o) := by
  unfold step
  repeat' split
  all_goals exact ⟨_, _, rfl⟩

theorem agrees_of_init {m₀ m : TimerManager} {started : Nat}
    (hinit : m₀.init started = (m, true)) : Agrees ([], (started, ⟨m, .outside⟩)) := by
  unfold TimerManager.init at hinit
  split at hinit
  · cases hinit
  · cases hinit
    exact ⟨rfl, UInt32.zero_ne_one.symm, fun _ _ => rfl, nofun, nofun, nofun, nofun, nofun, nofun⟩

/-- **The timers, over every run** whose actions are `Careful`: callbacks and starts are as they
should be (`Kept`). -/
theorem timers_kept {m₀ m : TimerManager} {started : Nat}
    (hinit : m₀.init started = (m, true)) (actions : List (Nat × Action))
    (hcareful : Along (logged (timed step)) Careful ([], (started, ⟨m, .outside⟩)) actions) :
    Throughout (logged (timed step)) (fun x => Historically Kept x.1)
      ([], (started, ⟨m, .outside⟩)) actions := by
  refine throughout_logged (fun x => Agrees x ∧ Historically Kept x.1) (fun _ h => h.2) step_total
    ?_ actions ⟨agrees_of_init hinit, trivial⟩ hcareful
  intro x i s' o h hnow hstep
  obtain ⟨hagrees, hkept⟩ := h.1.step hnow hstep
  exact ⟨hagrees, hkept, h.2⟩

def unused : TimerManager := ⟨fun _ => .zero, 0, 0, 0, false⟩

def ready : TimerManager := (unused.init 0).1

theorem timers_kept_in_turn :
    unused.init 0 = (ready, true) ∧
      Throughout (logged (timed step)) (fun x => Historically Kept x.1) ([], (0, ⟨ready, .outside⟩))
        [(0, .start .request 10 1 0), (20, .process), (0, .visit), (0, .start .session 10 2 0),
          (0, .return), (0, .visit), (0, .visit), (10, .process), (0, .visit), (0, .visit)] := by
  have hinit : unused.init 0 = (ready, true) := rfl
  exact ⟨hinit, timers_kept hinit _ (by decide)⟩

/-- A callback stops its timer and starts another, which is stopped when the callback returns; and
a timer that a callback starts 1 ms after the snapshot is called at once. -/
theorem restarted_timer_lost :
    ¬ Throughout (logged (timed step)) (fun x => Historically Kept x.1) ([], (0, ⟨ready, .outside⟩))
        [(0, .start .request 10 1 0), (20, .process), (0, .visit), (0, .stop 1),
          (0, .start .session 10 2 0), (0, .return), (0, .visit)] ∧
      ¬ Throughout (logged (timed step)) (fun x => Historically Kept x.1)
        ([], (0, ⟨ready, .outside⟩))
        [(0, .start .request 10 1 0), (20, .process), (0, .visit), (1, .start .session 10 2 0),
          (0, .return), (0, .visit)] := by
  constructor
  · intro h
    exact absurd ((h.last rfl).1.left rfl 2 (by decide)) (by decide)
  · intro h
    exact absurd ((h.last rfl).1.called 2 2 0 rfl) (by decide)

end Cant.Diagnostic.DiagTimer
