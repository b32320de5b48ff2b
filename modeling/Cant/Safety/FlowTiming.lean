/-
# `FlowTiming` — time limits between checkpoints

A checkpoint has a least and a greatest time since the one before. The monitor starts a
timer with the greatest time of the checkpoint it accepts, and at the next one takes what
`timer_remaining` says is left of it for the time that has passed. So the limits of one
checkpoint are compared with a countdown from the limit of another (`Clocked.timingValid_iff`).

`timing_kept_iff` says in which runs the answers are still right: where the time that is
left and the time that has passed are both inside the limits or both outside.
-/
import Cant.Safety.FlowMonitor

namespace Cant.Safety

open Past Run Option

namespace FlowCheckpointConfig

def Limited (c : FlowCheckpointConfig) : Prop := 0 < c.minTimeMs ∨ 0 < c.maxTimeMs
  deriving Decidable

def InTime (c : FlowCheckpointConfig) (elapsed : Nat) : Prop :=
  c.minTimeMs.toNat ≤ elapsed ∧ elapsed ≤ c.maxTimeMs.toNat
  deriving Decidable

end FlowCheckpointConfig

namespace FlowMonitor

def lastAcceptedAt : List Entry → Option (UInt32 × Nat)
  | [] => none
  | e :: past => if e.output.result = .ok then some (e.input.2, e.post.1) else lastAcceptedAt past

/-- A checkpoint with a time limit that may follow the last one is refused for its timing
just when the time since then is below its least or above its greatest. -/
def TimedRight (config : FlowMonitorConfig) (e : Entry) (past : List Entry) : Prop :=
  ∀ a ∈ lastAcceptedAt past, Follows config a.1 e.input.2 →
    ∀ c ∈ config.checkpoints[e.input.2.toNat]?, c.Limited →
      (e.output.result = .errorTiming ↔
        e.post.1 - a.2 < c.minTimeMs.toNat ∨ c.maxTimeMs.toNat < e.post.1 - a.2)

/-- What is left of the time of the checkpoint before is within the limits just when the time
that has passed is; and a call that passes its checks finds room on the stack. -/
def Punctual (config : FlowMonitorConfig) (x : List Entry × (Nat × FlowMonitor))
    (i : Nat × UInt32) : Prop :=
  (∀ a ∈ lastAcceptedAt x.1, Follows config a.1 i.2 →
    ∀ p ∈ config.checkpoints[a.1.toNat]?, ∀ c ∈ config.checkpoints[i.2.toNat]?, c.Limited →
      (c.InTime (p.maxTimeMs.toNat - (x.2.1 + i.1 - a.2) % 4294967296) ↔
        c.InTime (x.2.1 + i.1 - a.2))) ∧
  (x.2.2.accepts (x.2.1 + i.1) i.2 = true → x.2.2.hasRoom i.2 = true)
  deriving Decidable

section

variable {m m' : FlowMonitor} {now : Nat} {id : UInt32} {c : FlowCheckpointConfig} {o : FlowOutcome}

theorem checkpoint_timing (hinit : m.initialized = true)
    (hc : m.config.checkpoints[id.toNat]? = some c) (hsequence : m.sequenceValid id = some true)
    (hcall : m.checkpoint now id = some (m', o)) :
    o.result = .errorTiming ↔ m.timingValid now c = false := by
  have hlt : id.toNat < m.config.checkpoints.length := (List.getElem?_eq_some_iff.mp hc).1
  simp only [checkpoint, hinit, validateCheckpointId, hlt, hc, hsequence, decide_true,
    Bool.not_true, Bool.or_self, Bool.false_eq_true, if_false, bind_eq_bind, bind_some] at hcall
  cases htiming : m.timingValid now c with
  | false =>
    rw [htiming] at hcall
    cases hcall
    exact iff_of_true rfl rfl
  | true =>
    refine iff_of_false ?_ (Bool.noConfusion ·)
    simp only [htiming, Bool.not_true, Bool.false_eq_true, if_false] at hcall
    intro herror
    split at hcall
    · cases hcall
      cases herror
    · obtain ⟨m₁, -, hrest⟩ := bind_eq_some_iff.mp hcall
      cases hrest
      cases herror

end

theorem lastAccepted_eq_map (log : List Entry) :
    lastAccepted log = (lastAcceptedAt log).map Prod.fst := by
  induction log with
  | nil => rfl
  | cons e past ih =>
    rw [lastAccepted, lastAcceptedAt]
    split
    · rfl
    · exact ih

/-- The monitor remembers the last accepted checkpoint, and its timer runs since then with
the greatest time of that checkpoint. -/
structure Clocked (config : FlowMonitorConfig) (x : List Entry × (Nat × FlowMonitor)) : Prop
    extends Remembers config x where
  timer : ∀ a ∈ lastAcceptedAt x.1, a.2 ≤ x.2.1 ∧
    ∃ p ∈ config.checkpoints[a.1.toNat]?,
      x.2.2.checkpointTimer = .start (Timer.ticks a.2) p.maxTimeMs.toNat

namespace Clocked

variable {s' : Nat × FlowMonitor}
variable {config : FlowMonitorConfig} {x : List Entry × (Nat × FlowMonitor)} {i : Nat × UInt32}
variable {a : UInt32 × Nat} {p c : FlowCheckpointConfig}

variable (h : Clocked config x)
include h

section

variable (ha : a ∈ lastAcceptedAt x.1)
include ha

theorem current_eq : x.2.2.currentCheckpoint = a.1 := by
  rw [h.current, lastAccepted_eq_map, mem_def.mp ha]
  rfl

theorem sequenceValid_of_follows
    (hfollows : Follows config a.1 i.2) : x.2.2.sequenceValid i.2 = some true := by
  rw [sequenceValid, h.current_eq ha, h.same]
  split
  · rfl
  · exact isValidTransition_iff.mpr hfollows

theorem timingValid_iff
    (hp : p ∈ config.checkpoints[a.1.toNat]?) (hlimited : c.Limited) :
    x.2.2.timingValid (x.2.1 + i.1) c = true ↔
      c.InTime (p.maxTimeMs.toNat - (x.2.1 + i.1 - a.2) % 4294967296) := by
  obtain ⟨hle, p', hp', htimer⟩ := h.timer a ha
  obtain rfl : p' = p := mem_unique hp' hp
  have hchecked : (c.minTimeMs > 0 || c.maxTimeMs > 0) = true := by
    rw [Bool.or_eq_true, decide_eq_true_eq, decide_eq_true_eq]
    exact hlimited
  rw [timingValid, if_pos hchecked, htimer,
    Timer.remaining_start _ (hle.trans (Nat.le_add_right _ _))]
  simp [FlowCheckpointConfig.InTime]

end

theorem errorTiming_iff {o : FlowOutcome}
    (hcall : timed checkpoint x.2 i = some (s', o)) (ha : a ∈ lastAcceptedAt x.1)
    (hfollows : Follows config a.1 i.2) (hp : p ∈ config.checkpoints[a.1.toNat]?)
    (hc : c ∈ config.checkpoints[i.2.toNat]?) (hlimited : c.Limited) :
    o.result = .errorTiming ↔
      ¬ c.InTime (p.maxTimeMs.toNat - (x.2.1 + i.1 - a.2) % 4294967296) := by
  obtain ⟨m', hm, rfl⟩ := timed_iff.mp hcall
  rw [checkpoint_timing h.initialized (h.same.symm ▸ hc) (h.sequenceValid_of_follows ha hfollows)
    hm, ← h.timingValid_iff ha hp hlimited, Bool.not_eq_true]

theorem punctual_iff :
    Punctual config x i ↔ ∃ s' o, timed checkpoint x.2 i = some (s', o) ∧
      TimedRight config ⟨x.2, i, o, s'⟩ x.1 := by
  constructor
  · rintro ⟨htime, hroom⟩
    obtain ⟨m', o, hm⟩ := (checkpoint_defined_iff h.initialized h.inTable).mpr hroom
    have hcall := timed_eq hm
    refine ⟨_, o, hcall, fun a ha hfollows c hc hlimited => ?_⟩
    obtain ⟨-, p, hp, -⟩ := h.timer a ha
    rw [h.errorTiming_iff hcall ha hfollows hp hc hlimited,
      htime a ha hfollows p hp c hc hlimited, FlowCheckpointConfig.InTime, not_and_or, Nat.not_le,
      Nat.not_le]
  · rintro ⟨s', o, hcall, hright⟩
    obtain ⟨m', hm, rfl⟩ := timed_iff.mp hcall
    refine ⟨fun a ha hfollows p hp c hc hlimited => not_iff_not.mp ?_,
      (checkpoint_defined_iff h.initialized h.inTable).mp ⟨m', o, hm⟩⟩
    rw [← h.errorTiming_iff hcall ha hfollows hp hc hlimited, hright a ha hfollows c hc hlimited,
      FlowCheckpointConfig.InTime, not_and_or, Nat.not_le, Nat.not_le]

theorem step {o : FlowOutcome} (hcall : timed checkpoint x.2 i = some (s', o)) :
    Clocked config (⟨x.2, i, o, s'⟩ :: x.1, s') := by
  refine ⟨h.toRemembers.step hcall, ?_⟩
  intro a ha
  obtain ⟨m', hm, rfl⟩ := timed_iff.mp hcall
  cases haccepts : x.2.2.accepts (x.2.1 + i.1) i.2 with
  | false =>
    obtain ⟨errors, o', hrefused, hresult⟩ := checkpoint_refused h.inTable haccepts
    cases hrefused.symm.trans hm
    rw [lastAcceptedAt, if_neg hresult] at ha
    obtain ⟨hle, htimer⟩ := h.timer a ha
    exact ⟨hle.trans (Nat.le_add_right _ _), htimer⟩
  | true =>
    obtain ⟨c, hc, -, hok⟩ := checkpoint_accepted h.initialized haccepts
    obtain ⟨m₁, -, heq⟩ := map_eq_some_iff.mp (hok.symm.trans hm)
    cases heq
    obtain rfl := mem_some_iff.mp ha
    exact ⟨.refl, c, h.same ▸ hc, rfl⟩

end Clocked

/-- **The time limits, over every run.** Every call is `TimedRight` exactly in the runs whose calls
are `Punctual`. -/
theorem timing_kept_iff {config : FlowMonitorConfig} {m₀ m : FlowMonitor}
    (hinit : m₀.init (some config) = (m, true)) (started : Nat) (calls : List (Nat × UInt32)) :
    Throughout (logged (timed checkpoint)) (fun x => Historically (TimedRight config) x.1)
        ([], (started, m)) calls ↔
      Along (logged (timed checkpoint)) (Punctual config) ([], (started, m)) calls := by
  refine historically_iff (Clocked config) ?_ ?_ calls ?_ trivial
  · exact fun x i h => h.punctual_iff
  · exact fun x i s' o h _ hcall => h.step hcall
  · exact ⟨remembers_of_init hinit started, fun a ha => nomatch ha⟩

def twoSteps : FlowMonitorConfig :=
  ⟨[⟨.start, 1, 1, 10, 0⟩, ⟨.branch, 0, 0, 10, 2⟩], 8, false⟩

theorem timing_kept_midway :
    (watching twoSteps).init (some twoSteps) = (watching twoSteps, true) ∧
      Throughout (logged (timed checkpoint)) (fun x => Historically (TimedRight twoSteps) x.1)
        ([], (0, watching twoSteps)) [(1, 0), (5, 1), (4, 0), (8, 1)] := by
  have hinit : (watching twoSteps).init (some twoSteps) = (watching twoSteps, true) := rfl
  exact ⟨hinit, (timing_kept_iff hinit 0 _).mpr (by decide)⟩

/-- A checkpoint that comes 9 ms after the one before is refused, and one that comes at once
is accepted. -/
theorem countdown_taken_for_elapsed :
    (∃ m, (watching twoSteps).checkpoint 1 0 = some (m, ⟨.ok, none⟩) ∧
      (∃ m', m.checkpoint 10 1 = some (m', ⟨.errorTiming, none⟩)) ∧
      ∃ m', m.checkpoint 1 1 = some (m', ⟨.ok, none⟩)) ∧
      ¬ Throughout (logged (timed checkpoint)) (fun x => Historically (TimedRight twoSteps) x.1)
        ([], (0, watching twoSteps)) [(1, 0), (9, 1)] := by
  refine ⟨⟨_, rfl, ⟨_, rfl⟩, _, rfl⟩, fun h => ?_⟩
  have hlast := h.last rfl
  have hright := hlast.1 (0, 1) rfl (by decide) ⟨.branch, 0, 0, 10, 2⟩ rfl (by decide)
  exact absurd (hright.mp rfl) (by decide)

end FlowMonitor

end Cant.Safety
