/-
# `Watchdog` — the watchdog thread (`watchdog/watchdog.c`)

The thread reads the clock, resets `patted` under the lock, and waits for a pat until the deadline.
A pat in between is lost, any end of the wait passes for a timeout, and `watchdog_stop` does not
wake the thread. `aborts_quiet_iff`: without these, just the timeouts below 4295 ms are kept.
-/
import Cant.Lib.Run
import Cant.Scheduler.RtScheduler

namespace Cant.Watchdog

open Run Scheduler

variable {timeoutMs : UInt32}

/-- Where `watchdog_thread` stands: before the test of the loop, `clock_gettime` or the lock, in
`pthread_cond_timedwait`, or at its end. -/
inductive Point where
  | test
  | clock
  | lock (ts : Timespec)
  | wait (ts : Timespec)
  | returned
  | aborted

/-- The watchdog and its thread; beside them the time of the start or the last pat, and of the
stop. -/
structure System where
  running : Bool
  patted : Bool
  point : Point
  quietSince : Nat
  stoppedAt : Option Nat

/-- After `watchdog_start`; the clock is in nanoseconds. -/
def start (patted : Bool) (now : Nat) : System := ⟨true, patted, .test, now, none⟩

/-- The deadline; the product has 32 bits, `tv_nsec` 64. -/
def deadline (timeoutMs : UInt32) (now : Nat) : Timespec :=
  let tvNsec := now % 1000000000 + (timeoutMs * 1000000).toNat
  if tvNsec ≥ 1000000000 then
    ⟨↑(now / 1000000000 + tvNsec / 1000000000), tvNsec % 1000000000⟩
  else ⟨↑(now / 1000000000), tvNsec⟩

/-- The thread goes on, or another one calls `watchdog_pat` or `watchdog_stop`. -/
inductive Event where
  | thread
  | pat
  | stop

/-- One event, and whether `abort` is called. As POSIX has it, the wait may end at any time. -/
def step (timeoutMs : UInt32) (now : Nat) (s : System) : Event → Option (System × Bool)
  | .pat => some ({ s with patted := true, quietSince := now }, false)
  | .stop =>
    some (if s.running then { s with running := false, stoppedAt := some now } else s, false)
  | .thread =>
    match s.point with
    | .test => some ({ s with point := if s.running then .clock else .returned }, false)
    | .clock => some ({ s with point := .lock (deadline timeoutMs now) }, false)
    | .lock ts => some ({ s with patted := false, point := .wait ts }, false)
    | .wait _ =>
      if s.patted then some ({ s with point := .test }, false)
      else some ({ s with point := .aborted }, true)
    | .returned | .aborted => some (s, false)

/-- `abort` is called only after `timeout_ms` without a pat, before any stop. -/
def Quiet (timeoutMs : UInt32) (e : Taken (Nat × System) (Nat × Event) Bool) : Prop :=
  e.output = true →
    e.pre.2.quietSince + timeoutMs.toNat * 1000000 ≤ e.pre.2.stoppedAt.getD e.post.1

/-- No pat comes between the reading of the clock and the reset of `patted`; and a wait without a
pat ends at its deadline or later, with no stop before. -/
def Orderly (s : Nat × System) (i : Nat × Event) : Prop :=
  match i.2, s.2.point with
  | .pat, .lock _ => False
  | .thread, .wait ts => s.2.patted = false → ts.nanos ≤ s.2.stoppedAt.getD (s.1 + i.1) ∧
      ts.nanos ≤ ↑(s.1 + i.1)
  | _, _ => True

theorem nanos_deadline (timeoutMs : UInt32) (now : Nat) :
    (deadline timeoutMs now).nanos = now + (timeoutMs * 1000000).toNat := by
  rw [deadline]
  generalize (timeoutMs * 1000000).toNat = product
  split <;> simp only [Timespec.nanos] <;> omega

/-- The last pat is not after the reading of the clock, until a pat comes in the wait. -/
def Inv (timeoutMs : UInt32) (s : Nat × System) : Prop :=
  s.2.quietSince ≤ s.1 ∧
    match s.2.point with
    | .lock ts => s.2.quietSince + (timeoutMs * 1000000).toNat ≤ ts.nanos
    | .wait ts => s.2.patted = false → s.2.quietSince + (timeoutMs * 1000000).toNat ≤ ts.nanos
    | _ => True

theorem product_eq : (timeoutMs * 1000000).toNat = timeoutMs.toNat * 1000000 % 4294967296 := by
  simp [UInt32.toNat_mul]

theorem quiet_of_false {s s' : Nat × System} {i : Nat × Event} :
    Quiet timeoutMs ⟨s, i, false, s'⟩ :=
  nofun

theorem step_keeps (hshort : timeoutMs.toNat ≤ 4294) (s : Nat × System)
    (i : Nat × Event) (h : Inv timeoutMs s) (hok : Orderly s i) :
    ∃ s' o, timed (step timeoutMs) s i = some (s', o) ∧ Inv timeoutMs s' ∧
      Quiet timeoutMs ⟨s, i, o, s'⟩ := by
  obtain ⟨now, running, patted, point, since, stopped⟩ := s
  obtain ⟨delay, event⟩ := i
  obtain ⟨hsince, hpoint⟩ := h
  have hlater : since ≤ now + delay := Nat.le_add_right_of_le hsince
  cases event with
  | pat =>
    refine ⟨_, _, rfl, ⟨.refl, ?_⟩, quiet_of_false⟩
    cases point with
    | lock ts => exact hok.elim
    | wait ts => exact nofun
    | _ => trivial
  | stop => cases running <;> exact ⟨_, _, rfl, ⟨hlater, hpoint⟩, quiet_of_false⟩
  | thread =>
    cases point with
    | test => cases running <;> exact ⟨_, _, rfl, ⟨hlater, trivial⟩, quiet_of_false⟩
    | clock =>
      refine ⟨_, _, rfl, ⟨hlater, ?_⟩, quiet_of_false⟩
      dsimp only
      rw [nanos_deadline]
      omega
    | lock ts => exact ⟨_, _, rfl, ⟨hlater, fun _ => hpoint⟩, quiet_of_false⟩
    | wait ts =>
      cases patted with
      | true => exact ⟨_, _, rfl, ⟨hlater, trivial⟩, quiet_of_false⟩
      | false =>
        refine ⟨_, _, rfl, ⟨hlater, trivial⟩, fun _ => ?_⟩
        have hdeadline := hpoint rfl
        rw [product_eq] at hdeadline
        obtain ⟨hstop, htime⟩ := hok rfl
        dsimp only at hdeadline hstop ⊢
        omega
    | returned | aborted => exact ⟨_, _, rfl, ⟨hlater, trivial⟩, quiet_of_false⟩

/-- **Aborts.** For just the timeouts below 4295 ms, `abort` is called only after a quiet
`timeout_ms`, in every orderly interleaving. -/
theorem aborts_quiet_iff (timeoutMs : UInt32) :
    (∀ patted now is, Along (timed (step timeoutMs)) Orderly (now, start patted now) is →
      Every (timed (step timeoutMs)) (Quiet timeoutMs) (now, start patted now) is) ↔
      timeoutMs.toNat ≤ 4294 := by
  constructor
  · intro hall
    -- nobody pats, and the wait ends at its deadline
    obtain ⟨w, hw⟩ : ∃ w, (timeoutMs * 1000000).toNat = w := ⟨_, rfl⟩
    have hdeadline : (deadline timeoutMs 0).nanos ≤ ↑(0 + w) := by
      rw [nanos_deadline, hw]
      omega
    have hevery := hall false 0 [(0, .thread), (0, .thread), (0, .thread), (w, .thread)] (by
      iterate 3
        refine ⟨trivial, ?_⟩
        rintro _ _ ⟨⟩
      exact ⟨fun _ => ⟨hdeadline, hdeadline⟩, fun _ _ _ => trivial⟩)
    obtain ⟨_, _, ⟨⟩, -, _, _, ⟨⟩, -, _, _, ⟨⟩, -, _, _, ⟨⟩, hquiet, -⟩ := hevery
    have htime : 0 + timeoutMs.toNat * 1000000 ≤ 0 + w := hquiet rfl
    rw [← hw, product_eq] at htime
    omega
  · intro hshort patted now is
    exact every_of_along (Inv timeoutMs) (step_keeps hshort) is ⟨.refl, trivial⟩

/-- With a timeout of 1 s: a pat at 0.9 s is lost; a stop comes at 0.5 s. With 5 s:
no pat after the start. -/
theorem aborts_early :
    (¬ Every (timed (step 1000)) (Quiet 1000) (0, start false 0) [(0, .thread), (0, .thread),
      (900000000, .pat), (0, .thread), (100000000, .thread)]) ∧
    (¬ Every (timed (step 1000)) (Quiet 1000) (0, start false 0) [(0, .thread), (0, .thread),
      (0, .thread), (500000000, .stop), (500000000, .thread)]) ∧
    ¬ Every (timed (step 5000)) (Quiet 5000) (0, start false 0) [(0, .pat), (0, .thread),
      (0, .thread), (0, .thread), (705032704, .thread)] := by
  refine ⟨?_, ?_, ?_⟩ <;>
    rintro ⟨_, _, ⟨⟩, -, _, _, ⟨⟩, -, _, _, ⟨⟩, -, _, _, ⟨⟩, -, _, _, ⟨⟩, hquiet, -⟩ <;>
    exact absurd (hquiet rfl) (by decide)

end Cant.Watchdog
