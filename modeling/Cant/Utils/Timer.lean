/-
# `Timer` — software timers (`timer.c`)

`system_ticks` is a `uint32_t` that the tick interrupt counts up once a millisecond. A
timer keeps the count it was started at, and the difference is taken modulo `2 ^ 32`: the
wrap of the counter does no harm, but a timer that is not looked at for `2 ^ 32`
milliseconds starts over (`expired_start`).
-/
import Cant.Lib.Word

namespace Cant

open Word

structure Timer where
  startTime : Nat
  timeout : Nat
  running : Bool
  deriving DecidableEq

def Timer.start (now timeoutMs : Nat) : Timer := ⟨now, timeoutMs, true⟩

def Timer.expired (t : Timer) (now : Nat) : Bool :=
  t.running && decide (u32 (now - t.startTime) ≥ t.timeout)

def Timer.remaining (t : Timer) (now : Nat) : Nat :=
  if !t.running then 0
  else
    let elapsed := u32 (now - t.startTime)
    if elapsed ≥ t.timeout then 0 else t.timeout - elapsed

namespace Timer

variable {t now : Nat}

def idle : Timer := ⟨0, 0, false⟩

def ticks (now : Nat) : Nat := u32 now

theorem ticks_sub (h : t ≤ now) : u32 ((ticks now : Int) - ticks t) = (now - t) % 4294967296 := by
  unfold ticks u32
  omega

theorem expired_start (timeout : Nat) (h : t ≤ now) :
    (start (ticks t) timeout).expired (ticks now) = true ↔ timeout ≤ (now - t) % 4294967296 := by
  simp [expired, start, ticks_sub h]

theorem remaining_start (timeout : Nat) (h : t ≤ now) :
    (start (ticks t) timeout).remaining (ticks now) = timeout - (now - t) % 4294967296 := by
  simp only [remaining, start, ticks_sub h, Bool.not_true, Bool.false_eq_true, if_false]
  split
  · omega
  · rfl

theorem le_of_expired {timeout : Nat} (h : t ≤ now)
    (hexpired : (start (ticks t) timeout).expired (ticks now) = true) : t + timeout ≤ now := by
  rw [expired_start timeout h] at hexpired
  omega

end Timer

end Cant
