/-
# `RtScheduler` — the releases of a periodic task (`scheduler/rt_scheduler.c`)

`task_wrapper` moves `next_release` on by one period in every pass of its loop. The period in
nanoseconds is a product of 32 bits, and at most one second is carried. `releases_exact_iff` says
for which periods that is enough: up to one second, and no longer, wherever the task starts.
-/
import Mathlib.Logic.Function.Iterate

namespace Cant.Scheduler

structure Timespec where
  tvSec : Int
  tvNsec : Nat

def Timespec.nanos (t : Timespec) : Int := t.tvSec * 1000000000 + t.tvNsec

/-- The next release time, as a pass of the loop of `task_wrapper` computes it. -/
def nextRelease (periodUs : UInt32) (t : Timespec) : Timespec :=
  let tvNsec := t.tvNsec + (periodUs * 1000).toNat
  if tvNsec ≥ 1000000000 then ⟨t.tvSec + 1, tvNsec - 1000000000⟩ else ⟨t.tvSec, tvNsec⟩

/-- The release time after `n` passes. -/
def released (periodUs : UInt32) (start : Timespec) (n : Nat) : Timespec :=
  (nextRelease periodUs)^[n] start

/-- The `n`-th release is so many periods after the start, and a proper time. -/
def Exact (periodUs : UInt32) (start : Timespec) (n : Nat) : Prop :=
  (released periodUs start n).tvNsec < 1000000000 ∧
    (released periodUs start n).nanos = start.nanos + n * (periodUs.toNat * 1000)

variable {periodUs : UInt32} {start : Timespec}

theorem released_succ (n : Nat) :
    released periodUs start (n + 1) = nextRelease periodUs (released periodUs start n) :=
  Function.iterate_succ_apply' ..

theorem nanos_nextRelease (t : Timespec) :
    (nextRelease periodUs t).nanos = t.nanos + (periodUs * 1000).toNat := by
  unfold nextRelease Timespec.nanos
  dsimp only
  split <;> dsimp only <;> omega

theorem tvNsec_nextRelease (t : Timespec) {product : Nat} (h : (periodUs * 1000).toNat = product) :
    (nextRelease periodUs t).tvNsec =
      if t.tvNsec + product ≥ 1000000000 then t.tvNsec + product - 1000000000
      else t.tvNsec + product := by
  subst h
  unfold nextRelease
  dsimp only
  split <;> rfl

theorem product_eq (h : periodUs.toNat * 1000 < 4294967296) :
    (periodUs * 1000).toNat = periodUs.toNat * 1000 :=
  (UInt32.toNat_mul ..).trans (Nat.mod_eq_of_lt h)

theorem exact_of_short (hstart : start.tvNsec < 1000000000) (hshort : periodUs.toNat ≤ 1000000) :
    ∀ n, Exact periodUs start n
  | 0 => ⟨hstart, by simp [released]⟩
  | n + 1 => by
    obtain ⟨hproper, htime⟩ := exact_of_short hstart hshort n
    have hproduct : (periodUs * 1000).toNat = periodUs.toNat * 1000 := product_eq (by omega)
    unfold Exact
    rw [released_succ, nanos_nextRelease, htime, hproduct]
    constructor
    · rw [tvNsec_nextRelease _ hproduct]
      split <;> omega
    · rw [Int.natCast_add, Int.add_mul]
      omega

theorem nanoseconds_grow (hlong : 1000000 < periodUs.toNat) (hall : ∀ n, Exact periodUs start n) :
    ∀ n, n ≤ (released periodUs start n).tvNsec
  | 0 => Nat.zero_le _
  | n + 1 => by
    have hbefore := nanoseconds_grow hlong hall n
    obtain ⟨-, htime⟩ := hall n
    obtain ⟨-, hnext⟩ := hall (n + 1)
    rw [released_succ, nanos_nextRelease, htime] at hnext
    have hproduct : (periodUs * 1000).toNat = periodUs.toNat * 1000 := by
      rw [Int.natCast_add, Int.add_mul] at hnext
      omega
    rw [released_succ, tvNsec_nextRelease _ hproduct]
    clear hnext htime
    split <;> omega

/-- **The releases of a task.** Every release is a proper time, and the `n`-th one is exactly `n`
periods after the start, for the periods up to one second and for no other. -/
theorem releases_exact_iff (hstart : start.tvNsec < 1000000000) :
    (∀ n, Exact periodUs start n) ↔ periodUs.toNat ≤ 1000000 := by
  refine ⟨fun hall => ?_, exact_of_short hstart⟩
  by_contra hlong
  have hgrown := nanoseconds_grow (Nat.lt_of_not_le hlong) hall 1000000000
  exact absurd (hall 1000000000).1 (Nat.not_lt.mpr hgrown)

/-- A period of half a second, from the end of a second on. -/
theorem releases_exact_half : Exact 500000 ⟨5, 999999999⟩ 7 :=
  (releases_exact_iff (by decide)).mpr (by decide) 7

/-- The first release after two seconds is no proper time. -/
theorem two_seconds_not_carried : ¬ Exact 2000000 ⟨0, 0⟩ 1 := by
  rintro ⟨hproper, -⟩
  exact absurd hproper (by decide)

end Cant.Scheduler
