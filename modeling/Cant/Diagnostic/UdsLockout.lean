/-
# `UdsLockout` — the delay after wrong keys

After `security_attempt_limit` wrong keys in a row no key is to be accepted for
`security_delay_ms`. The handler counts in `security_attempt_count` and locks with
`security_locked`, and session control clears both: a tester who asks for a session after
each wrong key is never locked out (`attempts_without_end`). `lockout_kept` asks for just
that much: a session, or a reset, comes before the first wrong key or after the delay.
-/
import Cant.Lib.Lockout
import Cant.Diagnostic.UdsSecurity

namespace Cant.Diagnostic.Uds.UdsHandler

variable {clock delta : Nat} {call : UdsCall}

open Run Past Lockout

def mark (e : Entry) : Mark := .ofAnswer (compares (Timer.ticks e.post.1) e.pre.2 e.input.2)

def LockoutKept (config : UdsConfig) (x : Logged) : Prop :=
  Kept config.securityAttemptLimit.toNat mark (·.post.1) config.securityDelayMs Accepted x.1

/-- Calls that clear the lock and the counter. -/
def Clears : UdsCall → Prop
  | .request _ r _ => EntersSession r
  | .processTimeout => False
  | .resetSession => True

/-- Such a call finds nothing to clear: the delay is over, or no key was wrong. -/
def NothingToClear (x : Logged) (i : Nat × UdsCall) : Prop :=
  Clears i.2 →
    (x.2.2.securityLocked = true → x.2.2.securityDelayTimer.expired (Timer.ticks (x.2.1 + i.1)) =
      true) ∧ (x.2.2.securityLocked = false → x.2.2.securityAttemptCount = 0)

/-! ## What the handler knows -/

/-- The counter is the row of wrong keys, and the lock was set by the last completed one. -/
inductive Knows (config : UdsConfig) (log : List Entry) (now : Nat) (s : UdsHandler) : Prop
  | counting (hlocked : s.securityLocked = false)
      (hlt : s.securityAttemptCount.toNat < config.securityAttemptLimit.toNat)
      (h : (Lock.counting s.securityAttemptCount.toNat).Tracks config.securityAttemptLimit.toNat
        config.securityDelayMs mark (·.post.1) log now)
  | shut (t : Nat) (hle : t ≤ now) (hlocked : s.securityLocked = true)
      (htimer : s.securityDelayTimer = .start (Timer.ticks t) config.securityDelayMs)
      (h : (Lock.shut t).Tracks config.securityAttemptLimit.toNat config.securityDelayMs mark
        (·.post.1) log now)

section

variable {config : UdsConfig} {log : List Entry} {now now' : Nat} {s s' : UdsHandler} {e : Entry}

section

variable (h : Knows config log now s)
include h

theorem Knows.wait (hle : now ≤ now') : Knows config log now' s := by
  cases h with
  | counting hlocked hlt h => exact .counting hlocked hlt (h.wait hle)
  | shut t hle' hlocked htimer h => exact .shut t (hle'.trans hle) hlocked htimer (h.wait hle)

theorem Knows.of_eq (hlocked : s'.securityLocked = s.securityLocked)
    (hcount : s'.securityAttemptCount = s.securityAttemptCount)
    (htimer : s'.securityDelayTimer = s.securityDelayTimer) : Knows config log now s' := by
  cases h with
  | counting h₁ h₂ h₃ => exact .counting (hlocked.trans h₁) (hcount ▸ h₂) (hcount ▸ h₃)
  | shut t h₁ h₂ h₃ h₄ => exact .shut t h₁ (hlocked.trans h₂) (htimer.trans h₃) h₄

theorem Knows.neither (he : mark e = .neither) : Knows config (e :: log) now s := by
  cases h with
  | counting h₁ h₂ h₃ => exact .counting h₁ h₂ (h₃.neither he)
  | shut t h₁ h₂ h₃ h₄ => exact .shut t h₁ h₂ h₃ (h₄.neither he)

theorem Knows.reopen (hlocked : s.securityLocked = true)
    (hover : s.securityDelayTimer.expired (Timer.ticks now) = true) :
    (Lock.counting 0).Tracks config.securityAttemptLimit.toNat config.securityDelayMs mark
      (·.post.1) log now := by
  cases h with
  | counting hopen => cases hlocked.symm.trans hopen
  | shut t hle _ htimer h =>
    rw [htimer] at hover
    exact h.reopen (Timer.le_of_expired hle hover)

theorem Knows.unlock (hlimit : 0 < config.securityAttemptLimit)
    (hopen : ¬ (s.securityLocked ∧ ¬ s.securityDelayTimer.expired (Timer.ticks now))) :
    s.unlock.securityLocked = false ∧
      s.unlock.securityAttemptCount.toNat < config.securityAttemptLimit.toNat ∧
      (Lock.counting s.unlock.securityAttemptCount.toNat).Tracks config.securityAttemptLimit.toNat
        config.securityDelayMs mark (·.post.1) log now := by
  cases hlocked : s.securityLocked with
  | false =>
    have hsame : s.unlock = s := by simp [UdsHandler.unlock, hlocked]
    rw [hsame]
    cases h with
    | counting h₁ h₂ h₃ => exact ⟨h₁, h₂, h₃⟩
    | shut t _ h₂ => cases hlocked.symm.trans h₂
  | true =>
    have hover : s.securityDelayTimer.expired (Timer.ticks now) = true := by
      by_contra hnot
      exact hopen ⟨hlocked, hnot⟩
    have hsame : s.unlock = { s with securityLocked := false, securityAttemptCount := 0 } := by
      simp [UdsHandler.unlock, hlocked]
    rw [hsame]
    exact ⟨rfl, UInt8.lt_iff_toNat_lt.mp hlimit, h.reopen hlocked hover⟩

end

theorem Knows.refuse (hconfig : s.config = config) (hlocked : s.securityLocked = false)
    (hlt : s.securityAttemptCount.toNat < config.securityAttemptLimit.toNat)
    (h : (Lock.counting s.securityAttemptCount.toNat).Tracks config.securityAttemptLimit.toNat
        config.securityDelayMs mark (·.post.1) log now)
    (he : mark e = .wrong) (htime : e.post.1 = now) :
    Knows config (e :: log) now (s.refuse (Timer.ticks now)) := by
  have hcount := Word.toNat_succ_of_lt hlt config.securityAttemptLimit.toNat_lt
  simp only [UdsHandler.refuse, hconfig, ge_iff_le]
  by_cases hdone : config.securityAttemptLimit ≤ s.securityAttemptCount + 1
  · rw [if_pos hdone]
    rw [UInt8.le_iff_toNat_le, hcount] at hdone
    exact .shut now .refl rfl rfl (h.shuts he hdone htime)
  · rw [if_neg hdone]
    rw [UInt8.le_iff_toNat_le, hcount] at hdone
    have hnext := h.wrong he (Nat.lt_of_not_le hdone)
    rw [← hcount] at hnext hdone
    exact .counting hlocked (Nat.lt_of_not_le hdone) hnext

theorem Knows.enter (h : Knows config log now s) (hlimit : 0 < config.securityAttemptLimit)
    (hnothing : (s.securityLocked = true → s.securityDelayTimer.expired (Timer.ticks now) = true) ∧
      (s.securityLocked = false → s.securityAttemptCount = 0)) (session : UdsSessionType) :
    Knows config log now (s.enter session) := by
  have hempty : (Lock.counting 0).Tracks config.securityAttemptLimit.toNat config.securityDelayMs
      mark (·.post.1) log now := by
    cases hlocked : s.securityLocked with
    | true => exact h.reopen hlocked (hnothing.1 hlocked)
    | false =>
      have hzero := hnothing.2 hlocked
      cases h with
      | counting _ _ h => rwa [hzero] at h
      | shut _ _ hlocked' => cases hlocked.symm.trans hlocked'
  exact .counting rfl (UInt8.lt_iff_toNat_lt.mp hlimit) hempty

end

variable {out : UdsOut} {s' : UdsHandler}

theorem Knows.step {config : UdsConfig} {log : List Entry}
    {s : UdsHandler} (hlimit : 0 < config.securityAttemptLimit) (hconfig : s.config = config)
    (h : Knows config log (clock + delta) s)
    (hmoves : Moves (Timer.ticks (clock + delta)) s call s' out)
    (hclear : NothingToClear (log, (clock, s)) (delta, call)) :
    Knows config (⟨(clock, s), (delta, call), out, (clock + delta, s')⟩ :: log)
      (clock + delta) s' := by
  have hmark : compares (Timer.ticks (clock + delta)) s call = none →
      mark ⟨(clock, s), (delta, call), out, (clock + delta, s')⟩ = .neither :=
    fun hnone => congrArg Mark.ofAnswer hnone
  obtain ⟨timer, htouch⟩ := touch_eq s (Timer.ticks (clock + delta))
  have htouched : Knows config log (clock + delta) { s with sessionTimer := timer } :=
    h.of_eq rfl rfl rfl
  cases hmoves with
  | ignored _ hcompares =>
    rw [htouch] at hmark ⊢
    exact htouched.neither (hmark hcompares)
  | entered session hservice hlength hsession _ =>
    have hnothing := hclear ⟨hservice, hlength, by rw [hsession]; exact nofun⟩
    have hnone := hmark (compares_of_ne (by rw [hservice]; decide))
    rw [htouch] at hnone ⊢
    exact (htouched.enter hlimit hnothing session).neither hnone
  | seeded _ hodd hopen _ _ =>
    have hnone := hmark (if_neg fun hall => hall.2.2.1 hodd)
    rw [htouch] at hnone ⊢
    obtain ⟨h₁, h₂, h₃⟩ := htouched.unlock hlimit hopen
    exact .counting h₁ h₂ (h₃.neither hnone)
  | opened _ hlength hopen _ =>
    have hnone := hmark (if_neg fun hall => hlength hall.2.2.2.1)
    rw [htouch] at hnone ⊢
    obtain ⟨h₁, h₂, h₃⟩ := htouched.unlock hlimit hopen
    exact .counting h₁ h₂ (h₃.neither hnone)
  | granted _ _ _ hcompares _ =>
    have hopen := (allowed_of_compares hcompares).2
    rw [htouch]
    obtain ⟨h₁, h₂, h₃⟩ := htouched.unlock hlimit hopen
    refine .counting h₁ (UInt8.lt_iff_toNat_lt.mp hlimit) (.of_ends h₃.2 ?_)
    exact congrArg Mark.ofAnswer hcompares
  | refused hcompares _ =>
    have hopen := (allowed_of_compares hcompares).2
    rw [htouch]
    obtain ⟨h₁, h₂, h₃⟩ := htouched.unlock hlimit hopen
    obtain ⟨_, _, hunlock⟩ := unlock_eq { s with sessionTimer := timer }
    refine Knows.refuse ?_ h₁ h₂ h₃ ?_ rfl
    · rw [hunlock]
      exact hconfig
    · exact congrArg Mark.ofAnswer hcompares
  | polled =>
    have hnone := hmark rfl
    rcases processTimeout_eq s (Timer.ticks (clock + delta)) with ⟨-, heq⟩ | heq
    · rw [heq] at hnone ⊢
      exact (h.neither hnone).of_eq rfl rfl rfl
    · rw [heq] at hnone ⊢
      exact h.neither hnone
  | reset => exact (h.enter hlimit (hclear trivial) .default).neither (hmark rfl)

structure Watched (config : UdsConfig) (x : Logged) : Prop where
  initialized : x.2.2.initialized = true
  settings : x.2.2.config = config
  knows : Knows config x.1 x.2.1 x.2.2
  kept : LockoutKept config x

theorem Watched.step {config : UdsConfig} {x : Logged} {i : Nat × UdsCall}
    (hlimit : 0 < config.securityAttemptLimit) (h : Watched config x) (hclear : NothingToClear x i)
    (hmoves : Moves (Timer.ticks (x.2.1 + i.1)) x.2.2 i.2 s' out) :
    Watched config (⟨x.2, i, out, (x.2.1 + i.1, s')⟩ :: x.1, (x.2.1 + i.1, s')) := by
  have hknows := h.knows.wait (Nat.le_add_right x.2.1 i.1)
  refine ⟨hmoves.frame.1.trans h.initialized, hmoves.frame.2.trans h.settings,
    hknows.step hlimit h.settings hmoves hclear, ?_, h.kept⟩
  intro haccepted
  cases effect hmoves with
  | resets _ _ hnot | issues _ _ _ _ hnot => exact absurd haccepted hnot
  | accepts _ _ _ _ _ _ _ hcompares =>
    exact (hknows.unlock hlimit (allowed_of_compares hcompares).2).2.2.2
  | quiet hquiet => exact absurd haccepted hquiet.accepted

/-- **The lockout.** In every run from `UDS_Handler_Init` in which nobody clears wrong keys
by asking for a session, no key is accepted in the delay after the last one allowed. -/
theorem lockout_kept (s₀ : UdsHandler) (t₀ : Nat) (config : UdsConfig)
    (calls : List (Nat × UdsCall)) (hlimit : 1 ≤ config.securityAttemptLimit)
    (hclear : Along (logged clocked) NothingToClear ([], (t₀, s₀.init (Timer.ticks t₀) config))
      calls) :
    Throughout (logged clocked) (LockoutKept config)
      ([], (t₀, s₀.init (Timer.ticks t₀) config)) calls := by
  have hpos : 0 < config.securityAttemptLimit :=
    UInt8.lt_iff_toNat_lt.mpr (UInt8.le_iff_toNat_le.mp hlimit)
  refine throughout_logged (Watched config) (fun _ h => h.kept)
    (fun t => step_total (Timer.ticks t)) ?_ calls ⟨rfl, rfl, ?_, trivial⟩ hclear
  · intro x i s' out h hok hstep
    exact h.step hpos hok (moves h.initialized hstep)
  · exact .counting rfl (UInt8.lt_iff_toNat_lt.mp hpos) ⟨rfl, nofun⟩

/-- Three wrong keys, and the right one twelve seconds later. -/
theorem lockout_kept_after_three :
    Throughout (logged clocked) (LockoutKept plain) ([], (0, zeroed.init (Timer.ticks 0) plain))
      [(1, askExtended), (1, askSeed 1), (1, sendKey 2 1 0 0 0), (1, sendKey 2 2 0 0 0),
        (1, sendKey 2 3 0 0 0), (12000, sendKey 2 0x77 0x06 0x8B 0xCD)] := by
  refine lockout_kept zeroed 0 plain _ (by decide) ?_
  refine (along_cons_of rfl).mpr ⟨fun _ => ⟨nofun, fun _ => rfl⟩, ?_⟩
  refine (along_cons_of rfl).mpr ⟨fun h => absurd h.1 nofun, ?_⟩
  refine (along_cons_of rfl).mpr ⟨fun h => absurd h.1 nofun, ?_⟩
  refine (along_cons_of rfl).mpr ⟨fun h => absurd h.1 nofun, ?_⟩
  refine (along_cons_of rfl).mpr ⟨fun h => absurd h.1 nofun, ?_⟩
  exact (along_cons_of rfl).mpr ⟨fun h => absurd h.1 nofun, trivial⟩

/-- The extended session is asked for again after the third wrong key, and the right key is
accepted a millisecond later. -/
theorem attempts_without_end :
    ¬ Throughout (logged clocked) (LockoutKept plain) ([], (0, zeroed.init (Timer.ticks 0) plain))
      [(1, askExtended), (1, askSeed 1), (1, sendKey 2 1 0 0 0), (1, sendKey 2 2 0 0 0),
        (1, sendKey 2 3 0 0 0), (1, askExtended), (1, sendKey 2 0x77 0x06 0x8B 0xCD)] := by
  intro h
  have hbad := (h.last rfl).1 ⟨_, _, rfl, rfl, by decide, rfl, rfl⟩ 5 (by decide)
  exact absurd hbad (by decide)

end Cant.Diagnostic.Uds.UdsHandler
