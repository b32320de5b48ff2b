/-
# `SecurityState` — one security level (`security_state.c`)

A context is locked, has sent a seed, is unlocked, or waits out the delay after three wrong
keys. `get_timestamp` returns a field of a local `Timer` that nothing sets, so every reading is
an argument of its call, apart from the clock of the run: `now` is what the delay is made of and
compared with, and `stamp` what the seed is made from.

The delay ends at `delay_end`, a sum in 32 bits that is compared as a number, and
`Security_State_Lock` ends it at any time, with the count of wrong keys. `delay_kept` asks for a
delay that starts with the clock, and that nothing ends early.
-/
import Cant.Lib.Lockout

namespace Cant.Diagnostic

open Run Lockout

inductive SecurityState where
  | locked | seedSent | unlocked | delayActive
  deriving DecidableEq

structure SecurityStateContext where
  level : UInt8
  state : SecurityState
  timestamp : UInt32
  seed : UInt32
  attempts : UInt32
  delayEnd : UInt32

namespace SecurityStateContext

def securityDelayMs : Nat := 10000

def maxAttempts : Nat := 3

def seedKeyMagic : UInt32 := 0x5C731A9B

def calculateKey (seed : UInt32) : UInt32 :=
  let key := seed ^^^ seedKeyMagic
  let key := ((key <<< 13) ||| (key >>> 19)) + 0x4D34F521
  let key := key ^^^ (key >>> 7)
  let key := key + (key <<< 11)
  key ^^^ (key >>> 5)

def init (level : UInt8) (now : UInt32) : SecurityStateContext := ⟨level, .locked, now, 0, 0, 0⟩

def send (c : SecurityStateContext) (stamp : UInt32) : SecurityStateContext :=
  { c with
    timestamp := stamp, seed := stamp ^^^ (seedKeyMagic + c.level.toUInt32), state := .seedSent }

/-- `Security_State_RequestSeed`, with the seed where it returns one. -/
def requestSeed (c : SecurityStateContext) (now stamp : UInt32) :
    SecurityStateContext × Option UInt32 :=
  if c.state = .delayActive ∧ now < c.delayEnd then (c, none)
  else
    let c := if c.state = .delayActive then { c with state := .locked } else c
    if c.state ≠ .locked then (c, none) else (c.send stamp, some (c.send stamp).seed)

def accept (c : SecurityStateContext) : SecurityStateContext :=
  { c with state := .unlocked, attempts := 0 }

def reject (c : SecurityStateContext) (now : UInt32) : SecurityStateContext :=
  let c := { c with attempts := c.attempts + 1 }
  if c.attempts ≥ UInt32.ofNat maxAttempts then
    { c with
      state := .delayActive, delayEnd := now + UInt32.ofNat securityDelayMs, attempts := 0 }
  else { c with state := .locked }

def validateKey (c : SecurityStateContext) (now key : UInt32) : SecurityStateContext × Bool :=
  if c.state ≠ .seedSent then (c, false)
  else if key = calculateKey c.seed then (c.accept, true)
  else (c.reject now, false)

def lock (c : SecurityStateContext) : SecurityStateContext :=
  { c with state := .locked, attempts := 0, seed := 0 }

def processTimeout (c : SecurityStateContext) (now : UInt32) : SecurityStateContext × Bool :=
  if c.state = .delayActive ∧ now ≥ c.delayEnd then ({ c with state := .locked }, true)
  else (c, false)

/-! ## What the calls do -/

def Ready (c : SecurityStateContext) (now : UInt32) : Prop :=
  c.state = .locked ∨ c.state = .delayActive ∧ ¬ now < c.delayEnd
  deriving Decidable

theorem requestSeed_eq (c : SecurityStateContext) (now stamp : UInt32) :
    c.requestSeed now stamp =
      if c.Ready now then (c.send stamp, some (c.send stamp).seed) else (c, none) := by
  obtain ⟨level, state, timestamp, seed, attempts, delayEnd⟩ := c
  cases state with
  | locked | seedSent | unlocked => rfl
  | delayActive =>
    by_cases hlt : now < delayEnd
    · simp [requestSeed, Ready, hlt]
    · simp [requestSeed, Ready, hlt, send]

def compares (c : SecurityStateContext) (key : UInt32) : Option Bool :=
  if c.state = .seedSent then some (decide (key = calculateKey c.seed)) else none

variable {c : SecurityStateContext}

theorem compares_eq_some {key : UInt32} {right : Bool} (h : c.compares key = some right) :
    c.state = .seedSent ∧ (right = true ↔ key = calculateKey c.seed) := by
  unfold compares at h
  split at h
  case isTrue hsent =>
    cases h
    exact ⟨hsent, decide_eq_true_iff⟩
  case isFalse => cases h

theorem reject_state (c : SecurityStateContext) (now : UInt32) :
    (c.reject now).state ≠ .seedSent ∧ (c.reject now).state ≠ .unlocked := by
  simp only [reject]
  split <;> exact ⟨nofun, nofun⟩

theorem locked_state (h : c.state = .locked) : c.state ≠ .seedSent ∧ c.state ≠ .unlocked := by
  rw [h]
  decide

theorem processTimeout_state {now : UInt32}
    (h : (c.processTimeout now).1.state = .seedSent ∨ (c.processTimeout now).1.state = .unlocked) :
    (c.processTimeout now).1 = c := by
  unfold processTimeout at h ⊢
  split at h
  case isTrue => exact absurd h (by rintro (⟨⟨⟩⟩ | ⟨⟨⟩⟩))
  case isFalse hnot => exact congrArg Prod.fst (if_neg hnot)

theorem processTimeout_of_ne (h : c.state ≠ .delayActive) (now : UInt32) :
    c.processTimeout now = (c, false) := if_neg fun hdelay => h hdelay.1

theorem validateKey_eq (c : SecurityStateContext) (now key : UInt32) :
    c.validateKey now key = match c.compares key with
      | none => (c, false)
      | some true => (c.accept, true)
      | some false => (c.reject now, false) := by
  unfold validateKey compares
  by_cases hstate : c.state = .seedSent
  · by_cases hkey : key = calculateKey c.seed
    · simp [hstate, hkey]
    · simp [hstate, hkey]
  · simp [hstate]

theorem validateKey_unlocks {now key : UInt32} (h : (c.validateKey now key).2 = true) :
    (c.validateKey now key).1.state = .unlocked := by
  rw [validateKey_eq] at h ⊢
  split at h
  · cases h
  · rfl
  · cases h

/-- A call on the context, with what `get_timestamp` returns in it. -/
inductive Call where
  | requestSeed (now stamp : UInt32)
  | validateKey (key now : UInt32)
  | lock
  | processTimeout (now : UInt32)

structure Answer where
  result : Bool
  seed : Option UInt32

/-- A call; the clock of the run is not read. -/
def step (_ : Nat) (c : SecurityStateContext) : Call → Option (SecurityStateContext × Answer)
  | .requestSeed now stamp =>
    let r := c.requestSeed now stamp
    some (r.1, ⟨r.2.isSome, r.2⟩)
  | .validateKey key now =>
    let r := c.validateKey now key
    some (r.1, ⟨r.2, none⟩)
  | .lock => some (c.lock, ⟨true, none⟩)
  | .processTimeout now =>
    let r := c.processTimeout now
    some (r.1, ⟨r.2, none⟩)

abbrev Entry : Type := Taken (Nat × SecurityStateContext) (Nat × Call) Answer

abbrev Logged : Type := List Entry × (Nat × SecurityStateContext)

def tries (c : SecurityStateContext) : Call → Option Bool
  | .validateKey key _ => c.compares key
  | _ => none

def mark (e : Entry) : Mark := .ofAnswer (e.pre.2.tries e.input.2)

/-- **The delay.** No seed within `SECURITY_DELAY_MS` of the last of `MAX_ATTEMPTS` wrong keys
in a row. -/
def DelayKept (x : Logged) : Prop :=
  Kept maxAttempts mark (·.post.1) securityDelayMs (fun e => e.output.seed ≠ none) x.1

def Elapsed (c : SecurityStateContext) (time : Nat) : Prop :=
  securityDelayMs ≤ (UInt32.ofNat time - (c.delayEnd - UInt32.ofNat securityDelayMs)).toNat
  deriving Decidable

/-- Nobody locks the context in the delay or after a wrong key; a delay starts at a reading of the
clock; and where a reading has reached `delay_end` as a number, the delay is over. -/
def Undisturbed (x : Logged) (i : Nat × Call) : Prop :=
  match i.2 with
  | .lock => (x.2.2.state = .delayActive → x.2.2.Elapsed (x.2.1 + i.1)) ∧
      (x.2.2.state ≠ .delayActive → x.2.2.attempts = 0)
  | .validateKey key now => x.2.2.compares key = some false →
      maxAttempts ≤ x.2.2.attempts.toNat + 1 → now = .ofNat (x.2.1 + i.1)
  | .requestSeed now _ | .processTimeout now => x.2.2.state = .delayActive →
      x.2.2.delayEnd ≤ now → x.2.2.Elapsed (x.2.1 + i.1)

instance (x : Logged) : ∀ i, Decidable (Undisturbed x i)
  | (_, .lock) | (_, .validateKey ..) | (_, .requestSeed ..) | (_, .processTimeout _) => by
    unfold Undisturbed
    infer_instance

inductive Knows (log : List Entry) (now : Nat) (c : SecurityStateContext) : Prop
  | counting (hstate : c.state ≠ .delayActive) (hlt : c.attempts.toNat < maxAttempts)
      (h : (Lock.counting c.attempts.toNat).Tracks maxAttempts securityDelayMs mark
        (·.post.1) log now)
  | shut (t : Nat) (hle : t ≤ now) (hstate : c.state = .delayActive) (hattempts : c.attempts = 0)
      (hend : c.delayEnd = .ofNat t + .ofNat securityDelayMs)
      (h : (Lock.shut t).Tracks maxAttempts securityDelayMs mark (·.post.1) log now)

section

variable {log : List Entry} {now now' : Nat} {c c' : SecurityStateContext} {e : Entry}

theorem Knows.wait (h : Knows log now c) (hle : now ≤ now') : Knows log now' c := by
  cases h with
  | counting h₁ h₂ h₃ => exact .counting h₁ h₂ (h₃.wait hle)
  | shut t h₁ h₂ h₃ h₄ h₅ => exact .shut t (Nat.le_trans h₁ hle) h₂ h₃ h₄ (h₅.wait hle)

theorem Knows.neither (h : Knows log now c) (he : mark e = .neither) : Knows (e :: log) now c := by
  cases h with
  | counting h₁ h₂ h₃ => exact .counting h₁ h₂ (h₃.neither he)
  | shut t h₁ h₂ h₃ h₄ h₅ => exact .shut t h₁ h₂ h₃ h₄ (h₅.neither he)

theorem toNat_ofNat_sub_le {t : Nat} (h : t ≤ now) :
    (UInt32.ofNat now - UInt32.ofNat t).toNat ≤ now - t := by
  rw [UInt32.toNat_sub, UInt32.toNat_ofNat', UInt32.toNat_ofNat']
  omega

theorem Knows.reopen (h : Knows log now c) (hstate : c.state = .delayActive)
    (hover : c.Elapsed now) : c.attempts = 0 ∧
      (Lock.counting 0).Tracks maxAttempts securityDelayMs mark (·.post.1) log now := by
  cases h with
  | counting hnot => exact absurd hstate hnot
  | shut t hle _ hattempts hend h =>
    rw [Elapsed, hend, UInt32.add_sub_cancel] at hover
    have := toNat_ofNat_sub_le hle
    exact ⟨hattempts, h.reopen (by omega)⟩

theorem Knows.counts (h : Knows log now c) (hstate : c.state ≠ .delayActive) :
    c.attempts.toNat < maxAttempts ∧
      (Lock.counting c.attempts.toNat).Tracks maxAttempts securityDelayMs mark
        (·.post.1) log now := by
  cases h with
  | counting _ hlt h => exact ⟨hlt, h⟩
  | shut _ _ hdelay => exact absurd hdelay hstate

theorem Knows.ready {reading : UInt32} (h : Knows log now c) (hready : c.Ready reading)
    (hover : c.state = .delayActive → c.delayEnd ≤ reading → c.Elapsed now) :
    c.attempts.toNat < maxAttempts ∧
      (Lock.counting c.attempts.toNat).Tracks maxAttempts securityDelayMs mark
        (·.post.1) log now := by
  rcases hready with hlocked | ⟨hdelay, hreached⟩
  · exact h.counts (by rw [hlocked]; decide)
  · obtain ⟨hzero, htracks⟩ := h.reopen hdelay (hover hdelay (UInt32.not_lt.mp hreached))
    rw [hzero]
    exact ⟨by decide, htracks⟩

theorem Knows.zero (hstate : c.state ≠ .delayActive) (hzero : c.attempts = 0)
    (h : (Lock.counting 0).Tracks maxAttempts securityDelayMs mark (·.post.1) log now) :
    Knows log now c := by
  refine .counting hstate ?_ ?_
  · rw [hzero]
    decide
  · rwa [hzero]

theorem Knows.reject {reading : UInt32} (h : Knows log now c) (hstate : c.state ≠ .delayActive)
    (he : mark e = .wrong) (htime : e.post.1 = now)
    (hread : maxAttempts ≤ c.attempts.toNat + 1 → reading = .ofNat now) :
    Knows (e :: log) now (c.reject reading) := by
  obtain ⟨hlt, htracks⟩ := h.counts hstate
  have hcount : (c.attempts + 1).toNat = c.attempts.toNat + 1 := by
    rw [UInt32.toNat_add, UInt32.toNat_one]
    exact Nat.mod_eq_of_lt (by unfold maxAttempts at hlt; omega)
  have hmax : (UInt32.ofNat maxAttempts).toNat = maxAttempts := rfl
  simp only [SecurityStateContext.reject, ge_iff_le, UInt32.le_iff_toNat_le, hmax, hcount]
  by_cases hdone : maxAttempts ≤ c.attempts.toNat + 1
  · rw [if_pos hdone, hread hdone]
    exact .shut now .refl rfl rfl rfl (htracks.shuts he hdone htime)
  · rw [if_neg hdone]
    have hnext := htracks.wrong he (Nat.lt_of_not_le hdone)
    rw [← hcount] at hnext hdone
    exact .counting nofun (Nat.lt_of_not_le hdone) hnext

theorem Knows.step {clock delta : Nat} {call : Call} {out : Answer}
    (h : Knows log (clock + delta) c) (hok : Undisturbed (log, (clock, c)) (delta, call))
    (hstep : c.step (clock + delta) call = some (c', out)) :
    Knows (⟨(clock, c), (delta, call), out, (clock + delta, c')⟩ :: log) (clock + delta) c' ∧
      (out.seed ≠ none → ∀ t ∈ completed maxAttempts mark (·.post.1) log,
        t + securityDelayMs ≤ clock + delta) := by
  cases call with
  | requestSeed now stamp =>
    cases hstep
    rw [requestSeed_eq]
    by_cases hready : c.Ready now
    · rw [if_pos hready]
      obtain ⟨hlt, htracks⟩ := h.ready hready hok
      exact ⟨.counting nofun hlt (htracks.neither rfl), fun _ => htracks.2⟩
    · rw [if_neg hready]
      exact ⟨h.neither rfl, fun hnone => absurd rfl hnone⟩
  | validateKey key now =>
    cases hstep
    refine ⟨?_, fun hnone => absurd rfl hnone⟩
    rw [validateKey_eq]
    cases hcompares : c.compares key with
    | none => exact h.neither (congrArg Mark.ofAnswer hcompares)
    | some right =>
      have hsent : c.state ≠ .delayActive := by
        rw [(compares_eq_some hcompares).1]
        exact nofun
      cases right with
      | true =>
        exact .zero nofun rfl (.of_ends (h.counts hsent).2.2 (congrArg Mark.ofAnswer hcompares))
      | false => exact h.reject hsent (congrArg Mark.ofAnswer hcompares) rfl (hok hcompares)
  | lock =>
    cases hstep
    refine ⟨?_, fun hnone => absurd rfl hnone⟩
    by_cases hdelay : c.state = .delayActive
    · have htracks := (h.reopen hdelay (hok.1 hdelay)).2
      exact .zero nofun rfl (htracks.neither rfl)
    · have htracks := (h.counts hdelay).2
      rw [hok.2 hdelay] at htracks
      exact .zero nofun rfl (htracks.neither rfl)
  | processTimeout now =>
    cases hstep
    refine ⟨?_, fun hnone => absurd rfl hnone⟩
    unfold processTimeout
    split
    case isTrue hover =>
      obtain ⟨hzero, htracks⟩ := h.reopen hover.1 (hok hover.1 hover.2)
      exact .zero nofun hzero (htracks.neither rfl)
    case isFalse => exact h.neither rfl

end

/-- **The delay after three wrong keys.** In every run on an initialised context in which
nobody disturbs it, no seed is given out before the delay is over. -/
theorem delay_kept (t₀ : Nat) (level : UInt8) (stamp : UInt32) (calls : List (Nat × Call))
    (hok : Along (logged (timed step)) Undisturbed ([], (t₀, init level stamp)) calls) :
    Throughout (logged (timed step)) DelayKept ([], (t₀, init level stamp)) calls := by
  refine throughout_logged (fun x => Knows x.1 x.2.1 x.2.2 ∧ DelayKept x) (fun _ h => h.2)
    (fun _ _ call => by cases call <;> exact ⟨_, _, rfl⟩)
    ?_ calls ⟨.zero nofun rfl ⟨rfl, nofun⟩, trivial⟩ hok
  rintro x i c' out ⟨hknows, hkept⟩ hnow hstep
  obtain ⟨hnext, hguard⟩ := (hknows.wait (Nat.le_add_right x.2.1 i.1)).step hnow hstep
  exact ⟨hnext, hguard, hkept⟩

/-- Three wrong keys, checked when the clock is at 2, 4 and 6. -/
def threeWrong : List (Nat × Call) :=
  [(1, .requestSeed 1 7), (1, .validateKey 0 2), (1, .requestSeed 3 7), (1, .validateKey 0 4),
    (1, .requestSeed 5 7), (1, .validateKey 0 6)]

theorem delay_kept_at_ten_seconds :
    Throughout (logged (timed step)) DelayKept ([], (0, init 1 0))
      (threeWrong ++ [(10000, .requestSeed 10006 7)]) :=
  delay_kept 0 1 0 _ (by decide)

/-- `Security_State_Lock` opens the context two milliseconds after the third wrong key. -/
theorem seed_behind_lock :
    ¬ Throughout (logged (timed step)) DelayKept ([], (0, init 1 0))
      (threeWrong ++ [(1, .lock), (1, .requestSeed 8 7)]) := by
  intro h
  have hbad := (h.last rfl).1 (by decide) 6 (by decide)
  exact absurd hbad (by decide)

end SecurityStateContext

end Cant.Diagnostic
