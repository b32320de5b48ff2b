/-
# `DiagSecurity` — seed, key and the number of attempts (`diag_security.c`)

The time stamp a seed is made from and the number `DiagTimer_Start` gives to a timer are
arguments of the calls, and what is asked of the timers is handed back; none of them fires.
A key is what its pointer leads to, as many bytes as the call says, `none` for a null pointer.

The counter is not touched by locking or by a new seed, only by an access that is granted. So
three failures in a row are the end: `access_granted_iff` says what a granted access takes,
read off the calls before it.
-/
import Cant.Lib.Past
import Cant.Lib.Word

namespace Cant.Diagnostic.DiagSecurity

open Past Run Word

inductive State where
  | locked | seedRequested | keyPending | unlocked | error
  deriving DecidableEq

inductive Level where
  | locked | level1 | level2 | level3 | level4

structure Manager where
  state : State
  currentLevel : Level
  timeoutMs : UInt32
  timerId : UInt32
  attemptCount : UInt32
  lastSeed : UInt32
  initialized : Bool

inductive TimerRequest where
  | start (timeoutMs : UInt32) | stop (timerId : UInt32)

/-- The answer of a call, the seed it hands out, and what it asks of the timers. -/
structure Outcome where
  answer : Bool
  seed : Option UInt32
  timers : List TimerRequest

def maxAccessAttempts : UInt32 := 3

def calculateKey (seed : UInt32) : UInt32 :=
  let key := seed ^^^ 0x12345678
  let key := (key <<< 13) ||| (key >>> 19)
  let key := key ^^^ 0x87654321
  (key >>> 7) ||| (key <<< 25)

namespace Manager

def init (m : Manager) (timeoutMs : UInt32) : Manager × Bool :=
  if m.initialized then (m, false) else (⟨.locked, .locked, timeoutMs, 0, 0, 0, true⟩, true)

def validateKey (m : Manager) : Option (List UInt8) → Bool
  | some [b₀, b₁, b₂, b₃] => word32 b₀ b₁ b₂ b₃ = calculateKey m.lastSeed
  | _ => false

def reset (m : Manager) : Manager :=
  { m with state := .locked, currentLevel := .locked, lastSeed := 0 }

/-- `DiagSecurity_Access`; `timer` is what `DiagTimer_Start` answers. -/
def access (m : Manager) (timer : UInt32) (level : Level) (key : Option (List UInt8)) :
    Manager × Outcome :=
  if !m.initialized || key.all List.isEmpty then (m, ⟨false, none, []⟩)
  else if m.attemptCount ≥ maxAccessAttempts then ({ m with state := .error }, ⟨false, none, []⟩)
  else
    let m := { m with attemptCount := m.attemptCount + 1 }
    if m.state ≠ .keyPending then (m, ⟨false, none, []⟩)
    else if !m.validateKey key then
      if m.attemptCount ≥ maxAccessAttempts then
        ({ m with timerId := timer }, ⟨false, none, [.start (m.timeoutMs * 2)]⟩)
      else (m, ⟨false, none, []⟩)
    else
      ({ m with currentLevel := level, state := .unlocked, attemptCount := 0, timerId := timer },
        ⟨true, none, (if m.timerId ≠ 0 then [.stop m.timerId] else []) ++ [.start m.timeoutMs]⟩)

def lock (m : Manager) : Manager × Outcome :=
  if m.state = .locked then (m, ⟨true, none, []⟩)
  else if m.timerId ≠ 0 then (reset { m with timerId := 0 }, ⟨true, none, [.stop m.timerId]⟩)
  else (m.reset, ⟨true, none, []⟩)

/-- `DiagSecurity_GenerateSeed`; `buffers` says that neither pointer is null. -/
def generateSeed (m : Manager) (timestamp : UInt32) (buffers : Bool) : Manager × Outcome :=
  if !m.initialized || !buffers then (m, ⟨false, none, []⟩)
  else
    let newSeed := (timestamp ^^^ 0xDEADBEEF) + 0xCAFEBABE
    ({ m with lastSeed := newSeed, state := .keyPending }, ⟨true, some newSeed, []⟩)

end Manager

inductive Call where
  | generateSeed (timestamp : UInt32) (buffers : Bool)
  | access (timer : UInt32) (level : Level) (key : Option (List UInt8))
  | lock

def step (m : Manager) : Call → Option (Manager × Outcome)
  | .generateSeed timestamp buffers => some (m.generateSeed timestamp buffers)
  | .access timer level key => some (m.access timer level key)
  | .lock => some m.lock

/-! ## What a log shows -/

abbrev Entry := Taken Manager Call Outcome

def Seeded (e : Entry) : Prop := e.output.seed.isSome

def Call.tries : Call → Bool
  | .access _ _ key => !key.all List.isEmpty
  | _ => false

def Granted (e : Entry) : Prop := e.input.tries = true ∧ e.output.answer = true
  deriving Decidable

def Locked (e : Entry) : Prop := e.input = .lock ∧ e.pre.state ≠ .locked

/-- A seed was generated after the last access that was granted and after the last time the
state was locked. -/
def Pending (log : List Entry) : Prop :=
  Since (fun e => ¬ Granted e ∧ ¬ Locked e) (fun e _ => Seeded e) log

def newestSeed : List Entry → Option UInt32
  | [] => none
  | e :: past => e.output.seed.or (newestSeed past)

/-- How many accesses with a key failed since the last that was granted. -/
def failures : List Entry → Nat
  | [] => 0
  | e :: past =>
    if Granted e then 0 else if e.input.tries = true then failures past + 1 else failures past

def RightKey (log : List Entry) (key : Option (List UInt8)) : Prop :=
  ∃ seed ∈ newestSeed log, key = some (wordBytes (calculateKey seed))

/-- An access is granted just when a seed is pending, the key is the newest seed's, and fewer than
three accesses have failed in a row. -/
def Justified (e : Entry) (past : List Entry) : Prop :=
  ∀ timer level key, e.input = .access timer level key →
    (e.output.answer = true ↔ Pending past ∧ RightKey past key ∧ failures past < 3)

theorem validateKey_iff {m : Manager} {key : Option (List UInt8)} :
    m.validateKey key = true ↔ key = some (wordBytes (calculateKey m.lastSeed)) := by
  constructor
  · intro h
    unfold Manager.validateKey at h
    split at h
    case h_1 => rw [word32_eq_iff.mp (of_decide_eq_true h)]
    case h_2 => cases h
  · rintro rfl
    exact decide_eq_true (word32_eq_iff.mpr rfl)

/-- What an access with a key does to the manager, the timers apart. -/
inductive Accessed (m : Manager) (level : Level) (key : Option (List UInt8)) :
    Manager → Bool → Prop
  | exhausted : maxAccessAttempts ≤ m.attemptCount →
      Accessed m level key { m with state := .error } false
  | failed {timerId : UInt32} : ¬ maxAccessAttempts ≤ m.attemptCount →
      ¬ (m.state = .keyPending ∧ m.validateKey key = true) →
      Accessed m level key { m with attemptCount := m.attemptCount + 1, timerId := timerId } false
  | granted {timerId : UInt32} : ¬ maxAccessAttempts ≤ m.attemptCount → m.state = .keyPending →
      m.validateKey key = true →
      Accessed m level key
        { m with currentLevel := level, state := .unlocked, attemptCount := 0, timerId := timerId }
          true

section

variable {m : Manager} {timer : UInt32} {level : Level} {key : Option (List UInt8)}

variable (timer level) in
theorem access_accessed (hinit : m.initialized = true) (hkey : key.all List.isEmpty = false) :
    (m.access timer level key).2.seed = none ∧
      Accessed m level key (m.access timer level key).1 (m.access timer level key).2.answer := by
  have hgo : ¬ (!m.initialized || key.all List.isEmpty) = true := by
    rw [hinit, hkey]
    exact Bool.false_ne_true
  rw [Manager.access, if_neg hgo]
  split
  case isTrue hfull => exact ⟨rfl, .exhausted hfull⟩
  case isFalse hroom =>
    dsimp only
    split
    case isTrue hstate => exact ⟨rfl, .failed hroom fun h => hstate h.1⟩
    case isFalse hstate =>
      have hvalid : Manager.validateKey { m with attemptCount := m.attemptCount + 1 } key =
          m.validateKey key := by
        unfold Manager.validateKey
        rfl
      rw [hvalid]
      split
      case isTrue hwrong =>
        have hfailed : ¬ (m.state = .keyPending ∧ m.validateKey key = true) := by
          rintro ⟨-, hright⟩
          rw [hright] at hwrong
          cases hwrong
        split
        all_goals exact ⟨rfl, .failed hroom hfailed⟩
      case isFalse hright =>
        rw [Bool.not_eq_true', Bool.not_eq_false] at hright
        exact ⟨rfl, .granted hroom (not_not.mp hstate) hright⟩

end

structure Knows (x : List Entry × Manager) : Prop where
  initialized : x.2.initialized = true
  count : x.2.attemptCount.toNat = min (failures x.1) 3
  pending : failures x.1 < 3 → (x.2.state = .keyPending ↔ Pending x.1)
  seed : Pending x.1 → newestSeed x.1 = some x.2.lastSeed

theorem knows_of_init {m₀ m : Manager} {timeoutMs : UInt32}
    (hinit : m₀.init timeoutMs = (m, true)) : Knows ([], m) := by
  rw [Manager.init] at hinit
  split at hinit
  · cases hinit
  · cases hinit
    exact ⟨rfl, rfl, fun _ => iff_of_false State.noConfusion id, False.elim⟩

section

variable {log : List Entry} {e : Entry} {m : Manager}

theorem pending_cons_of_other (hgranted : ¬ Granted e) (hlocked : ¬ Locked e)
    (hseed : e.output.seed = none) : Pending (e :: log) ↔ Pending log := by
  have hnone : ¬ Seeded e := by
    rw [Seeded, hseed]
    exact Bool.false_ne_true
  show Seeded e ∨ (¬ Granted e ∧ ¬ Locked e) ∧ Pending log ↔ Pending log
  rw [or_iff_right hnone, and_iff_right ⟨hgranted, hlocked⟩]

theorem not_pending_cons (hended : Granted e ∨ Locked e) (hseed : e.output.seed = none) :
    ¬ Pending (e :: log) := by
  rintro (hseeded | ⟨hother, -⟩)
  · rw [Seeded, hseed] at hseeded
    cases hseeded
  · rcases hended with hgranted | hlocked
    · exact hother.1 hgranted
    · exact hother.2 hlocked

theorem newestSeed_cons_of_none (hseed : e.output.seed = none) :
    newestSeed (e :: log) = newestSeed log := by
  rw [newestSeed, hseed, Option.none_or]

theorem failures_cons_of_other (htries : e.input.tries = false) :
    failures (e :: log) = failures log := by
  have hgranted : ¬ Granted e := fun h => Bool.false_ne_true (htries.symm.trans h.1)
  rw [failures, if_neg hgranted, htries, if_neg Bool.false_ne_true]

theorem failures_cons_of_failed (htries : e.input.tries = true)
    (hanswer : e.output.answer = false) : failures (e :: log) = failures log + 1 := by
  have hgranted : ¬ Granted e := fun h => Bool.false_ne_true (hanswer.symm.trans h.2)
  rw [failures, if_neg hgranted, htries, if_pos rfl]

end

namespace Knows

variable {x : List Entry × Manager} {i : Call} {o : Outcome}

variable (h : Knows x)
include h

theorem attempts_iff : maxAccessAttempts ≤ x.2.attemptCount ↔ 3 ≤ failures x.1 := by
  rw [UInt32.le_iff_toNat_le, h.count]
  show 3 ≤ min (failures x.1) 3 ↔ 3 ≤ failures x.1
  omega

theorem idle (hanswer : i.tries = false) (hlocked : i = .lock → x.2.state = .locked)
    (hseed : o.seed = none) : Knows (⟨x.2, i, o, x.2⟩ :: x.1, x.2) := by
  have hother : Pending (⟨x.2, i, o, x.2⟩ :: x.1) ↔ Pending x.1 := by
    refine pending_cons_of_other ?_ ?_ hseed
    · exact fun hgranted => Bool.false_ne_true (hanswer.symm.trans hgranted.1)
    · exact fun hlock => hlock.2 (hlocked hlock.1)
  have hfailures : failures (⟨x.2, i, o, x.2⟩ :: x.1) = failures x.1 :=
    failures_cons_of_other hanswer
  have hnewest : newestSeed (⟨x.2, i, o, x.2⟩ :: x.1) = newestSeed x.1 :=
    newestSeed_cons_of_none hseed
  refine ⟨h.initialized, ?_, ?_, ?_⟩
  · rw [hfailures]
    exact h.count
  · rw [hfailures, hother]
    exact h.pending
  · rw [hother, hnewest]
    exact h.seed

theorem generateSeed (timestamp : UInt32) (buffers : Bool) :
    Knows (⟨x.2, .generateSeed timestamp buffers, (x.2.generateSeed timestamp buffers).2,
      (x.2.generateSeed timestamp buffers).1⟩ :: x.1, (x.2.generateSeed timestamp buffers).1) := by
  cases buffers with
  | false =>
    have hnone : x.2.generateSeed timestamp false = (x.2, ⟨false, none, []⟩) := by
      rw [Manager.generateSeed, Bool.not_false, Bool.or_true, if_pos rfl]
    rw [hnone]
    exact h.idle rfl Call.noConfusion rfl
  | true =>
    let newSeed : UInt32 := (timestamp ^^^ 0xDEADBEEF) + 0xCAFEBABE
    have hsome : x.2.generateSeed timestamp true =
        ({ x.2 with lastSeed := newSeed, state := .keyPending }, ⟨true, some newSeed, []⟩) := by
      have hgo : ¬ (!x.2.initialized || !true) = true := by
        rw [h.initialized]
        exact Bool.false_ne_true
      exact if_neg hgo
    rw [hsome]
    exact ⟨h.initialized, h.count, fun _ => iff_of_true rfl (.inl rfl), fun _ => rfl⟩

theorem lock : Knows (⟨x.2, .lock, x.2.lock.2, x.2.lock.1⟩ :: x.1, x.2.lock.1) := by
  by_cases hstate : x.2.state = .locked
  · rw [Manager.lock, if_pos hstate]
    exact h.idle rfl (fun _ => hstate) rfl
  · obtain ⟨timerId, timers, hlock⟩ : ∃ timerId timers, x.2.lock =
        (Manager.reset { x.2 with timerId := timerId }, ⟨true, none, timers⟩) := by
      rw [Manager.lock, if_neg hstate]
      split
      · exact ⟨0, _, rfl⟩
      · exact ⟨x.2.timerId, _, rfl⟩
    rw [hlock]
    have hended : ¬ Pending (⟨x.2, .lock, ⟨true, none, timers⟩,
        Manager.reset { x.2 with timerId := timerId }⟩ :: x.1) :=
      not_pending_cons (.inr ⟨rfl, hstate⟩) rfl
    exact ⟨h.initialized, h.count, fun _ => iff_of_false State.noConfusion hended,
      fun hpending => absurd hpending hended⟩

theorem rightKey_iff (hpending : Pending x.1) {key : Option (List UInt8)} :
    RightKey x.1 key ↔ x.2.validateKey key = true := by
  rw [RightKey, h.seed hpending, validateKey_iff]
  simp

theorem accessed {level : Level} {key : Option (List UInt8)} {m' : Manager}
    (haccessed : Accessed x.2 level key m' o.answer) (hseed : o.seed = none)
    (htries : i.tries = true) :
    Knows (⟨x.2, i, o, m'⟩ :: x.1, m') ∧
      (o.answer = true ↔ Pending x.1 ∧ RightKey x.1 key ∧ failures x.1 < 3) := by
  obtain ⟨answer, seed, timers⟩ := o
  cases hseed
  have hlock : i ≠ .lock := by
    rintro rfl
    cases htries
  have hnewest : newestSeed (⟨x.2, i, ⟨answer, none, timers⟩, m'⟩ :: x.1) = newestSeed x.1 :=
    newestSeed_cons_of_none rfl
  -- an access that failed leaves the seed pending, and is counted
  have hsame : answer = false →
      (Pending (⟨x.2, i, ⟨answer, none, timers⟩, m'⟩ :: x.1) ↔ Pending x.1) := fun hfailed =>
    pending_cons_of_other (fun hgranted => Bool.false_ne_true (hfailed.symm.trans hgranted.2))
      (fun hlocked => hlock hlocked.1) rfl
  have hmore : answer = false →
      failures (⟨x.2, i, ⟨answer, none, timers⟩, m'⟩ :: x.1) = failures x.1 + 1 := fun hfailed =>
    failures_cons_of_failed htries hfailed
  -- one that is granted ends both
  have hgranted : answer = true → Granted ⟨x.2, i, ⟨answer, none, timers⟩, m'⟩ := fun hok =>
    ⟨htries, hok⟩
  have hended : answer = true → ¬ Pending (⟨x.2, i, ⟨answer, none, timers⟩, m'⟩ :: x.1) :=
    fun hok =>
    not_pending_cons (.inl (hgranted hok)) rfl
  cases haccessed with
  | exhausted hfull =>
    have hthree := h.attempts_iff.mp hfull
    refine ⟨⟨h.initialized, ?_, ?_, ?_⟩, iff_of_false Bool.false_ne_true fun hok => ?_⟩
    · rw [hmore rfl, Nat.min_eq_right (Nat.le_succ_of_le hthree)]
      exact h.count.trans (Nat.min_eq_right hthree)
    · rw [hmore rfl]
      exact fun hless => absurd hless (by omega)
    · rw [hsame rfl]
      exact h.seed
    · exact absurd hok.2.2 (Nat.not_lt.mpr hthree)
  | failed hroom hwrong =>
    have hless : failures x.1 < 3 := Nat.not_le.mp (mt h.attempts_iff.mpr hroom)
    refine ⟨⟨h.initialized, ?_, ?_, ?_⟩, iff_of_false Bool.false_ne_true fun hok => hwrong ?_⟩
    · have hone : (1 : UInt32).toNat = 1 := rfl
      have hcount := h.count
      rw [hmore rfl]
      rw [UInt32.toNat_add]
      omega
    · rw [hsame rfl]
      exact fun _ => h.pending hless
    · rw [hsame rfl]
      exact h.seed
    · exact ⟨(h.pending hless).mpr hok.1, (h.rightKey_iff hok.1).mp hok.2.1⟩
  | granted hroom hstate hright =>
    have hless : failures x.1 < 3 := Nat.not_le.mp (mt h.attempts_iff.mpr hroom)
    have hpending := (h.pending hless).mp hstate
    refine ⟨⟨h.initialized, ?_, fun _ => ?_, fun hp => absurd hp (hended rfl)⟩,
      iff_of_true rfl ⟨hpending, (h.rightKey_iff hpending).mpr hright, hless⟩⟩
    · rw [failures, if_pos (hgranted rfl)]
      rfl
    · exact iff_of_false State.noConfusion (hended rfl)

theorem step (i : Call) :
    ∃ m' o, DiagSecurity.step x.2 i = some (m', o) ∧ Knows (⟨x.2, i, o, m'⟩ :: x.1, m') ∧
      Justified ⟨x.2, i, o, m'⟩ x.1 := by
  cases i with
  | generateSeed timestamp buffers =>
    exact ⟨_, _, rfl, h.generateSeed timestamp buffers, fun _ _ _ hi => Call.noConfusion hi⟩
  | lock => exact ⟨_, _, rfl, h.lock, fun _ _ _ hi => Call.noConfusion hi⟩
  | access timer level key =>
    refine ⟨(x.2.access timer level key).1, (x.2.access timer level key).2, rfl, ?_⟩
    cases hkey : key.all List.isEmpty with
    | true =>
      rw [Manager.access, hkey, Bool.or_true, if_pos rfl]
      have htries : (Call.access timer level key).tries = false := by
        rw [Call.tries, hkey]
        rfl
      refine ⟨h.idle htries Call.noConfusion rfl, fun timer' level' key' hi => ?_⟩
      cases hi
      -- a key that is right has four bytes
      refine iff_of_false Bool.false_ne_true fun hok => ?_
      obtain ⟨seed, -, rfl⟩ := hok.2.1
      cases hkey
    | false =>
      have htries : (Call.access timer level key).tries = true := by
        rw [Call.tries, hkey]
        rfl
      obtain ⟨hseed, haccessed⟩ := access_accessed timer level h.initialized hkey
      obtain ⟨hknows, hanswer⟩ := h.accessed haccessed hseed htries
      refine ⟨hknows, fun timer' level' key' hi => ?_⟩
      cases hi
      exact hanswer

end Knows

/-- **What a granted access takes, over every run.** A seed was generated since the last granted
access and the last lock that was not one already, the key is that of the newest seed, and fewer
than three accesses with a key have failed since the last that was granted. -/
theorem access_granted_iff {m₀ m : Manager} {timeoutMs : UInt32}
    (hinit : m₀.init timeoutMs = (m, true)) (calls : List Call) :
    Throughout (logged step) (fun x => Historically Justified x.1) ([], m) calls := by
  refine throughout_of_inv (fun x => Knows x ∧ Historically Justified x.1) (fun x h => h.2) ?_ calls
    ⟨knows_of_init hinit, trivial⟩
  rintro x i ⟨hknows, hpast⟩
  obtain ⟨m', o, hstep, hnext, hjustified⟩ := hknows.step i
  exact ⟨_, o, logged_eq hstep, hnext, hjustified, hpast⟩

def unstarted : Manager := ⟨.locked, .locked, 0, 0, 0, 0, false⟩

theorem access_granted_once :
    unstarted.init 5000 = (⟨.locked, .locked, 5000, 0, 0, 0, true⟩, true) ∧
      Throughout (logged step) (fun x => Historically Justified x.1)
        ([], ⟨.locked, .locked, 5000, 0, 0, 0, true⟩)
        [.generateSeed 7 true, .access 1 .level1 (some [0]),
          .access 1 .level1 (some (wordBytes (calculateKey ((7 ^^^ 0xDEADBEEF) + 0xCAFEBABE)))),
          .lock] := by
  have hinit : unstarted.init 5000 = (⟨.locked, .locked, 5000, 0, 0, 0, true⟩, true) := rfl
  exact ⟨hinit, access_granted_iff hinit _⟩

end Cant.Diagnostic.DiagSecurity
