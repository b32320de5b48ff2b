/-
# `UdsSecurity` — security access over whole runs

A tester asks for a seed with an odd sub-function `L` and answers it with a key under
`L + 1`. `process_security_access` keeps one `expected_key` for all of this: it is zero
before the first seed, and it outlives a session, the sub-function it was asked for with,
and its own use. `level_earned` says when a level is earned nevertheless: if the tester
keeps the order.

Runs are on a clock in milliseconds, of which the handler sees the low 32 bits, and keep a
log.
-/
import Cant.Lib.Past
import Cant.Diagnostic.UdsHandler

namespace Cant.Diagnostic.Uds

open Run Past

namespace UdsHandler

def clocked : Nat × UdsHandler → Nat × UdsCall → Option ((Nat × UdsHandler) × UdsOut) :=
  timed fun t => step (Timer.ticks t)

abbrev Entry : Type := Taken (Nat × UdsHandler) (Nat × UdsCall) UdsOut

abbrev Logged : Type := List Entry × (Nat × UdsHandler)

/-! ## What the log shows -/

def Resets (e : Entry) : Prop :=
  match e.input.2 with
  | .request _ r _ => r.serviceId = .diagnosticSessionControl ∧ e.output.answer = .positive
  | .processTimeout => e.post.2.currentSession ≠ e.pre.2.currentSession
  | .resetSession => True

def Issues (level : UInt8) (seed : UInt32) (e : Entry) : Prop :=
  match e.input.2 with
  | .request _ r _ => r.serviceId = .securityAccess ∧ r.subFunction = level ∧ level &&& 0x01 = 1 ∧
      e.output.answer = .positive ∧ e.output.response.map (·.data) = some (seedBytes seed)
  | _ => False

def Accepts (subFunction : UInt8) (key : UInt32) (e : Entry) : Prop :=
  match e.input.2 with
  | .request _ r _ => r.serviceId = .securityAccess ∧ r.subFunction = subFunction ∧
      subFunction &&& 0x01 ≠ 1 ∧ r.key = key ∧ e.output.answer = .positive
  | _ => False

def Issued (e : Entry) : Prop := ∃ level seed, Issues level seed e

def Accepted (e : Entry) : Prop := ∃ subFunction key, Accepts subFunction key e

structure Quiet (e : Entry) : Prop where
  resets : ¬ Resets e
  issued : ¬ Issued e
  accepted : ¬ Accepted e

/-- The key of a call, if it comes to a comparison: whether it is the expected one. -/
def compares (now : Nat) (s : UdsHandler) : UdsCall → Option Bool
  | .request _ r _ =>
    if r.serviceId = .securityAccess ∧ validateServiceAccess .securityAccess s.currentSession ∧
        r.subFunction &&& 0x01 ≠ 1 ∧ r.length = 6 ∧
        ¬ (s.securityLocked ∧ ¬ s.securityDelayTimer.expired now) then
      some (decide (r.key = s.expectedKey))
    else none
  | _ => none

/-! ## What a call can do -/

def EntersSession (r : UdsRequest) : Prop :=
  r.serviceId = .diagnosticSessionControl ∧ r.length = 2 ∧
    UdsSessionType.ofCode r.subFunction.toNat ≠ none

inductive Moves (now : Nat) (s : UdsHandler) : UdsCall → UdsHandler → UdsOut → Prop
  | ignored {stack : UInt32} {r : UdsRequest} {area : UdsResponseArea} {out : UdsOut}
      (hanswer : out.answer = .positive →
        r.serviceId ≠ .securityAccess ∧ r.serviceId ≠ .diagnosticSessionControl)
      (hcompares : compares now s (.request stack r area) = none) :
      Moves now s (.request stack r area) (s.touch now) out
  | entered {stack : UInt32} {r : UdsRequest} {area : UdsResponseArea} {out : UdsOut}
      (session : UdsSessionType) (hservice : r.serviceId = .diagnosticSessionControl)
      (hlength : r.length = 2) (hsession : UdsSessionType.ofCode r.subFunction.toNat = some session)
      (hanswer : out.answer = .positive) :
      Moves now s (.request stack r area) ((s.touch now).enter session) out
  | seeded {stack : UInt32} {r : UdsRequest} {area : UdsResponseArea} {out : UdsOut}
      (hservice : r.serviceId = .securityAccess) (hodd : r.subFunction &&& 0x01 = 1)
      (hopen : ¬ (s.securityLocked ∧ ¬ s.securityDelayTimer.expired now))
      (hanswer : out.answer = .positive)
      (hdata : out.response.map (·.data) = some (seedBytes (stack ^^^ 0xA5A5A5A5))) :
      Moves now s (.request stack r area) ((s.touch now).unlock.issueSeed stack) out
  | opened {stack : UInt32} {r : UdsRequest} {area : UdsResponseArea} {out : UdsOut}
      (hservice : r.serviceId = .securityAccess) (hlength : r.length ≠ 6)
      (hopen : ¬ (s.securityLocked ∧ ¬ s.securityDelayTimer.expired now))
      (hanswer : out.answer ≠ .positive) :
      Moves now s (.request stack r area) (s.touch now).unlock out
  | granted {stack : UInt32} {r : UdsRequest} {area : UdsResponseArea} {out : UdsOut}
      (hservice : r.serviceId = .securityAccess) (heven : r.subFunction &&& 0x01 ≠ 1)
      (hkey : r.key = s.expectedKey)
      (hcompares : compares now s (.request stack r area) = some true)
      (hanswer : out.answer = .positive) :
      Moves now s (.request stack r area) ((s.touch now).unlock.grant r.subFunction) out
  | refused {stack : UInt32} {r : UdsRequest} {area : UdsResponseArea} {out : UdsOut}
      (hcompares : compares now s (.request stack r area) = some false)
      (hanswer : out.answer ≠ .positive) :
      Moves now s (.request stack r area) ((s.touch now).unlock.refuse now) out
  | polled {out : UdsOut} : Moves now s .processTimeout (s.processTimeout now).1 out
  | reset {out : UdsOut} : Moves now s .resetSession (s.enter .default) out

variable {s s' : UdsHandler} {now : Nat}

theorem touch_eq (s : UdsHandler) (now : Nat) :
    ∃ timer, s.touch now = { s with sessionTimer := timer } := by
  unfold touch
  split
  · exact ⟨_, rfl⟩
  · exact ⟨s.sessionTimer, rfl⟩

variable {e : Entry} {stack : UInt32} {r : UdsRequest} {area : UdsResponseArea} {out : UdsOut}
  {call : UdsCall}

theorem compares_of_ne (h : r.serviceId ≠ .securityAccess) :
    compares now s (.request stack r area) = none :=
  if_neg fun hall => h hall.1

theorem allowed_of_compares {b : Bool} (h : compares now s call = some b) :
    validateServiceAccess .securityAccess s.currentSession = true ∧
      ¬ (s.securityLocked ∧ ¬ s.securityDelayTimer.expired now) := by
  cases call with
  | request stack r area =>
    simp only [compares] at h
    split at h
    case isTrue hall => exact ⟨hall.2.1, hall.2.2.2.2⟩
    case isFalse => cases h
  | processTimeout | resetSession => cases h

theorem answered_false (s : UdsHandler) (response : UdsResponse) (callbacks : List UdsCallback) :
    (answered (s, response, false, callbacks)).2.answer ≠ .positive := nofun

theorem moves_securityAccess (stack : UInt32) (r : UdsRequest) (area : UdsResponseArea)
    (hservice : r.serviceId = .securityAccess)
    (hallowed : validateServiceAccess .securityAccess s.currentSession = true) :
    Moves now s (.request stack r area)
      (answered ((s.touch now).processSecurityAccess now stack r area.response)).1
      (answered ((s.touch now).processSecurityAccess now stack r area.response)).2 := by
  obtain ⟨timer, htouch⟩ := touch_eq s now
  have hlocked : (s.touch now).securityLocked = s.securityLocked := by rw [htouch]
  have hdelay : (s.touch now).securityDelayTimer = s.securityDelayTimer := by rw [htouch]
  have hkey : (s.touch now).unlock.expectedKey = s.expectedKey := by
    rw [htouch]
    unfold unlock
    split <;> rfl
  unfold processSecurityAccess
  rw [hlocked, hdelay]
  by_cases hshort : r.length < 2
  · rw [if_pos hshort]
    refine .ignored (fun h => absurd h (answered_false _ _ _)) (if_neg ?_)
    omega
  rw [if_neg hshort]
  by_cases hbarred : s.securityLocked ∧ ¬ s.securityDelayTimer.expired now
  · rw [if_pos hbarred]
    exact .ignored (fun h => absurd h (answered_false _ _ _))
      (if_neg fun hall => hall.2.2.2.2 hbarred)
  rw [if_neg hbarred]
  by_cases hodd : r.subFunction &&& 0x01 = 1
  · rw [if_pos hodd]
    exact .seeded hservice hodd hbarred rfl rfl
  rw [if_neg hodd]
  by_cases hsix : r.length = 6
  · have hall : r.serviceId = .securityAccess ∧
        validateServiceAccess .securityAccess s.currentSession ∧ r.subFunction &&& 0x01 ≠ 1 ∧
        r.length = 6 ∧ ¬ (s.securityLocked ∧ ¬ s.securityDelayTimer.expired now) :=
      ⟨hservice, hallowed, hodd, hsix, hbarred⟩
    have hcompares : compares now s (.request stack r area) =
      some (decide (r.key = s.expectedKey)) := if_pos hall
    rw [if_neg (not_not_intro hsix), hkey]
    by_cases hright : r.key = s.expectedKey
    · rw [if_pos hright]
      refine .granted hservice hodd hright ?_ rfl
      rw [hcompares, decide_eq_true hright]
    · rw [if_neg hright]
      refine .refused ?_ (answered_false _ _ _)
      rw [hcompares, decide_eq_false hright]
  · rw [if_pos hsix]
    exact .opened hservice hsix hbarred (answered_false _ _ _)

theorem moves (hinit : s.initialized = true) (h : s.step now call = some (s', out)) :
    Moves now s call s' out := by
  cases call with
  | processTimeout =>
    cases h
    exact .polled
  | resetSession =>
    cases h
    simp only [resetSession, hinit, not_true_eq_false, if_false]
    exact .reset
  | request stack r area =>
    obtain ⟨rfl, rfl⟩ := eq_of_some h
    simp only [processRequest, hinit, not_true_eq_false, if_false]
    by_cases hallowed : validateServiceAccess r.serviceId s.currentSession = true
    swap
    · rw [if_pos hallowed]
      refine .ignored (fun h => absurd h (answered_false _ _ _)) (if_neg ?_)
      rintro ⟨hservice, hall, -⟩
      exact hallowed (hservice ▸ hall)
    rw [if_neg (not_not_intro hallowed)]
    unfold dispatch
    cases hservice : r.serviceId with
    | securityAccess => exact moves_securityAccess stack r area hservice (hservice ▸ hallowed)
    | diagnosticSessionControl =>
      have hnone : compares now s (.request stack r area) = none :=
        compares_of_ne (by rw [hservice]; decide)
      simp only [processDiagnosticSessionControl]
      by_cases htwo : r.length = 2
      swap
      · rw [if_pos htwo]
        exact .ignored (fun h => absurd h (answered_false _ _ _)) hnone
      rw [if_neg (not_not_intro htwo)]
      cases hsession : UdsSessionType.ofCode r.subFunction.toNat with
      | none => exact .ignored (fun h => absurd h (answered_false _ _ _)) hnone
      | some session => exact .entered session hservice htwo hsession rfl
    | _ =>
      refine .ignored (fun _ => ?_) (compares_of_ne (by rw [hservice]; exact nofun))
      rw [hservice]
      exact ⟨nofun, nofun⟩

theorem unlock_eq (s : UdsHandler) :
    ∃ locked count, s.unlock =
      { s with securityLocked := locked, securityAttemptCount := count } := by
  unfold unlock
  split
  · exact ⟨_, _, rfl⟩
  · exact ⟨s.securityLocked, s.securityAttemptCount, rfl⟩

theorem refuse_eq (s : UdsHandler) (now : Nat) :
    ∃ locked count timer, s.refuse now = { s with
      securityLocked := locked, securityAttemptCount := count, securityDelayTimer := timer } := by
  simp only [refuse]
  split
  all_goals exact ⟨_, _, _, rfl⟩

theorem processTimeout_eq (s : UdsHandler) (now : Nat) :
    ((s.processTimeout now).1.currentSession ≠ s.currentSession ∧
      (s.processTimeout now).1 = { s with currentSession := .default, securityLevel := 0 }) ∨
      (s.processTimeout now).1 = s := by
  unfold processTimeout
  split
  case isTrue h => exact .inl ⟨fun heq => h.2.2.2 heq.symm, rfl⟩
  case isFalse h => exact .inr rfl

/-- What a request leaves as it is. The session timer is the one of `touch`. -/
structure Keeps (now : Nat) (r : UdsRequest) (s s' : UdsHandler) : Prop where
  initialized : s'.initialized = s.initialized
  config : s'.config = s.config
  timer : s'.sessionTimer = (s.touch now).sessionTimer
  session : ¬ EntersSession r → s'.currentSession = s.currentSession

theorem Moves.keeps (h : Moves now s (.request stack r area) s' out) : Keeps now r s s' := by
  obtain ⟨timer, htouch⟩ := touch_eq s now
  have hinit : (s.touch now).initialized = s.initialized := by rw [htouch]
  have hconfig : (s.touch now).config = s.config := by rw [htouch]
  have hsession : (s.touch now).currentSession = s.currentSession := by rw [htouch]
  obtain ⟨locked, count, hunlock⟩ := unlock_eq (s.touch now)
  cases h with
  | ignored => exact ⟨hinit, hconfig, rfl, fun _ => hsession⟩
  | entered session hservice hlength hsome =>
    refine ⟨hinit, hconfig, rfl, fun hnot => absurd ⟨hservice, hlength, ?_⟩ hnot⟩
    rw [hsome]
    exact nofun
  | seeded | opened | granted =>
    rw [hunlock]
    exact ⟨hinit, hconfig, rfl, fun _ => hsession⟩
  | refused =>
    obtain ⟨_, _, _, hrefuse⟩ := refuse_eq (s.touch now).unlock now
    rw [hrefuse, hunlock]
    exact ⟨hinit, hconfig, rfl, fun _ => hsession⟩

theorem Moves.frame (h : Moves now s call s' out) :
    s'.initialized = s.initialized ∧ s'.config = s.config := by
  cases call with
  | request stack r area => exact ⟨h.keeps.initialized, h.keeps.config⟩
  | processTimeout =>
    cases h
    rcases processTimeout_eq s now with ⟨-, heq⟩ | heq
    all_goals
      rw [heq]
      exact ⟨rfl, rfl⟩
  | resetSession =>
    cases h
    exact ⟨rfl, rfl⟩

theorem step_total (now : Nat) (s : UdsHandler) (call : UdsCall) :
    ∃ s' out, s.step now call = some (s', out) := by
  cases call <;> exact ⟨_, _, rfl⟩

/-! ## Levels -/

/-- What an entry says about levels and keys. -/
inductive Effect (e : Entry) : Prop
  | resets (h : Resets e) (hissued : ¬ Issued e) (haccepted : ¬ Accepted e)
      (hlevel : e.post.2.securityLevel = 0)
  | issues (level : UInt8) (seed : UInt32) (h : Issues level seed e) (hresets : ¬ Resets e)
      (haccepted : ¬ Accepted e) (hlevel : e.post.2.securityLevel = e.pre.2.securityLevel)
      (hkey : e.post.2.expectedKey = calculateKey seed)
  | accepts (stack : UInt32) (r : UdsRequest) (area : UdsResponseArea)
      (hcall : e.input.2 = .request stack r area)
      (h : Accepts r.subFunction e.pre.2.expectedKey e) (hresets : ¬ Resets e)
      (hissued : ¬ Issued e)
      (hcompares : compares (Timer.ticks e.post.1) e.pre.2 e.input.2 = some true)
      (hlevel : e.post.2.securityLevel = r.subFunction - 1)
  | quiet (h : Quiet e) (hlevel : e.post.2.securityLevel = e.pre.2.securityLevel)
      (hkey : e.post.2.expectedKey = e.pre.2.expectedKey)

theorem quiet_of_ne (hcall : e.input.2 = .request stack r area) (h : e.output.answer = .positive →
      r.serviceId ≠ .securityAccess ∧ r.serviceId ≠ .diagnosticSessionControl) : Quiet e := by
  constructor
  · intro hresets
    rw [Resets, hcall] at hresets
    exact (h hresets.2).2 hresets.1
  · rintro ⟨level, seed, hissues⟩
    rw [Issues, hcall] at hissues
    exact (h hissues.2.2.2.1).1 hissues.1
  · rintro ⟨subFunction, key, haccepts⟩
    rw [Accepts, hcall] at haccepts
    exact (h haccepts.2.2.2.2).1 haccepts.1

theorem nothing_of_poll (hcall : ∀ stack r area, e.input.2 ≠ .request stack r area) :
    ¬ Issued e ∧ ¬ Accepted e := by
  constructor
  · rintro ⟨level, seed, hissues⟩
    unfold Issues at hissues
    split at hissues
    · exact hcall _ _ _ ‹_›
    · exact hissues
  · rintro ⟨subFunction, key, haccepts⟩
    unfold Accepts at haccepts
    split at haccepts
    · exact hcall _ _ _ ‹_›
    · exact haccepts

theorem nothing_of_service (hcall : e.input.2 = .request stack r area)
    (h : r.serviceId ≠ .securityAccess) : ¬ Issued e ∧ ¬ Accepted e := by
  constructor
  · rintro ⟨level, seed, hissues⟩
    rw [Issues, hcall] at hissues
    exact h hissues.1
  · rintro ⟨subFunction, key, haccepts⟩
    rw [Accepts, hcall] at haccepts
    exact h haccepts.1

theorem not_resets_of_service (hcall : e.input.2 = .request stack r area)
    (h : r.serviceId = .securityAccess) : ¬ Resets e := by
  intro hresets
  rw [Resets, hcall] at hresets
  cases h.symm.trans hresets.1

theorem not_accepted_of_issued (h : Issued e) : ¬ Accepted e := by
  obtain ⟨level, seed, hissues⟩ := h
  rintro ⟨subFunction, key, haccepts⟩
  unfold Issues at hissues
  split at hissues
  case h_1 hcall =>
    rw [Accepts, hcall] at haccepts
    obtain ⟨-, rfl, hodd, -⟩ := hissues
    obtain ⟨-, rfl, heven, -⟩ := haccepts
    exact heven hodd
  case h_2 => exact hissues

theorem effect {clock delta : Nat} (h : Moves (Timer.ticks (clock + delta)) s call s' out) :
    Effect ⟨(clock, s), (delta, call), out, (clock + delta, s')⟩ := by
  obtain ⟨timer, htouch⟩ := touch_eq s (Timer.ticks (clock + delta))
  obtain ⟨locked, count, hunlock⟩ := unlock_eq (s.touch (Timer.ticks (clock + delta)))
  cases h with
  | ignored hanswer _ =>
    rw [htouch]
    exact .quiet (quiet_of_ne rfl hanswer) rfl rfl
  | entered session hservice _ _ hanswer =>
    obtain ⟨hissued, haccepted⟩ :
        ¬ Issued ⟨(clock, s), (delta, _), out, (clock + delta, _)⟩ ∧
          ¬ Accepted ⟨(clock, s), (delta, _), out, (clock + delta, _)⟩ :=
      nothing_of_service rfl (by rw [hservice]; decide)
    exact .resets ⟨hservice, hanswer⟩ hissued haccepted rfl
  | seeded hservice hodd _ hanswer hdata =>
    refine .issues _ _ ⟨hservice, rfl, hodd, hanswer, hdata⟩ (not_resets_of_service rfl hservice)
      (not_accepted_of_issued ⟨_, _, hservice, rfl, hodd, hanswer, hdata⟩) ?_ rfl
    rw [hunlock, htouch]
    rfl
  | opened hservice _ _ hanswer =>
    rw [hunlock, htouch]
    exact .quiet (quiet_of_ne rfl fun hpos => absurd hpos hanswer) rfl rfl
  | granted hservice heven hkey hcompares hanswer =>
    refine .accepts _ _ _ rfl ⟨hservice, rfl, heven, hkey, hanswer⟩
      (not_resets_of_service rfl hservice) (fun hissued => not_accepted_of_issued hissued ?_)
      hcompares rfl
    exact ⟨_, _, hservice, rfl, heven, hkey, hanswer⟩
  | refused hcompares hanswer =>
    obtain ⟨_, _, _, hrefuse⟩ := refuse_eq (s.touch (Timer.ticks (clock + delta))).unlock
      (Timer.ticks (clock + delta))
    rw [hrefuse, hunlock, htouch]
    exact .quiet (quiet_of_ne rfl fun hpos => absurd hpos hanswer) rfl rfl
  | polled =>
    obtain ⟨hissued, haccepted⟩ :
        ¬ Issued ⟨(clock, s), (delta, .processTimeout), out,
          (clock + delta, (s.processTimeout (Timer.ticks (clock + delta))).1)⟩ ∧
        ¬ Accepted ⟨(clock, s), (delta, .processTimeout), out,
          (clock + delta, (s.processTimeout (Timer.ticks (clock + delta))).1)⟩ :=
      nothing_of_poll nofun
    rcases processTimeout_eq s (Timer.ticks (clock + delta)) with ⟨hne, heq⟩ | heq
    · refine .resets hne hissued haccepted ?_
      rw [heq]
    · refine .quiet ⟨fun hresets => hresets ?_, hissued, haccepted⟩ ?_ ?_ <;> rw [heq]
  | reset =>
    obtain ⟨hissued, haccepted⟩ :
        ¬ Issued ⟨(clock, s), (delta, .resetSession), out, (clock + delta, _)⟩ ∧
          ¬ Accepted ⟨(clock, s), (delta, .resetSession), out, (clock + delta, _)⟩ :=
      nothing_of_poll nofun
    exact .resets trivial hissued haccepted rfl

/-- **What a level stands for.** Since the last change of session a seed was issued for
the level, and then its key accepted under the next sub-function; and between two accepted
keys a seed is issued. -/
structure Earned (x : Logged) : Prop where
  level : x.2.2.securityLevel ≠ 0 → ∃ seed, Since (fun e => ¬ Resets e)
    (fun e past => (∃ subFunction : UInt8,
        subFunction.toNat = x.2.2.securityLevel.toNat + 1 ∧
          Accepts subFunction (calculateKey seed) e) ∧
      Since (fun e => ¬ Resets e) (fun e _ => Issues x.2.2.securityLevel seed e) past) x.1
  once : Historically (fun e past =>
    Accepted e → ¬ Since (fun e => ¬ Issued e) (fun e _ => Accepted e) past) x.1

/-- The tester keeps the order: the expected key is sent only after a seed request one
sub-function below, with no change of session, other seed request or accepted key since. -/
def InOrder (x : Logged) (i : Nat × UdsCall) : Prop :=
  match i.2 with
  | .request _ r _ =>
    compares (Timer.ticks (x.2.1 + i.1)) x.2.2 i.2 = some true →
      Since Quiet (fun e _ => ∃ level seed, r.subFunction.toNat = level.toNat + 1 ∧
        Issues level seed e) x.1
  | _ => True

def Pending (x : Logged) : Prop :=
  ∀ level : UInt8, Since Quiet (fun e _ => ∃ seed, Issues level seed e) x.1 →
    ∃ seed, x.2.2.expectedKey = calculateKey seed ∧ Since Quiet (fun e _ => Issues level seed e) x.1

theorem not_accepted_of_pending {log : List Entry} (h : Since Quiet (fun e _ => Issued e) log) :
    ¬ Since (fun e => ¬ Issued e) (fun e _ => Accepted e) log := by
  refine h.carry (I := fun log => ¬ Since (fun e => ¬ Issued e) (fun e _ => Accepted e) log) ?_ ?_
  · intro e past hissued hsince
    rcases hsince with haccepted | ⟨hnot, -⟩
    · exact not_accepted_of_issued hissued haccepted
    · exact hnot hissued
  · intro e past hquiet hpast hsince
    rcases hsince with haccepted | ⟨-, hrest⟩
    · exact hquiet.accepted haccepted
    · exact hpast hrest

theorem Issues.level_unique {l l' : UInt8} {seed seed' : UInt32} (h : Issues l seed e)
    (h' : Issues l' seed' e) : l = l' := by
  unfold Issues at h
  split at h
  case h_1 hcall =>
    rw [Issues, hcall] at h'
    exact h.2.1.symm.trans h'.2.1
  case h_2 => exact h.elim

theorem sub_one_eq {level subFunction : UInt8} (h : subFunction.toNat = level.toNat + 1) :
    subFunction - 1 = level := by
  apply UInt8.toNat_inj.mp
  rw [UInt8.toNat_sub_of_le _ _ (UInt8.le_iff_toNat_le.mpr (by rw [h]; exact Nat.le_add_left 1 _)),
    h]
  rfl

structure Ordered (x : Logged) : Prop where
  initialized : x.2.2.initialized = true
  pending : Pending x
  earned : Earned x

theorem Ordered.step {x : Logged} {i : Nat × UdsCall} (h : Ordered x)
    (hmoves : Moves (Timer.ticks (x.2.1 + i.1)) x.2.2 i.2 s' out) (horder : InOrder x i) :
    Pending (⟨x.2, i, out, (x.2.1 + i.1, s')⟩ :: x.1, (x.2.1 + i.1, s')) ∧
      Earned (⟨x.2, i, out, (x.2.1 + i.1, s')⟩ :: x.1, (x.2.1 + i.1, s')) := by
  cases effect hmoves with
  | resets hresets hissued haccepted hlevel =>
    refine ⟨?_, fun hne => absurd hlevel hne, fun hacc => absurd hacc haccepted, h.earned.once⟩
    rintro level (⟨seed, hissues⟩ | ⟨hquiet, -⟩)
    · exact absurd ⟨level, seed, hissues⟩ hissued
    · exact absurd hresets hquiet.resets
  | issues level seed hissues hresets haccepted hlevel hkey =>
    refine ⟨?_, fun hne => ?_, fun hacc => absurd hacc haccepted, h.earned.once⟩
    · rintro level' (⟨seed', hissues'⟩ | ⟨hquiet, -⟩)
      · obtain rfl := hissues.level_unique hissues'
        exact ⟨seed, hkey, .inl hissues⟩
      · exact absurd ⟨level, seed, hissues⟩ hquiet.issued
    · obtain ⟨seed', hsince⟩ := h.earned.level (hlevel ▸ hne)
      refine ⟨seed', .inr ⟨hresets, ?_⟩⟩
      rwa [hlevel]
  | accepts stack r area hcall haccepts hresets hissued hcompares hlevel =>
    -- The expected key is the one of the pending seed, so the level is the seed's.
    have hsince : Since Quiet (fun e _ => ∃ level seed, r.subFunction.toNat = level.toNat + 1 ∧
        Issues level seed e) x.1 := by
      have hcall' : i.2 = .request stack r area := hcall
      rw [InOrder, hcall'] at horder
      exact horder (hcall' ▸ hcompares)
    obtain ⟨-, -, level, -, hsub, -⟩ := hsince.exists_entry
    have hbelow : s'.securityLevel = level := hlevel.trans (sub_one_eq hsub)
    obtain ⟨seed, hexpected, hpending⟩ : ∃ seed, x.2.2.expectedKey = calculateKey seed ∧
        Since Quiet (fun e _ => Issues level seed e) x.1 := by
      refine h.pending level (hsince.mono (fun _ hq => hq) ?_)
      rintro e - ⟨level', seed, hsub', hissues⟩
      obtain rfl : level' = level := (sub_one_eq hsub').symm.trans (sub_one_eq hsub)
      exact ⟨seed, hissues⟩
    refine ⟨?_, fun _ => ⟨seed, .inl ?_⟩, fun _ => ?_, h.earned.once⟩
    · rintro level' (⟨seed', hissues⟩ | ⟨hquiet, -⟩)
      · exact absurd ⟨level', seed', hissues⟩ hissued
      · exact absurd ⟨_, _, haccepts⟩ hquiet.accepted
    · rw [hbelow, ← hexpected]
      exact ⟨⟨r.subFunction, hsub, haccepts⟩, hpending.mono (fun _ hq => hq.resets) fun _ _ hi =>
        hi⟩
    · exact not_accepted_of_pending (hpending.mono (fun _ hq => hq) fun _ _ hi => ⟨level, seed, hi⟩)
  | quiet hquiet hlevel hkey =>
    refine ⟨?_, fun hne => ?_, fun hacc => absurd hacc hquiet.accepted, h.earned.once⟩
    · rintro level (⟨seed, hissues⟩ | ⟨-, hrest⟩)
      · exact absurd ⟨level, seed, hissues⟩ hquiet.issued
      · obtain ⟨seed, hexpected, hsince⟩ := h.pending level hrest
        exact ⟨seed, hkey.trans hexpected, .inr ⟨hquiet, hsince⟩⟩
    · obtain ⟨seed, hsince⟩ := h.earned.level (hlevel ▸ hne)
      refine ⟨seed, .inr ⟨hquiet.resets, ?_⟩⟩
      rwa [hlevel]

/-- **Levels are earned.** From `UDS_Handler_Init`, in every run of requests, polls and
resets in which the tester keeps the order. -/
theorem level_earned (s₀ : UdsHandler) (t₀ : Nat) (config : UdsConfig)
    (calls : List (Nat × UdsCall))
    (horder : Along (logged clocked) InOrder ([], (t₀, s₀.init (Timer.ticks t₀) config)) calls) :
    Throughout (logged clocked) Earned ([], (t₀, s₀.init (Timer.ticks t₀) config)) calls := by
  refine throughout_logged Ordered (fun _ h => h.earned) (fun t => step_total (Timer.ticks t)) ?_
    calls ?_ horder
  · intro x i s' out h hok hstep
    have hmoves := moves h.initialized hstep
    obtain ⟨hpending, hearned⟩ := h.step hmoves hok
    exact ⟨hmoves.frame.1.trans h.initialized, hpending, hearned⟩
  · exact ⟨rfl, fun _ hsince => hsince.elim, fun hne => absurd rfl hne, trivial⟩

def zeroed : UdsHandler :=
  ⟨⟨0, 0, 0, false, false, false⟩, .default, .idle, .idle, 0, 0, false, false, 0, 0⟩

def plain : UdsConfig := ⟨5000, 10000, 3, true, false, false⟩

def askExtended : UdsCall :=
  .request 0 ⟨.diagnosticSessionControl, 3, [0x10, 3], 2, by decide⟩
    ⟨⟨0, 0, List.replicate 19 0, 0⟩, by decide⟩

/-- A seed is asked for; the stack happens to hold `0xA5A5A5A5`. -/
def askSeed (level : UInt8) : UdsCall :=
  .request 0xA5A5A5A5 ⟨.securityAccess, level, [0x27, level], 2, by simp⟩
    ⟨⟨0, 0, List.replicate 19 0, 0⟩, by decide⟩

def sendKey (subFunction b₀ b₁ b₂ b₃ : UInt8) : UdsCall :=
  .request 0 ⟨.securityAccess, subFunction, [0x27, subFunction, b₀, b₁, b₂, b₃], 6, by simp⟩
    ⟨⟨0, 0, List.replicate 19 0, 0⟩, by decide⟩

/-- The key to the seed 0 gives the level its seed was for. -/
theorem level_earned_at_one :
    Throughout (logged clocked) Earned ([], (0, zeroed.init (Timer.ticks 0) plain))
      [(1, askExtended), (1, askSeed 1), (1, sendKey 2 0x77 0x06 0x8B 0xCD)] ∧
    (run (logged clocked) ([], (0, zeroed.init (Timer.ticks 0) plain))
      [(1, askExtended), (1, askSeed 1), (1, sendKey 2 0x77 0x06 0x8B 0xCD)]).map
      (·.1.2.2.securityLevel) = some 1 := by
  refine ⟨level_earned zeroed 0 plain _ ?_, rfl⟩
  refine (along_cons_of rfl).mpr ⟨nofun, (along_cons_of rfl).mpr ⟨nofun, ?_⟩⟩
  refine (along_cons_of rfl).mpr ⟨fun _ => .inl ⟨1, 0, rfl, ?_⟩, trivial⟩
  exact ⟨rfl, rfl, rfl, rfl, rfl⟩

/-- Before any seed, the expected key is zero: it gives a level in the first session that
has security access. -/
theorem level_without_seed :
    ¬ Throughout (logged clocked) Earned ([], (0, zeroed.init (Timer.ticks 0) plain))
      [(1, askExtended), (1, sendKey 2 0 0 0 0)] := by
  intro h
  obtain ⟨seed, hsince⟩ := (h.last rfl).level (by decide)
  rcases hsince with ⟨-, hissued | ⟨-, hnone⟩⟩ | ⟨-, ⟨⟨_, _, haccepts⟩, -⟩ | ⟨-, hnone⟩⟩
  · cases hissued.1
  · exact hnone
  · cases haccepts.1
  · exact hnone

end UdsHandler

end Cant.Diagnostic.Uds
