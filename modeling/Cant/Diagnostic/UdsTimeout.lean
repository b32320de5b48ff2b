/-
# `UdsTimeout` — what is left of a session that was not kept up

A session that gets no request for `s3_client_ms` is to end. It ends in
`UDS_Handler_ProcessTimeout`, if that is called; `UDS_Handler_ProcessRequest` restarts the
timer without a look at it. So a late request finds the old session and the old level
unless a poll came in between, at a time when the timer, which counts modulo `2 ^ 32`, had
run out. `late_request_iff` is exact about it.
-/
import Cant.Diagnostic.UdsSecurity

namespace Cant.Diagnostic.Uds.UdsHandler

open Run Past

def lapse (s : UdsHandler) : UdsHandler := { s with currentSession := .default, securityLevel := 0 }

/-! ## The property -/

def IsRequest (e : Entry) : Prop := ∃ stack r area, e.input.2 = .request stack r area

def lastRequest : List Entry → Option Nat
  | [] => none
  | e :: past =>
    match e.input.2 with
    | .request _ _ _ => some e.post.1
    | _ => lastRequest past

/-- The request comes more than `s3_client_ms` after the one before. -/
def Late (config : UdsConfig) (log : List Entry) (now : Nat) : Prop :=
  ∃ t, lastRequest log = some t ∧ t + config.s3ClientMs < now

def AsLapsed (e : Entry) : Prop :=
  step (Timer.ticks e.post.1) e.pre.2.lapse e.input.2 = some (e.post.2, e.output)

/-- **A session that was not kept up is over.** -/
def TimesOut (config : UdsConfig) (x : Logged) : Prop :=
  Historically (fun e past => IsRequest e → Late config past e.post.1 → AsLapsed e) x.1

/-! ## The condition -/

/-- Since the last request the session has ended, or there was none: the request left the
default session, or a reset came, or a poll that saw the timer run out. -/
def Over (config : UdsConfig) : List Entry → Prop :=
  Since (fun e => ¬ IsRequest e) fun e past =>
    match e.input.2 with
    | .request _ _ _ => e.post.2.currentSession = .default
    | .resetSession => True
    | .processTimeout => ∃ t, lastRequest past = some t ∧
        config.s3ClientMs ≤ (e.post.1 - t) % 4294967296

/-- A late request comes when the session is over, or asks for a session that nobody is
told the end of. -/
def Polled (config : UdsConfig) (x : Logged) (i : Nat × UdsCall) : Prop :=
  match i.2 with
  | .request _ r _ => Late config x.1 (x.2.1 + i.1) →
      Over config x.1 ∨ EntersSession r ∧ config.sessionChangeCallback = false
  | _ => True

/-! ## A request in a session and without one -/

variable {s s' : UdsHandler} {now : Nat}

theorem moves_request (hinit : s.initialized = true) (now : Nat) (stack : UInt32) (r : UdsRequest)
    (area : UdsResponseArea) :
    Moves now s (.request stack r area) (s.processRequest now stack r area).1
      (s.processRequest now stack r area).2 :=
  have hstep : s.step now (.request stack r area) =
      some ((s.processRequest now stack r area).1, (s.processRequest now stack r area).2) := rfl
  moves hinit hstep

theorem validate_sessionControl (session : UdsSessionType) :
    validateServiceAccess .diagnosticSessionControl session = true := by
  cases session <;> rfl

theorem processRequest_enters {r : UdsRequest} {session : UdsSessionType}
    (hinit : s.initialized = true) (stack : UInt32) (area : UdsResponseArea)
    (hservice : r.serviceId = .diagnosticSessionControl) (hlength : r.length = 2)
    (hsession : UdsSessionType.ofCode r.subFunction.toNat = some session) :
    s.processRequest now stack r area = ((s.touch now).enter session,
      ⟨.positive, some (area.response.acknowledge r 2), s.sessionCallbacks session⟩) := by
  obtain ⟨timer, htouch⟩ := touch_eq s now
  have hcallbacks : (s.touch now).sessionCallbacks session = s.sessionCallbacks session := by
    rw [htouch]
    rfl
  simp [processRequest, hinit, hservice, validate_sessionControl, dispatch,
    processDiagnosticSessionControl, hlength, hsession, hcallbacks, answered]

theorem enter_lapse (s : UdsHandler) (now : Nat) (session : UdsSessionType) :
    (s.lapse.touch now).enter session = (s.touch now).enter session := by
  unfold touch lapse
  split <;> rfl

/-- **A request tells a session from none**, unless it enters one and no callback says
from where. -/
theorem processRequest_lapse_iff (hinit : s.initialized = true)
    (hlevel : s.currentSession = .default → s.securityLevel = 0) (stack : UInt32) (r : UdsRequest)
    (area : UdsResponseArea) :
    s.lapse.processRequest now stack r area = s.processRequest now stack r area ↔
      s.currentSession = .default ∨ EntersSession r ∧ s.config.sessionChangeCallback = false := by
  constructor
  · intro heq
    by_cases henters : EntersSession r
    · obtain ⟨hservice, hlength, hsome⟩ := henters
      obtain ⟨session, hsession⟩ := Option.ne_none_iff_exists'.mp hsome
      cases hcallback : s.config.sessionChangeCallback with
      | false => exact .inr ⟨⟨hservice, hlength, hsome⟩, rfl⟩
      | true =>
        have hboth := congrArg (fun r => r.2.callbacks) heq
        rw [processRequest_enters (s := s.lapse) hinit stack area hservice hlength hsession,
          processRequest_enters hinit stack area hservice hlength hsession] at hboth
        simp only [sessionCallbacks, lapse, hcallback, if_true, List.cons.injEq,
          UdsCallback.sessionChange.injEq, and_true] at hboth
        exact .inl hboth.symm
    · have hdefault := (moves_request (s := s.lapse) hinit now stack r area).keeps.session henters
      rw [heq, (moves_request hinit now stack r area).keeps.session henters] at hdefault
      exact .inl hdefault
  · rintro (hdefault | ⟨⟨hservice, hlength, hsome⟩, hcallback⟩)
    · have hlapse : s.lapse = s := by
        unfold lapse
        rw [← hdefault, ← hlevel hdefault]
      rw [hlapse]
    · obtain ⟨session, hsession⟩ := Option.ne_none_iff_exists'.mp hsome
      rw [processRequest_enters hinit stack area hservice hlength hsession,
        processRequest_enters (s := s.lapse) hinit stack area hservice hlength hsession,
          enter_lapse]
      simp [sessionCallbacks, lapse, hcallback]

structure Timed (config : UdsConfig) (x : Logged) : Prop where
  initialized : x.2.2.initialized = true
  settings : x.2.2.config = config
  timer : ∀ t, lastRequest x.1 = some t →
    t ≤ x.2.1 ∧ x.2.2.sessionTimer = .start (Timer.ticks t) config.s3ClientMs
  session : x.2.2.currentSession = .default ↔ (lastRequest x.1 = none ∨ Over config x.1)
  level : x.2.2.currentSession = .default → x.2.2.securityLevel = 0

theorem Moves.level {stack : UInt32} {r : UdsRequest} {area : UdsResponseArea} {out : UdsOut}
    (h : Moves now s (.request stack r area) s' out)
    (hlevel : s.currentSession = .default → s.securityLevel = 0)
    (hdefault : s'.currentSession = .default) : s'.securityLevel = 0 := by
  obtain ⟨timer, htouch⟩ := touch_eq s now
  obtain ⟨locked, count, hunlock⟩ := unlock_eq (s.touch now)
  cases h with
  | ignored =>
    rw [htouch] at hdefault ⊢
    exact hlevel hdefault
  | entered => rfl
  | seeded | opened =>
    rw [hunlock, htouch] at hdefault ⊢
    exact hlevel hdefault
  | granted _ _ _ hcompares =>
    rw [hunlock, htouch] at hdefault
    have hallowed := (allowed_of_compares hcompares).1
    have hdefault' : s.currentSession = .default := hdefault
    rw [hdefault'] at hallowed
    cases hallowed
  | refused =>
    obtain ⟨_, _, _, hrefuse⟩ := refuse_eq (s.touch now).unlock now
    rw [hrefuse, hunlock, htouch] at hdefault ⊢
    exact hlevel hdefault

theorem processTimeout_default_iff (hinit : s.initialized = true)
    (henable : s.config.enableSessionTimeout = true) :
    (s.processTimeout now).1.currentSession = .default ↔
      s.currentSession = .default ∨ s.sessionTimer.expired now = true := by
  unfold processTimeout
  split
  case isTrue h => exact iff_of_true rfl (.inr h.2.2.1)
  case isFalse h =>
    refine ⟨.inl, fun hor => ?_⟩
    rcases hor with hdefault | hexpired
    · exact hdefault
    · by_contra hne
      exact h ⟨hinit, henable, hexpired, hne⟩

section

variable {config : UdsConfig} {x : Logged} {delta : Nat}

variable {out : UdsOut} (h : Timed config x)
include h

theorem Timed.request {stack : UInt32} {r : UdsRequest} {area : UdsResponseArea}
    (henable : config.enableSessionTimeout = true)
    (hmoves : Moves (Timer.ticks (x.2.1 + delta)) x.2.2 (.request stack r area) s' out) :
    Timed config (⟨x.2, (delta, .request stack r area), out, (x.2.1 + delta, s')⟩ :: x.1,
      (x.2.1 + delta, s')) where
  initialized := hmoves.frame.1.trans h.initialized
  settings := hmoves.frame.2.trans h.settings
  timer := by
    rintro t ⟨⟩
    have htimer := hmoves.keeps.timer
    simp only [touch, h.settings, henable, if_true] at htimer
    exact ⟨.refl, htimer⟩
  session := by
    constructor
    · intro hdefault
      exact .inr (.inl hdefault)
    · rintro (hnone | hdefault | ⟨hnot, -⟩)
      · cases hnone
      · exact hdefault
      · exact absurd ⟨_, _, _, rfl⟩ hnot
  level := hmoves.level h.level

theorem Timed.expired_iff {t now : Nat} (hlast : lastRequest x.1 = some t)
    (hle : x.2.1 ≤ now) :
    x.2.2.sessionTimer.expired (Timer.ticks now) = true ↔ config.s3ClientMs ≤
      (now - t) % 4294967296 := by
  obtain ⟨ht, htimer⟩ := h.timer t hlast
  rw [htimer, Timer.expired_start _ (ht.trans hle)]

theorem Timed.poll (henable : config.enableSessionTimeout = true) :
    Timed config (⟨x.2, (delta, .processTimeout), out,
        (x.2.1 + delta, (x.2.2.processTimeout (Timer.ticks (x.2.1 + delta))).1)⟩ :: x.1,
      (x.2.1 + delta, (x.2.2.processTimeout (Timer.ticks (x.2.1 + delta))).1)) := by
  have hpolled : Moves (Timer.ticks (x.2.1 + delta)) x.2.2 .processTimeout _ out := .polled
  have hdefault : (x.2.2.processTimeout (Timer.ticks (x.2.1 + delta))).1.currentSession = .default ↔
      x.2.2.currentSession = .default ∨
        x.2.2.sessionTimer.expired (Timer.ticks (x.2.1 + delta)) = true :=
    processTimeout_default_iff h.initialized (by rw [h.settings, henable])
  have hle : x.2.1 ≤ x.2.1 + delta := Nat.le_add_right _ _
  constructor
  case initialized => exact hpolled.frame.1.trans h.initialized
  case settings => exact hpolled.frame.2.trans h.settings
  case timer =>
    intro t ht
    refine ⟨Nat.le_trans (h.timer t ht).1 hle, Eq.trans ?_ (h.timer t ht).2⟩
    rcases processTimeout_eq x.2.2 (Timer.ticks (x.2.1 + delta)) with ⟨-, heq⟩ | heq <;> rw [heq]
  case session =>
    rw [hdefault, h.session]
    constructor
    · rintro ((hnone | hover) | hexpired)
      · exact .inl hnone
      · exact .inr (.inr ⟨by rintro ⟨_, _, _, ⟨⟩⟩, hover⟩)
      · cases hlast : lastRequest x.1 with
        | none => exact .inl hlast
        | some t => exact .inr (.inl ⟨t, hlast, (h.expired_iff hlast hle).mp hexpired⟩)
    · rintro (hnone | ⟨t, hlast, hlong⟩ | ⟨-, hover⟩)
      · exact .inl (.inl hnone)
      · exact .inr ((h.expired_iff hlast hle).mpr hlong)
      · exact .inl (.inr hover)
  case level =>
    rcases processTimeout_eq x.2.2 (Timer.ticks (x.2.1 + delta)) with ⟨-, heq⟩ | heq
    · rw [heq]
      exact fun _ => rfl
    · rw [heq]
      exact h.level

theorem Timed.reset :
    Timed config (⟨x.2, (delta, .resetSession), out, (x.2.1 + delta, x.2.2.enter .default)⟩ :: x.1,
      (x.2.1 + delta, x.2.2.enter .default)) where
  initialized := h.initialized
  settings := h.settings
  timer := fun t ht => ⟨Nat.le_trans (h.timer t ht).1 (Nat.le_add_right _ _), (h.timer t ht).2⟩
  session := iff_of_true rfl (.inr (.inl trivial))
  level := fun _ => rfl

theorem Timed.step {i : Nat × UdsCall} (henable : config.enableSessionTimeout = true)
    (hmoves : Moves (Timer.ticks (x.2.1 + i.1)) x.2.2 i.2 s' out) :
    Timed config (⟨x.2, i, out, (x.2.1 + i.1, s')⟩ :: x.1, (x.2.1 + i.1, s')) := by
  obtain ⟨delta, call⟩ := i
  cases call with
  | request stack r area => exact h.request henable hmoves
  | processTimeout =>
    cases hmoves
    exact h.poll henable
  | resetSession =>
    cases hmoves
    exact h.reset

theorem polled_iff {i : Nat × UdsCall}
    (hstep : x.2.2.step (Timer.ticks (x.2.1 + i.1)) i.2 = some (s', out)) :
    Polled config x i ↔
      (IsRequest ⟨x.2, i, out, (x.2.1 + i.1, s')⟩ → Late config x.1 (x.2.1 + i.1) →
        AsLapsed ⟨x.2, i, out, (x.2.1 + i.1, s')⟩) := by
  obtain ⟨delta, call⟩ := i
  cases call with
  | request stack r area =>
    have hlapsed : AsLapsed ⟨x.2, (delta, .request stack r area), out, (x.2.1 + delta, s')⟩ ↔
        x.2.2.currentSession = .default ∨
          EntersSession r ∧ config.sessionChangeCallback = false := by
      rw [← h.settings, ← processRequest_lapse_iff h.initialized h.level stack r area]
      exact ⟨fun heq => Option.some.inj (heq.trans hstep.symm), fun heq =>
        (congrArg some heq).trans hstep⟩
    rw [hlapsed, h.session]
    constructor
    · intro hpolled _ hlate
      rcases hpolled hlate with hover | henters
      · exact .inl (.inr hover)
      · exact .inr henters
    · intro hall hlate
      obtain ⟨t, hlast, hlt⟩ := hlate
      rcases hall ⟨_, _, _, rfl⟩ ⟨t, hlast, hlt⟩ with (hnone | hover) | henters
      · cases hlast.symm.trans hnone
      · exact .inl hover
      · exact .inr henters
  | processTimeout | resetSession => exact iff_of_true trivial (by rintro ⟨_, _, _, ⟨⟩⟩)

end

/-- **Late requests.** From `UDS_Handler_Init` with the session timeout on, every request
more than `s3_client_ms` after the one before is handled as without a session in exactly the
runs in which each of them finds the session over. -/
theorem late_request_iff (s₀ : UdsHandler) (t₀ : Nat) (config : UdsConfig)
    (calls : List (Nat × UdsCall)) (henable : config.enableSessionTimeout = true) :
    Throughout (logged clocked) (TimesOut config) ([], (t₀, s₀.init (Timer.ticks t₀) config))
      calls ↔
      Along (logged clocked) (Polled config) ([], (t₀, s₀.init (Timer.ticks t₀) config)) calls := by
  refine throughout_iff (Timed config) ?_ ?_ calls (fun _ _ => trivial)
    ⟨rfl, rfl, nofun, iff_of_true rfl (.inl rfl), fun _ => rfl⟩ trivial
  · intro x i x' out h hstep
    obtain ⟨s', out', hcall⟩ := step_total (Timer.ticks (x.2.1 + i.1)) x.2.2 i.2
    cases (logged_timed hcall).symm.trans hstep
    exact h.step henable (moves h.initialized hcall)
  · intro x i _ h htimes
    obtain ⟨s', out, hcall⟩ := step_total (Timer.ticks (x.2.1 + i.1)) x.2.2 i.2
    have hlogged : logged clocked x i = some (_, out) := logged_timed hcall
    rw [polled_iff h hcall, hlogged, exists_some]
    exact ⟨fun hnow => ⟨hnow, htimes⟩, fun hnext => hnext.1⟩

/-- Twelve seconds of silence with no poll leave a tester the level it had. -/
theorem session_kept_without_poll :
    ¬ Throughout (logged clocked) (TimesOut plain) ([], (0, zeroed.init (Timer.ticks 0) plain))
      [(1, askExtended), (12000, askSeed 1)] := by
  intro h
  have hlapsed := (h.last rfl).1 ⟨_, _, _, rfl⟩ ⟨1, rfl, by decide⟩
  exact absurd (congrArg (Option.map (·.2.answer)) hlapsed) (by decide)

/-- With one poll in between, the session is over. -/
theorem session_over_after_poll :
    Throughout (logged clocked) (TimesOut plain) ([], (0, zeroed.init (Timer.ticks 0) plain))
      [(1, askExtended), (6000, .processTimeout), (6000, askSeed 1)] := by
  refine (late_request_iff zeroed 0 plain _ rfl).mpr ?_
  refine (along_cons_of rfl).mpr ⟨?_, (along_cons_of rfl).mpr ⟨trivial, ?_⟩⟩
  · rintro ⟨_, ⟨⟩, -⟩
  · exact (along_cons_of rfl).mpr ⟨fun _ => .inl (.inl ⟨1, rfl, by decide⟩), trivial⟩

end Cant.Diagnostic.Uds.UdsHandler
