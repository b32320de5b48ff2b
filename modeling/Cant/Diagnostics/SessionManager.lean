/-
# `SessionManager` — sessions over the network manager

`diagnostics/session_manager.c`. A seed is drawn with `rand`, a key answers it if it
is the seed with some bits turned over, and after three wrong keys no seed is given out until a
lockout timer has run out and `session_manager_process` has cleared the count.

The seed starts as zero, so the key to it is known before any seed is drawn; keys are taken
in the lockout all the same; the count wraps after 256 wrong keys; and the timer of an
earlier lockout, which has run out and is never stopped, clears the count of a new row
before it is complete. `keys_guarded` excludes the four.

A request that sends a key and is not accepted counts as a wrong key, also where it is too short to
carry one.
-/
import Cant.Lib.Lockout
import Cant.Utils.Timer

namespace Cant.Diagnostics

open Run Past Lockout Word

structure SessionConfig where
  sessionTimeoutMs : Nat
  enableProgramming : Bool
  enableExtendedSession : Bool
  enableSafetySystem : Bool

structure SessionManager where
  config : SessionConfig
  current : UInt8
  timeout : Timer
  sessionActive : Bool
  level : UInt8
  locked : Bool
  seed : UInt32
  lockout : Timer
  failedAttempts : UInt8

namespace SessionManager

def create (config : SessionConfig) : SessionManager :=
  ⟨config, 0x01, .idle, false, 0, true, 0, .idle, 0⟩

def handleSessionTimeout (s : SessionManager) (now : Nat) : SessionManager :=
  if s.sessionActive ∧ s.timeout.expired now then
    { s with current := 0x01, sessionActive := false, locked := true, level := 0 }
  else s

/-- `validate_security_access` of the bytes behind the sub-function. -/
def validateSecurityAccess (s : SessionManager) : List UInt8 → Bool
  | b₀ :: b₁ :: b₂ :: b₃ :: _ => decide (word32 b₃ b₂ b₁ b₀ = s.seed ^^^ 0x12345678)
  | _ => false

def process (s : SessionManager) (now : Nat) : SessionManager :=
  let s := s.handleSessionTimeout now
  if s.failedAttempts > 0 ∧ s.lockout.expired now then { s with failedAttempts := 0 } else s

def allowed (s : SessionManager) (requested : UInt8) : Bool :=
  if requested = 0x02 then s.config.enableProgramming
  else if requested = 0x03 then s.config.enableExtendedSession
  else if requested = 0x04 then s.config.enableSafetySystem
  else true

/-- The session-control case of `session_manager_handle_request`. -/
def sessionControl (s : SessionManager) (now : Nat) : List UInt8 → SessionManager × Bool
  | [requested] =>
    if s.allowed requested then
      ({ s with
        current := requested, sessionActive := true
        timeout := .start now s.config.sessionTimeoutMs }, true)
    else (s, false)
  | _ => (s, false)

def accept (s : SessionManager) (subfunction : UInt8) : SessionManager :=
  { s with locked := false, level := subfunction / 2, failedAttempts := 0 }

def reject (s : SessionManager) (now : Nat) : SessionManager :=
  let s := { s with failedAttempts := s.failedAttempts + 1 }
  if s.failedAttempts ≥ 3 then { s with lockout := .start now 10000 } else s

/-- The security-access case of `session_manager_handle_request`; `rand` is what `rand()`
returns. -/
def securityAccess (s : SessionManager) (now : Nat) (rand : UInt32) :
    List UInt8 → SessionManager × Bool
  | [] => (s, false)
  | subfunction :: key =>
    if subfunction % 2 = 1 then
      if s.failedAttempts ≥ 3 then (s, false) else ({ s with seed := rand }, true)
    else if s.validateSecurityAccess key then (s.accept subfunction, true)
    else (s.reject now, false)

def handleRequest (s : SessionManager) (now : Nat) (rand : UInt32) :
    List UInt8 → SessionManager × Bool
  | [] => (s, false)
  | service :: data =>
    if service = 0x10 then s.sessionControl now data
    else if service = 0x27 then s.securityAccess now rand data
    else (s, false)

inductive Call where
  | request (rand : UInt32) (data : List UInt8)
  | process

def step (now : Nat) (s : SessionManager) : Call → Option (SessionManager × Bool)
  | .request rand data => some (s.handleRequest now rand data)
  | .process => some (s.process now, true)

/-! ## What the log shows -/

def clocked : Nat × SessionManager → Nat × Call → Option ((Nat × SessionManager) × Bool) :=
  timed fun t => step (Timer.ticks t)

abbrev Entry : Type := Taken (Nat × SessionManager) (Nat × Call) Bool

abbrev Logged : Type := List Entry × (Nat × SessionManager)

/-- The sub-function of a security-access request, and what follows it. -/
def Call.access : Call → Option (UInt8 × List UInt8)
  | .request _ (service :: subfunction :: key) =>
    if service = 0x27 then some (subfunction, key) else none
  | _ => none

def Call.sentKey (call : Call) : Option (List UInt8) :=
  match call.access with
  | some (subfunction, key) => if subfunction % 2 = 1 then none else some key
  | none => none

def Issues (seed : UInt32) (e : Entry) : Prop :=
  ∃ subfunction key data, e.input.2 = .request seed data ∧
    e.input.2.access = some (subfunction, key) ∧ subfunction % 2 = 1 ∧ e.output = true

def Issued (e : Entry) : Prop := ∃ seed, Issues seed e

def Accepts (key : UInt32) (e : Entry) : Prop :=
  ∃ b₀ b₁ b₂ b₃ rest, e.input.2.sentKey = some (b₀ :: b₁ :: b₂ :: b₃ :: rest) ∧
    word32 b₃ b₂ b₁ b₀ = key ∧ e.output = true

def Accepted (e : Entry) : Prop := e.input.2.sentKey ≠ none ∧ e.output = true

/-- What an entry says about a key. The end of a lockout ends a row. -/
def mark (e : Entry) : Mark :=
  match e.input.2.sentKey with
  | some _ => if e.output then .ends else .wrong
  | none => if e.pre.2.failedAttempts ≥ 3 ∧ e.post.2.failedAttempts = 0 then .ends else .neither

/-- **What an accepted key stands for.** It answers the last seed, which was issued; and it
does not come within ten seconds of the third wrong key in a row. -/
structure Guarded (x : Logged) : Prop where
  answers : Historically (fun e past => Accepted e →
    ∃ seed, Accepts (seed ^^^ 0x12345678) e ∧
      Since (fun e => ¬ Issued e) (fun e _ => Issues seed e) past) x.1
  lockout : Kept 3 mark (·.post.1) 10000 Accepted x.1

/-- What a request sends begins with the key to a seed. -/
def KeyTo (seed : UInt32) (key : List UInt8) : Prop :=
  ∃ b₀ b₁ b₂ b₃ rest, key = b₀ :: b₁ :: b₂ :: b₃ :: rest ∧ word32 b₃ b₂ b₁ b₀ = seed ^^^ 0x12345678

/-- The key to the seed is not sent before a seed is issued, or in the lockout; the count does
not wrap; and it is not cleared by the timer of an earlier lockout. -/
def Orderly (x : Logged) (i : Nat × Call) : Prop :=
  (∀ key, i.2.sentKey = some key → KeyTo x.2.2.seed key →
    (∃ e ∈ x.1, Issued e) ∧
      (x.2.2.failedAttempts ≥ 3 → x.2.2.lockout.expired (Timer.ticks (x.2.1 + i.1)) = true)) ∧
  (∀ key, i.2.sentKey = some key → ¬ KeyTo x.2.2.seed key → x.2.2.failedAttempts ≠ 255) ∧
  (i.2 = .process → 0 < x.2.2.failedAttempts → x.2.2.failedAttempts < 3 →
    x.2.2.lockout.expired (Timer.ticks (x.2.1 + i.1)) = false)

/-! ## What a call can do -/

/-- The seed, the count and the timer are as they were. -/
structure SameSecurity (s s' : SessionManager) : Prop where
  seed : s'.seed = s.seed
  failedAttempts : s'.failedAttempts = s.failedAttempts
  lockout : s'.lockout = s.lockout

inductive Moves (now : Nat) (s : SessionManager) : Call → SessionManager → Bool → Prop
  | ignored {rand : UInt32} {data : List UInt8} {s' : SessionManager} {out : Bool}
      (hkey : (Call.request rand data).sentKey = none)
      (hseed : (Call.request rand data).access ≠ none → out = false) (hsame : SameSecurity s s') :
      Moves now s (.request rand data) s' out
  | issued {rand : UInt32} {data : List UInt8} (subfunction : UInt8) (key : List UInt8)
      (haccess : (Call.request rand data).access = some (subfunction, key))
      (hodd : subfunction % 2 = 1) : Moves now s (.request rand data) { s with seed := rand } true
  | accepted {rand : UInt32} {data : List UInt8} (subfunction : UInt8) (key : List UInt8)
      (hkey : (Call.request rand data).sentKey = some key)
      (hright : s.validateSecurityAccess key = true) :
      Moves now s (.request rand data) (s.accept subfunction) true
  | rejected {rand : UInt32} {data : List UInt8} (key : List UInt8)
      (hkey : (Call.request rand data).sentKey = some key)
      (hwrong : s.validateSecurityAccess key = false) :
      Moves now s (.request rand data) (s.reject now) false
  | processed : Moves now s .process (s.process now) true

section

variable {s s' : SessionManager} {now : Nat} {call : Call} {out : Bool}

theorem validateSecurityAccess_iff {key : List UInt8} :
    s.validateSecurityAccess key = true ↔ KeyTo s.seed key := by
  constructor
  · intro h
    unfold validateSecurityAccess at h
    split at h
    · exact ⟨_, _, _, _, _, rfl, of_decide_eq_true h⟩
    · cases h
  · rintro ⟨b₀, b₁, b₂, b₃, rest, rfl, h⟩
    exact decide_eq_true h

instance (s : SessionManager) (key : List UInt8) : Decidable (KeyTo s.seed key) :=
  decidable_of_iff _ validateSecurityAccess_iff

theorem sessionControl_same (s : SessionManager) (now : Nat) (data : List UInt8) :
    SameSecurity s (s.sessionControl now data).1 := by
  unfold sessionControl
  split
  · split <;> exact ⟨rfl, rfl, rfl⟩
  · exact ⟨rfl, rfl, rfl⟩

theorem moves_securityAccess (rand : UInt32) (data : List UInt8) :
    Moves now s (.request rand (0x27 :: data)) (s.securityAccess now rand data).1
      (s.securityAccess now rand data).2 := by
  cases data with
  | nil => exact .ignored rfl (fun _ => rfl) ⟨rfl, rfl, rfl⟩
  | cons subfunction key =>
    have haccess : (Call.request rand (0x27 :: subfunction :: key)).access =
      some (subfunction, key) := rfl
    simp only [securityAccess]
    by_cases hodd : subfunction % 2 = 1
    · have hnone : (Call.request rand (0x27 :: subfunction :: key)).sentKey = none := by
        simp [Call.sentKey, haccess, hodd]
      rw [if_pos hodd]
      split
      · exact .ignored hnone (fun _ => rfl) ⟨rfl, rfl, rfl⟩
      · exact .issued subfunction key haccess hodd
    · have hsent : (Call.request rand (0x27 :: subfunction :: key)).sentKey = some key := by
        simp [Call.sentKey, haccess, hodd]
      rw [if_neg hodd]
      split
      case isTrue hright => exact .accepted subfunction key hsent hright
      case isFalse hwrong => exact .rejected key hsent (Bool.not_eq_true _ ▸ hwrong)

theorem moves (hstep : s.step now call = some (s', out)) : Moves now s call s' out := by
  cases call with
  | process =>
    cases hstep
    exact .processed
  | request rand data =>
    obtain ⟨rfl, rfl⟩ := eq_of_some hstep
    cases data with
    | nil => exact .ignored rfl (fun _ => rfl) ⟨rfl, rfl, rfl⟩
    | cons service data =>
      have hother : service ≠ 0x27 → (Call.request rand (service :: data)).access = none := by
        intro hne
        cases data with
        | nil => rfl
        | cons subfunction key => exact if_neg hne
      have hnoKey : service ≠ 0x27 → (Call.request rand (service :: data)).sentKey = none := by
        intro hne
        rw [Call.sentKey, hother hne]
      simp only [handleRequest]
      split
      case isTrue hcontrol =>
        have hne : service ≠ 0x27 := by
          rw [hcontrol]
          decide
        exact .ignored (hnoKey hne) (fun h => absurd (hother hne) h)
          (sessionControl_same s now data)
      case isFalse =>
        split
        case isTrue haccess =>
          subst haccess
          exact moves_securityAccess rand data
        case isFalse hne => exact .ignored (hnoKey hne) (fun _ => rfl) ⟨rfl, rfl, rfl⟩

theorem sentKey_of_odd {subfunction : UInt8} {key : List UInt8}
    (haccess : call.access = some (subfunction, key)) (hodd : subfunction % 2 = 1) :
    call.sentKey = none := by
  simp [Call.sentKey, haccess, hodd]

theorem process_eq (s : SessionManager) (now : Nat) :
    (s.process now).seed = s.seed ∧ (s.process now).lockout = s.lockout ∧
      (s.process now).failedAttempts =
        if s.failedAttempts > 0 ∧ s.lockout.expired now then 0 else s.failedAttempts := by
  have hsame : SameSecurity s (s.handleSessionTimeout now) := by
    unfold handleSessionTimeout
    split <;> exact ⟨rfl, rfl, rfl⟩
  simp only [process, hsame.failedAttempts, hsame.lockout]
  split
  · exact ⟨hsame.seed, rfl, rfl⟩
  · exact ⟨hsame.seed, hsame.lockout, hsame.failedAttempts⟩

end

/-! ## What the manager knows -/

/-- The count is the row of wrong keys, or the timer was started by the last one. -/
inductive Knows (log : List Entry) (now : Nat) (s : SessionManager) : Prop
  | counting (hlt : s.failedAttempts.toNat < 3)
      (h : (Lock.counting s.failedAttempts.toNat).Tracks 3 10000 mark (·.post.1) log now)
  | held (t : Nat) (hle : t ≤ now) (hge : 3 ≤ s.failedAttempts.toNat)
      (htimer : s.lockout = .start (Timer.ticks t) 10000)
      (h : (Lock.held t).Tracks 3 10000 mark (·.post.1) log now)

section

variable {s s' : SessionManager} {now now' : Nat} {log : List Entry} {e : Entry}

theorem Knows.wait (h : Knows log now s) (hle : now ≤ now') : Knows log now' s := by
  cases h with
  | counting h₁ h₂ => exact .counting h₁ (h₂.wait hle)
  | held t h₁ h₂ h₃ h₄ => exact .held t (h₁.trans hle) h₂ h₃ (h₄.wait hle)

theorem Knows.neither (h : Knows log now s) (he : mark e = .neither)
    (hcount : s'.failedAttempts = s.failedAttempts) (htimer : s'.lockout = s.lockout) :
    Knows (e :: log) now s' := by
  cases h with
  | counting h₁ h₂ => exact .counting (hcount ▸ h₁) (hcount ▸ h₂.neither he)
  | held t h₁ h₂ h₃ h₄ => exact .held t h₁ (hcount ▸ h₂) (htimer.trans h₃) (h₄.neither he)

theorem Knows.over (h : Knows log now s)
    (hover : s.failedAttempts ≥ 3 → s.lockout.expired (Timer.ticks now) = true) :
    ∀ t ∈ completed 3 mark (·.post.1) log, t + 10000 ≤ now := by
  cases h with
  | counting _ h => exact h.2
  | held t hle hge htimer h =>
    have hexpired := hover (UInt8.le_iff_toNat_le.mpr hge)
    rw [htimer] at hexpired
    have hten := Timer.le_of_expired hle hexpired
    intro t' ht'
    have := h t' ht'
    omega

theorem Knows.zero (hzero : s.failedAttempts = 0)
    (h : (Lock.counting 0).Tracks 3 10000 mark (·.post.1) log now) : Knows log now s := by
  refine .counting ?_ ?_
  · rw [hzero]
    decide
  · rwa [hzero]

theorem Knows.reject (h : Knows log now s) (hwrap : s.failedAttempts ≠ 255) (he : mark e = .wrong)
    (htime : e.post.1 = now) : Knows (e :: log) now (s.reject (Timer.ticks now)) := by
  have hlt : s.failedAttempts.toNat < 255 := by
    have hle : s.failedAttempts.toNat < 256 := s.failedAttempts.toNat_lt
    have hne : s.failedAttempts.toNat ≠ 255 := fun heq => hwrap (UInt8.toNat_inj.mp heq)
    omega
  have hcount := toNat_succ_of_lt hlt (by decide)
  have hthree : (3 : UInt8).toNat = 3 := rfl
  simp only [SessionManager.reject, ge_iff_le, UInt8.le_iff_toNat_le, hcount, hthree]
  by_cases hdone : 3 ≤ s.failedAttempts.toNat + 1
  · rw [if_pos hdone]
    refine .held now .refl (hcount ▸ hdone) rfl ?_
    cases h with
    | counting _ h => exact (h.shuts he hdone htime).hold
    | held t hle _ _ h => exact h.prolong hle htime
  · rw [if_neg hdone]
    cases h with
    | counting _ h =>
      have hnext := h.wrong he (Nat.lt_of_not_le hdone)
      rw [← hcount] at hnext hdone
      exact .counting (Nat.lt_of_not_le hdone) hnext
    | held t _ hge => exact absurd (Nat.le_succ_of_le hge) hdone

theorem Knows.process {clock delta : Nat} {out : Bool} (h : Knows log (clock + delta) s)
    (hstale : 0 < s.failedAttempts → s.failedAttempts < 3 →
      s.lockout.expired (Timer.ticks (clock + delta)) = false) :
    Knows (⟨(clock, s), (delta, .process), out,
      (clock + delta, s.process (Timer.ticks (clock + delta)))⟩ :: log)
      (clock + delta) (s.process (Timer.ticks (clock + delta))) := by
  obtain ⟨-, htimer, hcount⟩ := process_eq s (Timer.ticks (clock + delta))
  by_cases hclear : s.failedAttempts > 0 ∧ s.lockout.expired (Timer.ticks (clock + delta)) = true
  · rw [if_pos hclear] at hcount
    have hge : s.failedAttempts ≥ 3 := by
      by_contra hlt
      exact absurd (hclear.2.symm.trans (hstale hclear.1 (UInt8.not_le.mp hlt))) nofun
    exact .zero hcount (.of_ends (h.over fun _ => hclear.2) (if_pos ⟨hge, hcount⟩))
  · rw [if_neg hclear] at hcount
    refine h.neither (if_neg ?_) hcount htimer
    rintro ⟨hge, hzero⟩
    rw [hcount.symm.trans hzero] at hge
    cases hge

end

/-- The invariant: the seed is the last one issued, and the manager knows of the wrong keys. -/
structure Inv (x : Logged) : Prop where
  drawn : (∃ e ∈ x.1, Issued e) → Since (fun e => ¬ Issued e) (fun e _ => Issues x.2.2.seed e) x.1
  knows : Knows x.1 x.2.1 x.2.2
  guarded : Guarded x

section

variable {x : Logged} {i : Nat × Call} {s' : SessionManager} {out : Bool}

variable {e : Entry}

theorem Inv.drawn_step (h : Inv x) (hnot : ¬ Issued e) (hseed : s'.seed = x.2.2.seed)
    (hsome : ∃ e' ∈ e :: x.1, Issued e') :
    Since (fun e => ¬ Issued e) (fun e _ => Issues s'.seed e) (e :: x.1) := by
  obtain ⟨e', hmem, hissued⟩ := hsome
  rcases List.mem_cons.mp hmem with rfl | hold
  · exact absurd hissued hnot
  · rw [hseed]
    exact .inr ⟨hnot, h.drawn ⟨e', hold, hissued⟩⟩

theorem Inv.guarded_step (h : Inv x) (hnot : ¬ Accepted e) (y : Nat × SessionManager) :
    Guarded (e :: x.1, y) :=
  ⟨⟨fun hacc => absurd hacc hnot, h.guarded.answers⟩,
    ⟨fun hacc => absurd hacc hnot, h.guarded.lockout⟩⟩

theorem not_issued (h : e.input.2.access ≠ none → e.input.2.sentKey ≠ none ∨ e.output = false) :
    ¬ Issued e := by
  rintro ⟨seed, subfunction, key, data, -, haccess, hodd, hout⟩
  rcases h (by rw [haccess]; exact nofun) with hkey | hfalse
  · exact hkey (sentKey_of_odd haccess hodd)
  · cases hout.symm.trans hfalse

theorem mark_neither (hkey : e.input.2.sentKey = none)
    (hcount : e.post.2.failedAttempts = e.pre.2.failedAttempts) : mark e = .neither := by
  rw [mark, hkey]
  refine if_neg ?_
  rintro ⟨hge, hzero⟩
  rw [hcount.symm.trans hzero] at hge
  cases hge

theorem Inv.step (h : Inv x) (hmoves : Moves (Timer.ticks (x.2.1 + i.1)) x.2.2 i.2 s' out)
    (hok : Orderly x i) : Inv (⟨x.2, i, out, (x.2.1 + i.1, s')⟩ :: x.1, (x.2.1 + i.1, s')) := by
  have hknows := h.knows.wait (Nat.le_add_right x.2.1 i.1)
  obtain ⟨delta, call⟩ := i
  cases hmoves with
  | ignored hkey hseed hsame =>
    constructor
    case drawn => exact h.drawn_step (not_issued fun hne => .inr (hseed hne)) hsame.seed
    case knows =>
      exact hknows.neither (mark_neither hkey hsame.failedAttempts)
        hsame.failedAttempts hsame.lockout
    case guarded => exact h.guarded_step (fun hacc => hacc.1 hkey) _
  | issued subfunction key haccess hodd =>
    have hkey := sentKey_of_odd haccess hodd
    constructor
    case drawn => exact fun _ => .inl ⟨subfunction, key, _, rfl, haccess, hodd, rfl⟩
    case knows => exact hknows.neither (mark_neither hkey rfl) rfl rfl
    case guarded => exact h.guarded_step (fun hacc => hacc.1 hkey) _
  | @accepted rand data subfunction key hkey hright =>
    obtain ⟨b₀, b₁, b₂, b₃, rest, rfl, hword⟩ := validateSecurityAccess_iff.mp hright
    obtain ⟨hdrawn, hover⟩ := hok.1 _ hkey ⟨b₀, b₁, b₂, b₃, rest, rfl, hword⟩
    have hsome : (Call.request rand data).sentKey ≠ none := by
      rw [hkey]
      exact nofun
    have hends : mark ⟨x.2, (delta, .request rand data), true,
        (x.2.1 + delta, x.2.2.accept subfunction)⟩ = .ends := by
      rw [mark, hkey]
      rfl
    constructor
    case drawn => exact h.drawn_step (not_issued fun _ => .inl hsome) rfl
    case knows => exact .zero rfl (.of_ends (hknows.over hover) hends)
    case guarded =>
      refine ⟨⟨fun _ => ?_, h.guarded.answers⟩, ⟨fun _ => hknows.over hover, h.guarded.lockout⟩⟩
      exact ⟨x.2.2.seed, ⟨_, _, _, _, _, hkey, hword, rfl⟩, h.drawn hdrawn⟩
  | @rejected rand data key hkey hwrong =>
    have hsome : (Call.request rand data).sentKey ≠ none := by
      rw [hkey]
      exact nofun
    have hmark : mark ⟨x.2, (delta, .request rand data), false,
        (x.2.1 + delta, x.2.2.reject (Timer.ticks (x.2.1 + delta)))⟩ = .wrong := by
      rw [mark, hkey]
      rfl
    constructor
    case drawn =>
      refine h.drawn_step (not_issued fun _ => .inl hsome) ?_
      simp only [reject]
      split <;> rfl
    case knows =>
      have hnot : ¬ KeyTo x.2.2.seed key := fun h =>
        Bool.false_ne_true (hwrong.symm.trans (validateSecurityAccess_iff.mpr h))
      exact hknows.reject (hok.2.1 key hkey hnot) hmark rfl
    case guarded => exact h.guarded_step (fun hacc => Bool.false_ne_true hacc.2) _
  | processed =>
    constructor
    case drawn => exact h.drawn_step (not_issued fun hne => absurd rfl hne) (process_eq _ _).1
    case knows => exact hknows.process (hok.2.2 rfl)
    case guarded => exact h.guarded_step (fun hacc => absurd rfl hacc.1) _

end

theorem step_total (now : Nat) (s : SessionManager) (call : Call) :
    ∃ s' out, s.step now call = some (s', out) := by
  cases call <;> exact ⟨_, _, rfl⟩

/-- **Keys.** In every orderly run on a new manager, a key that is accepted answers the last
seed, and none is accepted in the ten seconds after three wrong ones. -/
theorem keys_guarded (config : SessionConfig) (t₀ : Nat) (calls : List (Nat × Call))
    (hok : Along (logged clocked) Orderly ([], (t₀, create config)) calls) :
    Throughout (logged clocked) Guarded ([], (t₀, create config)) calls := by
  refine throughout_logged Inv (fun _ h => h.guarded) (fun t => step_total (Timer.ticks t))
    ?_ calls ?_ hok
  · intro x i s' out h hnow hstep
    exact h.step (moves hstep) hnow
  · refine ⟨?_, .zero rfl ⟨rfl, nofun⟩, trivial, trivial⟩
    rintro ⟨e, hmem, -⟩
    cases hmem

/-- Three wrong keys, the end of the lockout, and then a seed and its key. -/
theorem keys_guarded_after_lockout :
    Throughout (logged clocked) Guarded ([], (0, create ⟨5000, true, true, true⟩))
      [(1, .request 7 [0x27, 1]), (1, .request 0 [0x27, 2, 1, 2, 3, 4]),
        (1, .request 0 [0x27, 2, 1, 2]), (1, .request 0 [0x27, 2, 0, 0, 0, 0]), (10000, .process),
        (1, .request 0 [0x27, 1]), (1, .request 0 [0x27, 2, 0x12, 0x34, 0x56, 0x78])] := by
  refine keys_guarded _ 0 _ ((along_cons_of rfl).mpr ⟨⟨nofun, nofun, nofun⟩, ?_⟩)
  iterate 3
    refine (along_cons_of rfl).mpr ⟨⟨?_, fun _ _ _ => by decide, nofun⟩, ?_⟩
    · rintro key ⟨⟩ hkey
      exact absurd hkey (by decide)
  refine (along_cons_of rfl).mpr ⟨⟨nofun, nofun, fun _ _ h => absurd h (by decide)⟩, ?_⟩
  refine (along_cons_of rfl).mpr ⟨⟨nofun, nofun, nofun⟩, ?_⟩
  refine (along_cons_of rfl).mpr ⟨⟨fun key _ _ => ⟨?_, ?_⟩, fun _ _ _ => by decide, nofun⟩, trivial⟩
  · exact ⟨_, .head _, 0, 1, [], _, rfl, rfl, rfl, rfl⟩
  · exact fun hge => absurd hge (by decide)

/-- The key to the seed a new manager has, with no seed asked for. -/
theorem key_without_seed :
    ¬ Throughout (logged clocked) Guarded ([], (0, create ⟨5000, true, true, true⟩))
      [(1, .request 0 [0x27, 2, 0x12, 0x34, 0x56, 0x78])] := by
  intro h
  obtain ⟨seed, -, hsince⟩ := (h.last rfl).answers.1 ⟨by decide, rfl⟩
  exact hsince

/-! ## Sessions and the lock -/

/-- The session is the default one or one that is enabled, and the lock is closed as long as no
other than the default session is active. -/
structure Confined (s : SessionManager) : Prop where
  session : s.current = 0x01 ∨ s.current ∈ [0x02, 0x03, 0x04] ∧ s.allowed s.current = true
  lock : ¬ (s.sessionActive = true ∧ s.current ≠ 0x01) → s.locked = true ∧ s.level = 0

/-- A session that is granted has a name, and is not the default one unless the lock is closed; a
key is right only while another session is active. -/
def Within (s : SessionManager) : Call → Prop
  | .request _ (service :: data) =>
    (service = 0x10 → ∀ requested, data = [requested] → s.allowed requested = true →
      requested ∈ [0x02, 0x03, 0x04] ∨ requested = 0x01 ∧ s.locked = true ∧ s.level = 0) ∧
    (service = 0x27 → ∀ subfunction key, data = subfunction :: key → ¬ subfunction % 2 = 1 →
      s.validateSecurityAccess key = true → s.sessionActive = true ∧ s.current ≠ 0x01)
  | _ => True

section

variable {s : SessionManager} {now : Nat}

variable (h : Confined s)
include h

theorem Confined.sessionControl (data : List UInt8) :
    Confined (s.sessionControl now data).1 ↔ ∀ requested, data = [requested] →
      s.allowed requested = true →
        requested ∈ [0x02, 0x03, 0x04] ∨ requested = 0x01 ∧ s.locked = true ∧ s.level = 0 := by
  unfold SessionManager.sessionControl
  split
  case h_1 requested =>
    split
    case isTrue hallowed =>
      constructor
      · rintro ⟨hsession, hlock⟩ _ ⟨⟩ -
        rcases hsession with rfl | hsession
        · exact .inr ⟨rfl, hlock (by simp)⟩
        · exact .inl hsession.1
      · intro hnamed
        rcases hnamed requested rfl hallowed with hnamed | ⟨rfl, hlock⟩
        · exact ⟨.inr ⟨hnamed, hallowed⟩, fun hidle =>
            absurd hidle (by simp; rintro rfl; simp at hnamed)⟩
        · exact ⟨.inl rfl, fun _ => hlock⟩
    case isFalse hrefused =>
      exact iff_of_true h (by rintro _ ⟨⟩ hallowed; exact absurd hallowed hrefused)
  case h_2 hother => exact iff_of_true h fun requested hdata => absurd hdata (hother requested)

theorem Confined.securityAccess (rand : UInt32) (data : List UInt8) :
    Confined (s.securityAccess now rand data).1 ↔ ∀ subfunction key, data = subfunction :: key →
      ¬ subfunction % 2 = 1 → s.validateSecurityAccess key = true →
        s.sessionActive = true ∧ s.current ≠ 0x01 := by
  cases data with
  | nil => exact iff_of_true h nofun
  | cons subfunction key =>
    simp only [SessionManager.securityAccess]
    split
    case isTrue hodd =>
      refine iff_of_true ?_ (by rintro _ _ ⟨⟩ heven; exact absurd hodd heven)
      split
      · exact h
      · exact ⟨h.session, h.lock⟩
    case isFalse =>
      split
      case isTrue hright =>
        constructor
        · rintro ⟨-, hlock⟩ _ _ ⟨⟩ - -
          by_contra hidle
          exact absurd (hlock hidle).1 Bool.false_ne_true
        · intro hactive
          exact ⟨h.session, fun hidle => absurd (hactive _ _ rfl ‹_› hright) hidle⟩
      case isFalse hwrong =>
        refine iff_of_true ?_ (by rintro _ _ ⟨⟩ - hright; exact absurd hright hwrong)
        unfold SessionManager.reject
        dsimp only
        split
        all_goals exact ⟨h.session, h.lock⟩

theorem Confined.process : Confined (s.process now) := by
  have htimeout : Confined (s.handleSessionTimeout now) := by
    unfold handleSessionTimeout
    split
    · exact ⟨.inl rfl, fun _ => ⟨rfl, rfl⟩⟩
    · exact h
  unfold SessionManager.process
  dsimp only
  split
  · exact ⟨htimeout.session, htimeout.lock⟩
  · exact htimeout

theorem Confined.next {call : Call} {s' : SessionManager} {out : Bool}
    (hstep : s.step now call = some (s', out)) : Within s call ↔ Confined s' := by
  cases call with
  | process =>
    cases hstep
    exact iff_of_true trivial h.process
  | request rand data =>
    obtain ⟨rfl, -⟩ := eq_of_some hstep
    cases data with
    | nil => exact iff_of_true trivial h
    | cons service data =>
      simp only [handleRequest]
      split
      case isTrue hcontrol =>
        rw [h.sessionControl]
        exact ⟨fun hok => hok.1 hcontrol, fun hok => ⟨fun _ => hok, by rw [hcontrol]; nofun⟩⟩
      case isFalse hcontrol =>
        split
        case isTrue haccess =>
          rw [h.securityAccess]
          exact ⟨fun hok => hok.2 haccess, fun hok =>
            ⟨fun hno => absurd hno hcontrol, fun _ => hok⟩⟩
        case isFalse haccess =>
          exact iff_of_true ⟨fun hno => absurd hno hcontrol, fun hno => absurd hno haccess⟩ h

end

/-- **Sessions and the lock, over every run.** The session has a name the configuration allows and
the lock is closed without it, exactly as long as every call is `Within`. -/
theorem confined_iff (config : SessionConfig) (t₀ : Nat) (calls : List (Nat × Call)) :
    Throughout clocked (fun x => Confined x.2) (t₀, create config) calls ↔
      Along clocked (fun x i => Within x.2 i.2) (t₀, create config) calls := by
  refine throughout_iff_of_total ?_ ?_ calls ⟨.inl rfl, fun _ => ⟨rfl, rfl⟩⟩
  · intro x i
    obtain ⟨s', out, hstep⟩ := step_total (Timer.ticks (x.1 + i.1)) x.2 i.2
    exact ⟨_, out, timed_eq hstep⟩
  · intro x i x' out h hstep
    obtain ⟨s', hs, rfl⟩ := timed_iff.mp hstep
    exact h.next hs

/-- Session 5 is nobody's, and is granted; and the key to the seed a new manager has opens the lock
in the default session. -/
theorem session_without_name :
    ¬ Throughout clocked (fun x => Confined x.2) (0, create ⟨5000, true, true, true⟩)
        [(1, .request 0 [0x10, 0x05])] ∧
      ¬ Throughout clocked (fun x => Confined x.2) (0, create ⟨5000, true, true, true⟩)
        [(1, .request 0 [0x27, 2, 0x12, 0x34, 0x56, 0x78])] := by
  constructor
  · intro h
    exact absurd (h.last rfl).session (by decide)
  · intro h
    exact absurd (h.last rfl).lock (by decide)

end SessionManager

end Cant.Diagnostics
