/-
# `SecurityManager` — the levels of a unit (`security_manager.c`)

At most sixteen levels, each with a `SecurityStateContext`, in a table that is searched from
the front and closed up on removal. `Security_Manager_Init` copies a configuration that may
name a level twice; the second entry is out of sight, and locked, until the first one is
removed.

The main result is `levels_sound`: an unlocked level was unlocked by the key to its last
seed, a seed is good for one key, and the current level is an unlocked one.
-/
import Cant.Lib.Keyed
import Cant.Lib.Word
import Cant.Diagnostic.SecurityState

namespace Cant.Diagnostic

open Run Past Word List Option

structure SecurityLevelEntry where
  level : UInt8
  state : SecurityStateContext

def maxSecurityLevels : Nat := 16

/-- The manager; a callback is either set or not. -/
structure SecurityManager where
  securityCallback : Bool
  violationCallback : Bool
  levels : List SecurityLevelEntry
  fits : levels.length ≤ maxSecurityLevels
  currentLevel : UInt8
  initialized : Bool

inductive SecurityViolationType where
  | invalidKey | attemptLimit | delayNotExpired

inductive SecurityEvent where
  | granted (level : UInt8)
  | violation (level : UInt8) (kind : SecurityViolationType)

/-- What a call returns, the seed it writes and the callbacks it calls. -/
structure SecurityAnswer where
  result : Bool
  seed : Option UInt32
  events : List SecurityEvent

structure KeyBuffer where
  bytes : List UInt8
  length : Nat
  readable : length ≤ bytes.length

/-- `memcpy(&key_value, key, sizeof(uint32_t))`. -/
def KeyBuffer.value (key : KeyBuffer) : UInt32 :=
  word32 (key.bytes.getD 0 0) (key.bytes.getD 1 0) (key.bytes.getD 2 0) (key.bytes.getD 3 0)

namespace SecurityManager

def context (s : SecurityManager) (level : UInt8) : Option SecurityStateContext :=
  (Keyed.lookup SecurityLevelEntry.level level s.levels).map (·.state)

def setContext (s : SecurityManager) (level : UInt8) (c : SecurityStateContext) : SecurityManager :=
  { s with
    levels := Keyed.update SecurityLevelEntry.level level (fun e => { e with state := c }) s.levels
    fits := by
      rw [Keyed.length_update]
      exact s.fits }

/-- `Security_Manager_Init`: the levels of the configuration, each with a reading of the
clock. -/
def init (securityCallback violationCallback : Bool) (levels : List (UInt8 × UInt32)) :
    SecurityManager where
  securityCallback := securityCallback
  violationCallback := violationCallback
  levels := (levels.take maxSecurityLevels).map fun l => ⟨l.1, .init l.1 l.2⟩
  fits := by
    rw [length_map]
    exact length_take_le _ _
  currentLevel := 0
  initialized := true

def violation (s : SecurityManager) (level : UInt8) (kind : SecurityViolationType) :
    List SecurityEvent :=
  if s.violationCallback then [.violation level kind] else []

/-- A call that returns `false` and does nothing. -/
def refused (s : SecurityManager) : SecurityManager × SecurityAnswer := (s, ⟨false, none, []⟩)

def requestSeed (s : SecurityManager) (level : UInt8) (length : Nat) (now stamp : UInt32) :
    SecurityManager × SecurityAnswer :=
  if ¬ s.initialized ∨ length < 4 then s.refused
  else
    match s.context level with
    | none => s.refused
    | some c =>
      let r := c.requestSeed now stamp
      (s.setContext level r.1, ⟨r.2.isSome, r.2,
          if r.2.isNone ∧ r.1.state = .delayActive then s.violation level .delayNotExpired else []⟩)

/-- What `Security_Manager_ValidateKey` makes of the verdict on a key. -/
def concluded (s : SecurityManager) (level : UInt8) (r : SecurityStateContext × Bool) :
    SecurityManager × SecurityAnswer :=
  if r.2 then
    ({ s.setContext level r.1 with currentLevel := level },
      ⟨true, none, if s.securityCallback then [.granted level] else []⟩)
  else
    (s.setContext level r.1, ⟨false, none, s.violation level
      (if r.1.state = .delayActive then .attemptLimit else .invalidKey)⟩)

def validateKey (s : SecurityManager) (level : UInt8) (key : KeyBuffer) (now : UInt32) :
    SecurityManager × SecurityAnswer :=
  if ¬ s.initialized ∨ key.length < 4 then s.refused
  else
    match s.context level with
    | none => s.refused
    | some c => s.concluded level (c.validateKey now key.value)

def isLevelUnlocked (s : SecurityManager) (level : UInt8) : Bool :=
  s.initialized && (s.context level).any (·.state = .unlocked)

def forget (s : SecurityManager) (level : UInt8) : SecurityManager :=
  { s with currentLevel := if s.currentLevel = level then 0 else s.currentLevel }

def lockLevel (s : SecurityManager) (level : UInt8) : SecurityManager × SecurityAnswer :=
  if ¬ s.initialized then s.refused
  else
    match s.context level with
    | none => s.refused
    | some c => ((s.setContext level c.lock).forget level, ⟨true, none, []⟩)

def getCurrentLevel (s : SecurityManager) : UInt8 := if s.initialized then s.currentLevel else 0

/-- `Security_Manager_AddSecurityLevel`, with a reading of the clock. -/
def addSecurityLevel (s : SecurityManager) (level : UInt8) (now : UInt32) :
    SecurityManager × SecurityAnswer :=
  if ¬ s.initialized then s.refused
  else if (s.context level).isSome then s.refused
  else if hspace : s.levels.length ≥ maxSecurityLevels then s.refused
  else
    ({ s with
      levels := s.levels ++ [⟨level, .init level now⟩]
      fits := by
        rw [length_append, length_singleton]
        exact Nat.lt_of_not_le hspace }, ⟨true, none, []⟩)

def removeSecurityLevel (s : SecurityManager) (level : UInt8) : SecurityManager × SecurityAnswer :=
  if ¬ s.initialized then s.refused
  else if (s.context level).isNone then s.refused
  else
    ({ s with
      levels := Keyed.remove SecurityLevelEntry.level level s.levels
      fits := Nat.le_trans (Keyed.remove_sublist s.levels).length_le s.fits }.forget level,
      ⟨true, none, []⟩)

/-- `Security_Manager_ProcessTimeout`; every level reads the clock for itself. -/
def processTimeout (s : SecurityManager) (now : Nat → UInt32) : SecurityManager × SecurityAnswer :=
  if ¬ s.initialized then s.refused
  else
    ({ s with
      levels := s.levels.mapIdx fun i e => { e with state := (e.state.processTimeout (now i)).1 }
      fits := by
        rw [length_mapIdx]
        exact s.fits }, ⟨true, none, []⟩)

inductive Call where
  | requestSeed (level : UInt8) (length : Nat) (now stamp : UInt32)
  | validateKey (level : UInt8) (key : KeyBuffer) (now : UInt32)
  | lockLevel (level : UInt8)
  | addSecurityLevel (level : UInt8) (now : UInt32)
  | removeSecurityLevel (level : UInt8)
  | processTimeout (now : Nat → UInt32)

def step (s : SecurityManager) : Call → Option (SecurityManager × SecurityAnswer)
  | .requestSeed level length now stamp => some (s.requestSeed level length now stamp)
  | .validateKey level key now => some (s.validateKey level key now)
  | .lockLevel level => some (s.lockLevel level)
  | .addSecurityLevel level now => some (s.addSecurityLevel level now)
  | .removeSecurityLevel level => some (s.removeSecurityLevel level)
  | .processTimeout now => some (s.processTimeout now)

/-! ## What the log shows -/

abbrev Entry : Type := Taken SecurityManager Call SecurityAnswer

abbrev Logged : Type := List Entry × SecurityManager

def Issues (level : UInt8) (seed : UInt32) (e : Entry) : Prop :=
  (∃ length now stamp, e.input = .requestSeed level length now stamp) ∧ e.output.seed = some seed

def Answers (level : UInt8) (key : UInt32) (e : Entry) : Prop :=
  ∃ buffer now, e.input = .validateKey level buffer now ∧ buffer.value = key ∧
    e.output.result = true

def Tries (level : UInt8) (e : Entry) : Prop :=
  ∃ buffer now, e.input = .validateKey level buffer now ∧ 4 ≤ buffer.length ∧
    ∃ c, e.pre.context level = some c ∧ c.state = .seedSent

def Drops (level : UInt8) (e : Entry) : Prop :=
  (e.input = .lockLevel level ∨ e.input = .removeSecurityLevel level) ∧ e.output.result = true

/-- Neither is there a new seed for the level, nor is it locked or removed. -/
structure Idle (level : UInt8) (e : Entry) : Prop where
  issues : ∀ seed, ¬ Issues level seed e
  drops : ¬ Drops level e

/-- **What the levels stand for.** -/
structure Sound (x : Logged) : Prop where
  /-- An unlocked level: the key to its last seed was accepted, and it was not locked or
  removed since. -/
  unlocked : ∀ level, x.2.isLevelUnlocked level = true → ∃ seed, Since (Idle level)
    (fun e past => Answers level (SecurityStateContext.calculateKey seed) e ∧
      Since (Idle level) (fun e _ => Issues level seed e) past) x.1
  /-- A seed is good for one key. -/
  once : ∀ level, Historically (fun e past => Tries level e →
    Since (fun e => ¬ Tries level e) (fun e _ => ∃ seed, Issues level seed e) past) x.1
  /-- A key without a seed is refused, and changes nothing. -/
  untried : Historically (fun e _ => ∀ level buffer now, e.input = .validateKey level buffer now →
    ¬ Tries level e → e.output.result = false ∧ e.post.context = e.pre.context ∧
      e.post.currentLevel = e.pre.currentLevel) x.1
  /-- The current level is an unlocked one. -/
  current : x.2.getCurrentLevel ≠ 0 → x.2.isLevelUnlocked x.2.getCurrentLevel = true

/-! ## The table -/

section

variable {s : SecurityManager} {level level' : UInt8} {c c' : SecurityStateContext}

theorem context_setContext (h : s.context level = some c') :
    (s.setContext level c).context level = some c := by
  have hself : Keyed.lookup SecurityLevelEntry.level level (s.setContext level c).levels =
      (Keyed.lookup SecurityLevelEntry.level level s.levels).map fun e => { e with state := c } :=
    Keyed.lookup_update_self (f := fun e => { e with state := c }) (fun _ h => h) s.levels
  unfold context at h ⊢
  rw [hself]
  cases hlook : Keyed.lookup SecurityLevelEntry.level level s.levels with
  | none => rw [hlook] at h; cases h
  | some e => rfl

theorem context_setContext_ne (hne : level' ≠ level) :
    (s.setContext level c).context level' = s.context level' := by
  have hother : Keyed.lookup SecurityLevelEntry.level level' (s.setContext level c).levels =
      Keyed.lookup SecurityLevelEntry.level level' s.levels :=
    Keyed.lookup_update_ne (f := fun e => { e with state := c }) (fun _ => rfl) hne s.levels
  unfold context
  rw [hother]

theorem context_setContext_same (h : s.context level = some c) (level' : UInt8) :
    (s.setContext level c).context level' = s.context level' := by
  by_cases heq : level' = level
  · rw [heq, context_setContext h, h]
  · exact context_setContext_ne heq

theorem isLevelUnlocked_iff (hinit : s.initialized = true) :
    s.isLevelUnlocked level = true ↔ ∃ c, s.context level = some c ∧ c.state = .unlocked := by
  simp [isLevelUnlocked, hinit, Option.any_eq_true]

end

/-! ## What a call does to a level -/

inductive Effect (level : UInt8) (e : Entry) : Prop
  | issued (seed : UInt32) (h : Issues level seed e) (hdrops : ¬ Drops level e)
      (htries : ¬ Tries level e)
      (hpost : ∀ c, e.post.context level = some c → c.state = .seedSent ∧ c.seed = seed)
  | answered (c : SecurityStateContext) (hpre : e.pre.context level = some c)
      (hsent : c.state = .seedSent)
      (h : Answers level (SecurityStateContext.calculateKey c.seed) e) (hidle : Idle level e)
      (htries : Tries level e) (hpost : ∀ c, e.post.context level = some c → c.state = .unlocked)
  | missed (c : SecurityStateContext) (hpre : e.pre.context level = some c)
      (hsent : c.state = .seedSent) (hidle : Idle level e) (htries : Tries level e)
      (hpost : ∀ c, e.post.context level = some c → c.state ≠ .seedSent ∧ c.state ≠ .unlocked)
  | dropped (h : Drops level e) (hissues : ∀ seed, ¬ Issues level seed e) (htries : ¬ Tries level e)
      (hpost : ∀ c, e.post.context level = some c → c.state ≠ .seedSent ∧ c.state ≠ .unlocked)
  | kept (hidle : Idle level e) (htries : ¬ Tries level e)
      (hpost : ∀ c, e.post.context level = some c → c.state = .seedSent ∨ c.state = .unlocked →
        e.pre.context level = some c)

def Call.level : Call → Option UInt8
  | .requestSeed level _ _ _ | .validateKey level _ _ | .lockLevel level
  | .addSecurityLevel level _ | .removeSecurityLevel level => some level
  | .processTimeout _ => none

def Call.takesKey : Call → Bool
  | .validateKey _ _ _ => true
  | _ => false

def Call.drops : Call → Option UInt8
  | .lockLevel level | .removeSecurityLevel level => some level
  | _ => none

section

variable {level : UInt8} {e : Entry}

theorem idle_of_ne (h : e.input.level ≠ some level) : Idle level e ∧ ¬ Tries level e := by
  refine ⟨⟨fun seed hissues => ?_, fun hdrops => ?_⟩, fun htries => ?_⟩
  · obtain ⟨⟨_, _, _, hinput⟩, -⟩ := hissues
    exact h (by rw [hinput]; rfl)
  · obtain ⟨hinput | hinput, -⟩ := hdrops
    all_goals exact h (by rw [hinput]; rfl)
  · obtain ⟨_, _, hinput, -⟩ := htries
    exact h (by rw [hinput]; rfl)

theorem not_issues (hseed : e.output.seed = none) (seed : UInt32) : ¬ Issues level seed e := by
  rintro ⟨-, hissued⟩
  exact some_ne_none seed (hissued.symm.trans hseed)

theorem idle_of_refused (hseed : e.output.seed = none) (hresult : e.output.result = false) :
    Idle level e := by
  refine ⟨not_issues hseed, ?_⟩
  rintro ⟨-, htrue⟩
  cases hresult.symm.trans htrue

end

/-- A call of an initialised manager does one of these things. -/
inductive Moves (s : SecurityManager) : Call → SecurityManager → SecurityAnswer → Prop
  | refused {call : Call} (htries : ∀ level out s', ¬ Tries level ⟨s, call, out, s'⟩) :
      Moves s call s.refused.1 s.refused.2
  | requested {level : UInt8} {length : Nat} {now stamp : UInt32} {events : List SecurityEvent}
      (c : SecurityStateContext) (hc : s.context level = some c) :
      Moves s (.requestSeed level length now stamp)
        (s.setContext level (c.requestSeed now stamp).1)
        ⟨(c.requestSeed now stamp).2.isSome, (c.requestSeed now stamp).2, events⟩
  | validated {level : UInt8} {key : KeyBuffer} {now : UInt32} (c : SecurityStateContext)
      (hc : s.context level = some c) (hlong : 4 ≤ key.length) :
      Moves s (.validateKey level key now) (s.concluded level (c.validateKey now key.value)).1
        (s.concluded level (c.validateKey now key.value)).2
  | locked {level : UInt8} (c : SecurityStateContext) (hc : s.context level = some c) :
      Moves s (.lockLevel level) ((s.setContext level c.lock).forget level) ⟨true, none, []⟩
  | added {level : UInt8} {now : UInt32} (s' : SecurityManager) (hnew : s.context level = none)
      (hs' : s'.levels = s.levels ++ [⟨level, .init level now⟩])
      (hrest : s'.currentLevel = s.currentLevel ∧ s'.initialized = s.initialized) :
      Moves s (.addSecurityLevel level now) s' ⟨true, none, []⟩
  | removed {level : UInt8} (s' : SecurityManager)
      (hs' : s'.levels = Keyed.remove SecurityLevelEntry.level level s.levels)
      (hrest : s'.currentLevel = s.currentLevel ∧ s'.initialized = s.initialized) :
      Moves s (.removeSecurityLevel level) (s'.forget level) ⟨true, none, []⟩
  | timed {now : Nat → UInt32} (s' : SecurityManager)
      (hs' : s'.levels =
        s.levels.mapIdx fun i e => { e with state := (e.state.processTimeout (now i)).1 })
      (hrest : s'.currentLevel = s.currentLevel ∧ s'.initialized = s.initialized) :
      Moves s (.processTimeout now) s' ⟨true, none, []⟩

section

variable {s s' : SecurityManager} {call : Call} {out : SecurityAnswer} {level l : UInt8}

theorem not_tries (h : call.takesKey = false) : ¬ Tries l ⟨s, call, out, s'⟩ := by
  rintro ⟨key, now, hcall, -⟩
  have hcall' : call = .validateKey l key now := hcall
  rw [hcall'] at h
  exact Bool.false_ne_true h.symm

theorem Moves.of_no_key (h : call.takesKey = false) : Moves s call s.refused.1 s.refused.2 :=
  .refused fun _ _ _ => not_tries h

theorem moves (hinit : s.initialized = true) (hstep : s.step call = some (s', out)) :
    Moves s call s' out := by
  cases call with
  | requestSeed level length now stamp =>
    obtain ⟨rfl, rfl⟩ := eq_of_some hstep
    unfold requestSeed
    split
    · exact .of_no_key rfl
    · split
      · exact .of_no_key rfl
      · exact .requested _ ‹_›
  | validateKey level key now =>
    obtain ⟨rfl, rfl⟩ := eq_of_some hstep
    simp only [validateKey, hinit, not_true_eq_false, false_or]
    split
    case isTrue hshort =>
      refine .refused fun _ _ _ htries => ?_
      obtain ⟨_, _, ⟨⟩, hlong, -⟩ := htries
      omega
    case isFalse hlong =>
      split
      case h_1 hnone =>
        refine .refused fun _ _ _ htries => ?_
        obtain ⟨_, _, ⟨⟩, -, c, hc, -⟩ := htries
        exact some_ne_none c (hc.symm.trans hnone)
      case h_2 c hc => exact .validated c hc (Nat.le_of_not_lt hlong)
  | lockLevel level =>
    obtain ⟨rfl, rfl⟩ := eq_of_some hstep
    unfold lockLevel
    split
    · exact .of_no_key rfl
    · split
      · exact .of_no_key rfl
      · exact .locked _ ‹_›
  | addSecurityLevel level now =>
    obtain ⟨rfl, rfl⟩ := eq_of_some hstep
    unfold addSecurityLevel
    split
    · exact .of_no_key rfl
    · split
      · exact .of_no_key rfl
      case isFalse hnew =>
        split
        · exact .of_no_key rfl
        · rw [not_isSome_iff_eq_none] at hnew
          exact .added _ hnew rfl ⟨rfl, rfl⟩
  | removeSecurityLevel level =>
    obtain ⟨rfl, rfl⟩ := eq_of_some hstep
    unfold removeSecurityLevel
    split
    · exact .of_no_key rfl
    · split
      · exact .of_no_key rfl
      · exact .removed _ rfl ⟨rfl, rfl⟩
  | processTimeout now =>
    obtain ⟨rfl, rfl⟩ := eq_of_some hstep
    unfold processTimeout
    split
    · exact .of_no_key rfl
    · exact .timed _ rfl ⟨rfl, rfl⟩

theorem effect_other (hlevel : call.level ≠ some l) (hsame : s'.context l = s.context l) :
    Effect l ⟨s, call, out, s'⟩ := by
  obtain ⟨hidle, htries⟩ : Idle l ⟨s, call, out, s'⟩ ∧ ¬ Tries l ⟨s, call, out, s'⟩ :=
    idle_of_ne hlevel
  exact .kept hidle htries fun c hc _ => hsame.symm.trans hc

theorem effect_refused (hseed : out.seed = none) (hresult : out.result = false)
    (hsame : s'.context l = s.context l) (htries : ¬ Tries l ⟨s, call, out, s'⟩) :
    Effect l ⟨s, call, out, s'⟩ :=
  .kept (idle_of_refused hseed hresult) htries fun _ hc _ => hsame.symm.trans hc

theorem not_drops (h : call.drops ≠ some l) : ¬ Drops l ⟨s, call, out, s'⟩ := by
  rintro ⟨hcall | hcall, -⟩
  all_goals exact h (congrArg Call.drops hcall)

variable {now : UInt32} {c : SecurityStateContext}

theorem effect_requestSeed {length : Nat} {stamp : UInt32} {events : List SecurityEvent}
    (hc : s.context level = some c) :
    Effect l ⟨s, .requestSeed level length now stamp,
      ⟨(c.requestSeed now stamp).2.isSome, (c.requestSeed now stamp).2, events⟩,
      s.setContext level (c.requestSeed now stamp).1⟩ := by
  rw [SecurityStateContext.requestSeed_eq]
  by_cases hready : c.Ready now
  · rw [if_pos hready]
    by_cases hl : level = l
    · subst hl
      refine .issued (c.send stamp).seed ⟨⟨_, _, _, rfl⟩, rfl⟩ (not_drops (some_ne_none _).symm)
        (not_tries rfl) ?_
      intro c' hc'
      cases (context_setContext hc).symm.trans hc'
      exact ⟨rfl, rfl⟩
    · exact effect_other (fun heq => hl (Option.some.inj heq)) (context_setContext_ne (Ne.symm hl))
  · rw [if_neg hready]
    exact effect_refused rfl rfl (context_setContext_same hc l) (not_tries rfl)

theorem effect_validateKey {key : KeyBuffer} (hc : s.context level = some c)
    (hlong : 4 ≤ key.length) :
    Effect l ⟨s, .validateKey level key now, (s.concluded level (c.validateKey now key.value)).2,
      (s.concluded level (c.validateKey now key.value)).1⟩ := by
  have hvalidate := c.validateKey_eq now key.value
  cases hcompares : c.compares key.value with
  | none =>
    rw [hcompares] at hvalidate
    rw [hvalidate]
    refine effect_refused rfl rfl (context_setContext_same hc l) ?_
    rintro ⟨_, _, ⟨⟩, -, c', hc', hsent⟩
    cases hc.symm.trans hc'
    rw [SecurityStateContext.compares, if_pos hsent] at hcompares
    cases hcompares
  | some right =>
    obtain ⟨hsent, hright⟩ := SecurityStateContext.compares_eq_some hcompares
    by_cases hl : level = l
    swap
    · refine effect_other (fun heq => hl (Option.some.inj heq)) ?_
      unfold concluded
      split <;> exact context_setContext_ne (Ne.symm hl)
    subst hl
    have htries : ∀ out s', Tries level ⟨s, .validateKey level key now, out, s'⟩ :=
      fun _ _ => ⟨key, now, rfl, hlong, c, hc, hsent⟩
    have hidle : ∀ out s', out.seed = none → Idle level ⟨s, .validateKey level key now, out, s'⟩ :=
      fun out s' hseed =>
        ⟨not_issues hseed, not_drops (some_ne_none _).symm⟩
    rw [hcompares] at hvalidate
    rw [hvalidate]
    cases right with
    | true =>
      refine .answered c hc hsent ⟨key, now, rfl, hright.mp rfl, rfl⟩ (hidle _ _ rfl)
        (htries _ _) fun c' hc' => ?_
      cases (context_setContext hc).symm.trans hc'
      rfl
    | false =>
      refine .missed c hc hsent (hidle _ _ rfl) (htries _ _) fun c' hc' => ?_
      cases (context_setContext hc).symm.trans hc'
      exact SecurityStateContext.reject_state c now

def Hidden (s : SecurityManager) : Prop :=
  Keyed.Shadowed SecurityLevelEntry.level (fun e => e.state.state = .locked) s.levels

theorem context_timed {now : Nat → UInt32}
    (hs' : s'.levels = s.levels.mapIdx fun i e =>
      { e with state := (e.state.processTimeout (now i)).1 })
    (l : UInt8) : ∃ i, s'.context l = (s.context l).map fun c => (c.processTimeout (now i)).1 := by
  have hkey : ∀ i (e : SecurityLevelEntry),
      SecurityLevelEntry.level { e with state := (e.state.processTimeout (now i)).1 } = e.level :=
    fun _ _ => rfl
  obtain ⟨i, hi⟩ := Keyed.lookup_mapIdx hkey l s.levels
  refine ⟨i, ?_⟩
  rw [context, hs', hi, context, Option.map_map, Option.map_map]
  rfl

theorem effect (hhidden : s.Hidden) (h : Moves s call s' out) (l : UInt8) :
    Effect l ⟨s, call, out, s'⟩ := by
  cases h with
  | refused htries => exact effect_refused rfl rfl rfl (htries _ _ _)
  | requested c hc => exact effect_requestSeed hc
  | validated c hc hlong => exact effect_validateKey hc hlong
  | @locked level c hc =>
    by_cases hl : level = l
    · subst hl
      refine .dropped ⟨.inl rfl, rfl⟩ (not_issues rfl)
        (not_tries rfl) ?_
      intro c' hc'
      cases (context_setContext hc).symm.trans hc'
      exact SecurityStateContext.locked_state rfl
    · exact effect_other (fun heq => hl (Option.some.inj heq)) (context_setContext_ne (Ne.symm hl))
  | added s' hnew hs' =>
    refine .kept ⟨not_issues rfl, not_drops (some_ne_none _).symm⟩
      (not_tries rfl) ?_
    intro c hc hstate
    -- A new entry is locked, so a level that is not was there before.
    simp only [context, hs', Keyed.lookup_append_singleton] at hc
    cases hlook : Keyed.lookup SecurityLevelEntry.level l s.levels with
    | some e =>
      rw [hlook] at hc
      exact (congrArg (Option.map _) hlook).trans hc
    | none =>
      rw [hlook] at hc
      split at hc
      · cases hc
        obtain ⟨hsent, hunlocked⟩ :=
          SecurityStateContext.locked_state (c := SecurityStateContext.init _ _) rfl
        rcases hstate with hstate | hstate
        · exact absurd hstate hsent
        · exact absurd hstate hunlocked
      · cases hc
  | @removed level s' hs' =>
    have hlook : ∀ l, (s'.forget level).context l =
        (Keyed.lookup SecurityLevelEntry.level l (Keyed.remove SecurityLevelEntry.level level
          s.levels)).map (·.state) := fun l => by rw [← hs']; rfl
    by_cases hl : level = l
    · subst hl
      refine .dropped ⟨.inr rfl, rfl⟩ (not_issues rfl)
        (not_tries rfl) ?_
      intro c hc
      obtain ⟨e, he, rfl⟩ := map_eq_some_iff.mp ((hlook level).symm.trans hc)
      exact SecurityStateContext.locked_state (hhidden.lookup_remove he)
    · refine effect_other (fun heq => hl (Option.some.inj heq)) ((hlook l).trans ?_)
      exact congrArg (Option.map _) (Keyed.lookup_remove_ne (Ne.symm hl) s.levels)
  | @timed now s' hs' =>
    refine .kept ⟨not_issues rfl, not_drops (some_ne_none _).symm⟩
      (not_tries rfl) ?_
    intro c hc hstate
    obtain ⟨i, hi⟩ := context_timed hs' l
    obtain ⟨c₀, hc₀, rfl⟩ := map_eq_some_iff.mp (hi.symm.trans hc)
    rw [SecurityStateContext.processTimeout_state hstate]
    exact hc₀

/-! ## The table and the current level -/

theorem Hidden.setContext (h : s.Hidden) (c : SecurityStateContext) :
    (s.setContext level c).Hidden :=
  Keyed.Shadowed.update (k := level) (f := fun (e : SecurityLevelEntry) => { e with state := c })
    (fun _ => rfl) h

section

variable (hmoves : Moves s call s' out)
include hmoves

theorem Moves.hidden (h : s.Hidden) : s'.Hidden := by
  cases hmoves with
  | refused => exact h
  | requested | locked => exact h.setContext _
  | validated =>
    unfold concluded
    split <;> exact h.setContext _
  | added s' hnew hs' =>
    unfold Hidden
    rw [hs']
    exact Keyed.Shadowed.append h (map_eq_none_iff.mp hnew)
  | @removed level s' hs' =>
    have hremoved : s'.Hidden := by
      unfold Hidden
      rw [hs']
      exact Keyed.Shadowed.remove h
    exact hremoved
  | @timed now s' hs' =>
    unfold Hidden
    rw [hs']
    refine Keyed.Shadowed.mapIdx (fun _ _ => rfl) (fun i e hlocked => ?_) h
    have hne : e.state.state ≠ .delayActive := by
      rw [hlocked]
      decide
    rw [SecurityStateContext.processTimeout_of_ne hne]
    exact hlocked

theorem Moves.initialized : s'.initialized = s.initialized := by
  cases hmoves with
  | refused | requested | locked => rfl
  | validated =>
    unfold concluded
    split <;> rfl
  | added s' _ _ hrest | removed s' _ hrest | timed s' _ hrest => exact hrest.2

theorem Moves.currentLevel :
    s'.currentLevel = 0 ∨
      (∃ c, s'.context s'.currentLevel = some c ∧ c.state = .unlocked) ∨
      s'.currentLevel = s.currentLevel ∧ ¬ Drops s.currentLevel ⟨s, call, out, s'⟩ := by
  cases hmoves with
  | refused => exact .inr (.inr ⟨rfl, (idle_of_refused rfl rfl).drops⟩)
  | requested => exact .inr (.inr ⟨rfl, not_drops (some_ne_none _).symm⟩)
  | validated c hc hlong =>
    unfold concluded
    split
    case isTrue hright =>
      exact .inr (.inl ⟨_, context_setContext hc, SecurityStateContext.validateKey_unlocks hright⟩)
    case isFalse => exact .inr (.inr ⟨rfl, not_drops (some_ne_none _).symm⟩)
  | @locked level c hc =>
    by_cases heq : s.currentLevel = level
    · exact .inl (if_pos heq)
    · refine .inr (.inr ⟨if_neg heq, not_drops fun hdrops => heq ?_⟩)
      exact (Option.some.inj hdrops).symm
  | added s' _ _ hrest | timed s' _ hrest =>
    exact .inr (.inr ⟨hrest.1, not_drops (some_ne_none _).symm⟩)
  | @removed level s' _ hrest =>
    by_cases heq : s'.currentLevel = level
    · exact .inl (if_pos heq)
    · refine .inr (.inr ⟨(if_neg heq).trans hrest.1, not_drops fun hdrops => heq ?_⟩)
      exact hrest.1.trans (Option.some.inj hdrops).symm

theorem Moves.unlocked (hc : s.context l = some c)
    (hunlocked : c.state = .unlocked) (hdrops : ¬ Drops l ⟨s, call, out, s'⟩) :
    ∃ c', s'.context l = some c' ∧ c'.state = .unlocked := by
  cases hmoves with
  | refused => exact ⟨c, hc, hunlocked⟩
  | @requested level length now stamp events c₀ hc₀ =>
    by_cases hl : l = level
    · subst hl
      cases hc.symm.trans hc₀
      have hnot : ¬ c.Ready now := by
        rw [SecurityStateContext.Ready, hunlocked]
        rintro (⟨⟨⟩⟩ | ⟨⟨⟩, -⟩)
      rw [SecurityStateContext.requestSeed_eq, if_neg hnot]
      exact ⟨c, context_setContext hc, hunlocked⟩
    · exact ⟨c, (context_setContext_ne hl).trans hc, hunlocked⟩
  | @validated level key now c₀ hc₀ =>
    by_cases hl : l = level
    · subst hl
      cases hc.symm.trans hc₀
      have hsame : c.validateKey now key.value = (c, false) := by
        rw [SecurityStateContext.validateKey, hunlocked]
        rfl
      rw [hsame]
      exact ⟨c, context_setContext hc, hunlocked⟩
    · refine ⟨c, Eq.trans ?_ hc, hunlocked⟩
      unfold concluded
      split <;> exact context_setContext_ne hl
  | @locked level c₀ hc₀ =>
    have hl : l ≠ level := by
      rintro rfl
      exact hdrops ⟨.inl rfl, rfl⟩
    exact ⟨c, (context_setContext_ne hl).trans hc, hunlocked⟩
  | added s' hnew hs' =>
    obtain ⟨e, he, rfl⟩ := map_eq_some_iff.mp hc
    refine ⟨e.state, ?_, hunlocked⟩
    rw [context, hs', Keyed.lookup_append_singleton, he]
    rfl
  | @removed level s' hs' =>
    have hl : l ≠ level := by
      rintro rfl
      exact hdrops ⟨.inr rfl, rfl⟩
    refine ⟨c, Eq.trans ?_ hc, hunlocked⟩
    have hlook : (s'.forget level).levels = Keyed.remove SecurityLevelEntry.level level s.levels :=
      hs'
    rw [context, hlook, Keyed.lookup_remove_ne hl]
    rfl
  | @timed now s' hs' =>
    obtain ⟨i, hi⟩ := context_timed hs' l
    have hne : c.state ≠ .delayActive := by
      rw [hunlocked]
      decide
    rw [hc, map_some, SecurityStateContext.processTimeout_of_ne hne] at hi
    exact ⟨c, hi, hunlocked⟩

end

theorem Moves.untried {key : KeyBuffer} (hmoves : Moves s (.validateKey l key now) s' out)
    (htries : ¬ Tries l ⟨s, .validateKey l key now, out, s'⟩) :
    out.result = false ∧ s'.context = s.context ∧ s'.currentLevel = s.currentLevel := by
  cases hmoves with
  | refused => exact ⟨rfl, rfl, rfl⟩
  | validated c hc hlong =>
    have hne : c.state ≠ .seedSent := fun hsent => htries ⟨key, now, rfl, hlong, c, hc, hsent⟩
    have hsame : c.validateKey now key.value = (c, false) := if_pos hne
    rw [hsame]
    exact ⟨rfl, funext (context_setContext_same hc), rfl⟩

/-- The invariant: a seed that is out is the last one issued, and no key was tried since. -/
structure Inv (x : Logged) : Prop where
  initialized : x.2.initialized = true
  hidden : x.2.Hidden
  sent : ∀ level c, x.2.context level = some c → c.state = .seedSent →
    Since (fun e => Idle level e ∧ ¬ Tries level e) (fun e _ => Issues level c.seed e) x.1
  sound : Sound x

variable {x : Logged}

variable (h : Inv x) (hmoves : Moves x.2 call s' out)
include h hmoves

theorem Inv.sent_step (level : UInt8)
    (c : SecurityStateContext) (hc : s'.context level = some c) (hsent : c.state = .seedSent) :
    Since (fun e => Idle level e ∧ ¬ Tries level e) (fun e _ => Issues level c.seed e)
      (⟨x.2, call, out, s'⟩ :: x.1) := by
  cases effect h.hidden hmoves level with
  | issued seed hissues _ _ hpost =>
    rw [(hpost c hc).2]
    exact .inl hissues
  | answered _ _ _ _ _ _ hpost => cases hsent.symm.trans (hpost c hc)
  | missed _ _ _ _ _ hpost | dropped _ _ _ hpost => exact absurd hsent (hpost c hc).1
  | kept hidle htries hpost =>
    exact .inr ⟨⟨hidle, htries⟩, h.sent level c (hpost c hc (.inl hsent)) hsent⟩

theorem Inv.unlocked_step (level : UInt8)
    (hunlocked : s'.isLevelUnlocked level = true) :
    ∃ seed, Since (Idle level)
      (fun e past => Answers level (SecurityStateContext.calculateKey seed) e ∧
        Since (Idle level) (fun e _ => Issues level seed e) past)
          (⟨x.2, call, out, s'⟩ :: x.1) := by
  obtain ⟨c, hc, hstate⟩ :=
    (isLevelUnlocked_iff (hmoves.initialized.trans h.initialized)).mp hunlocked
  cases effect h.hidden hmoves level with
  | issued seed _ _ _ hpost => cases hstate.symm.trans (hpost c hc).1
  | answered c₀ hpre hsent hanswers =>
    have hsince := h.sent level c₀ hpre hsent
    exact ⟨c₀.seed, .inl ⟨hanswers, hsince.mono (fun _ hp => hp.1) fun _ _ hq => hq⟩⟩
  | missed _ _ _ _ _ hpost | dropped _ _ _ hpost => exact absurd hstate (hpost c hc).2
  | kept hidle _ hpost =>
    obtain ⟨seed, hsince⟩ := h.sound.unlocked level
      ((isLevelUnlocked_iff h.initialized).mpr ⟨c, hpost c hc (.inr hstate), hstate⟩)
    exact ⟨seed, .inr ⟨hidle, hsince⟩⟩

theorem Inv.current_step (hne : s'.currentLevel ≠ 0) :
    s'.isLevelUnlocked s'.currentLevel = true := by
  rw [isLevelUnlocked_iff (hmoves.initialized.trans h.initialized)]
  rcases hmoves.currentLevel with hzero | hnew | ⟨hsame, hdrops⟩
  · exact absurd hzero hne
  · exact hnew
  · have hold := h.sound.current
    rw [getCurrentLevel, h.initialized, isLevelUnlocked_iff h.initialized, ← hsame] at hold
    obtain ⟨c, hc, hstate⟩ := hold hne
    rw [hsame] at hc ⊢
    exact hmoves.unlocked hc hstate hdrops

theorem Inv.step : Inv (⟨x.2, call, out, s'⟩ :: x.1, s') where
  initialized := hmoves.initialized.trans h.initialized
  hidden := hmoves.hidden h.hidden
  sent := h.sent_step hmoves
  sound :=
    { unlocked := h.unlocked_step hmoves
      once := by
        refine fun level => ⟨?_, h.sound.once level⟩
        rintro ⟨_, _, -, -, c, hc, hsent⟩
        exact (h.sent level c hc hsent).mono (fun _ hp => hp.2) fun _ _ hq => ⟨_, hq⟩
      untried := by
        refine ⟨?_, h.sound.untried⟩
        rintro level key now ⟨⟩ htries
        exact hmoves.untried htries
      current := by
        rw [getCurrentLevel, hmoves.initialized.trans h.initialized]
        exact h.current_step hmoves }

end

theorem init_locked (securityCallback violationCallback : Bool) (levels : List (UInt8 × UInt32)) :
    ∀ e ∈ (init securityCallback violationCallback levels).levels, e.state.state = .locked := by
  intro e he
  obtain ⟨l, -, rfl⟩ := mem_map.mp he
  rfl

theorem inv_init (securityCallback violationCallback : Bool) (levels : List (UInt8 × UInt32)) :
    Inv ([], init securityCallback violationCallback levels) := by
  have hlocked : ∀ level c, (init securityCallback violationCallback levels).context level =
      some c → c.state = .locked := by
    intro level c hc
    obtain ⟨e, he, rfl⟩ := map_eq_some_iff.mp hc
    exact init_locked _ _ levels e (Keyed.mem_of_lookup he).1
  constructor
  case initialized => rfl
  case hidden => exact Keyed.Shadowed.of_forall (init_locked _ _ levels)
  case sent =>
    intro level c hc hsent
    exact absurd hsent (SecurityStateContext.locked_state (hlocked level c hc)).1
  case sound =>
    refine ⟨fun level h => ?_, fun _ => trivial, trivial, fun hne => absurd rfl hne⟩
    obtain ⟨c, hc, hunlocked⟩ := (isLevelUnlocked_iff rfl).mp h
    exact absurd hunlocked (SecurityStateContext.locked_state (hlocked level c hc)).2

theorem step_total (s : SecurityManager) (call : Call) :
    ∃ s' out, s.step call = some (s', out) := by
  cases call <;> exact ⟨_, _, rfl⟩

/-- **The levels of the manager.** In every state of every run from `Security_Manager_Init`. -/
theorem levels_sound (securityCallback violationCallback : Bool) (levels : List (UInt8 × UInt32))
    (calls : List Call) :
    Throughout (logged step) Sound ([], init securityCallback violationCallback levels) calls := by
  refine throughout_of_inv Inv (fun _ h => h.sound) ?_ calls (inv_init _ _ levels)
  intro x call h
  obtain ⟨s', out, hstep⟩ := step_total x.2 call
  refine ⟨_, out, ?_, h.step (moves h.initialized hstep)⟩
  simp [logged, hstep]

end SecurityManager

end Cant.Diagnostic
