/-
# `DiagSession` — session control and security access (`diag_session.c`)

The programming session is for an unlocked unit. `DiagSession_HandleRequest` checks that
on the way in, but a seed request after three wrong keys locks the unit in whatever
session it is; and of the session numbers it refuses those above 4, so 0 goes through
(`programming_unlocked_iff`).

A call reads the clock once, and a send-key request reads six bytes whatever `length`
says: a shorter one makes the call answer `none`. `factory` is whether the word at
`0x20000000` is the magic number of `check_factory_mode`. `DiagSession_Init` leaves the
retry counter, the seed and `waiting_for_key` as they are.
-/
import Cant.Lib.Run
import Cant.Lib.Word

namespace Cant.Diagnostic

open Run Word

structure DiagSession where
  currentSession : UInt8
  sessionTimer : UInt32
  p2Timer : UInt32
  securityLocked : Bool
  retryCounter : UInt8
  lastSeed : UInt32
  waitingForKey : Bool

inductive DiagSessionOp where
  | handleRequest (now : UInt32) (factory : Bool) (data : List UInt8)
  | process (now : UInt32)

namespace DiagSession

def calculateKey (seed : UInt32) : UInt32 :=
  let key := seed ^^^ 0x75836AC4
  ((key <<< 13) ||| (key >>> 19)) + 0x1234ABCD

def generateSeed (now : UInt32) : UInt32 :=
  let seed := now * 16807 % 0x7FFFFFFF
  if seed ≠ 0 then seed else 1

def init (s : DiagSession) (now : UInt32) : DiagSession :=
  { s with currentSession := 1, securityLocked := true, sessionTimer := now }

/-- The session control of `DiagSession_HandleRequest`. -/
def sessionControl (s : DiagSession) (now : UInt32) (factory : Bool) (subfunction : UInt8) :
    DiagSession × Bool :=
  if subfunction > 4 then (s, false)
  else if subfunction = s.currentSession then ({ s with sessionTimer := now }, true)
  else if subfunction = 2 ∧ s.securityLocked then (s, false)
  else if subfunction = 4 ∧ ¬ factory then (s, false)
  else
    ({ s with
      currentSession := subfunction
      sessionTimer := now
      securityLocked := s.securityLocked || decide (subfunction = 1)
      p2Timer := if subfunction = 3 ∧ s.currentSession = 1 then now else s.p2Timer }, true)

def requestSeed (s : DiagSession) (now : UInt32) : DiagSession × Bool :=
  if s.retryCounter ≥ 3 then ({ s with securityLocked := true }, false)
  else ({ s with lastSeed := generateSeed now, waitingForKey := true }, true)

/-- Its send key; `rest` is what follows the first two bytes. -/
def sendKey (s : DiagSession) (rest : List UInt8) : Option (DiagSession × Bool) :=
  if ¬ s.waitingForKey then some (s, false)
  else
    match rest with
    | b₀ :: b₁ :: b₂ :: b₃ :: _ =>
      if word32 b₀ b₁ b₂ b₃ = calculateKey s.lastSeed then
        some ({ s with securityLocked := false, retryCounter := 0, waitingForKey := false }, true)
      else
        some ({ s with retryCounter := s.retryCounter + 1, waitingForKey := false },
          !s.securityLocked)
    | _ => none

def handleRequest (s : DiagSession) (now : UInt32) (factory : Bool) :
    List UInt8 → Option (DiagSession × Bool)
  | service :: subfunction :: rest =>
    if service = 0x10 then some (s.sessionControl now factory subfunction)
    else if service = 0x27 then
      if subfunction % 2 = 1 then some (s.requestSeed now) else s.sendKey rest
    else some (s, true)
  | _ => some (s, false)

def process (s : DiagSession) (now : UInt32) : DiagSession :=
  let s :=
    if now - s.sessionTimer ≥ 5000 ∧ s.currentSession ≠ 1 then
      { s with currentSession := 1, securityLocked := true, waitingForKey := false }
    else s
  if s.currentSession = 3 ∧ now - s.p2Timer ≥ 2000 then { s with p2Timer := now } else s

def step (s : DiagSession) : DiagSessionOp → Option (DiagSession × Bool)
  | .handleRequest now factory data => s.handleRequest now factory data
  | .process now => some (s.process now, true)

def Long : DiagSessionOp → Prop
  | .handleRequest _ _ data => 6 ≤ data.length
  | .process _ => True

/-! ## Sessions and the lock -/

/-- The session is one of the four, and in the programming session the unit is
unlocked. -/
structure Sound (s : DiagSession) : Prop where
  defined : s.currentSession ∈ [(1 : UInt8), 2, 3, 4]
  unlocked : s.currentSession = 2 → s.securityLocked = false

def ZeroSession : List UInt8 → Prop
  | service :: subfunction :: _ => service = 0x10 ∧ subfunction = 0
  | _ => False

def SeedRequest : List UInt8 → Prop
  | service :: subfunction :: _ => service = 0x27 ∧ subfunction % 2 = 1
  | _ => False

/-- What goes wrong: session 0, and a seed request in the programming session after three
wrong keys. -/
def Regular (s : DiagSession) : DiagSessionOp → Prop
  | .handleRequest _ _ data =>
    ¬ ZeroSession data ∧ ¬ (SeedRequest data ∧ s.currentSession = 2 ∧ s.retryCounter ≥ 3)
  | .process _ => True

variable {s t : DiagSession}

section

variable (hs : s.Sound)
include hs

/-- **Session control** leaves a sound unit sound exactly if it does not ask for session
0. -/
theorem sessionControl_sound (now : UInt32) (factory : Bool) (sub : UInt8) :
    (s.sessionControl now factory sub).1.Sound ↔ sub ≠ 0 := by
  have hnonzero : s.currentSession ≠ 0 := by
    intro hzero
    have hmem := hs.defined
    rw [hzero] at hmem
    exact absurd hmem (by decide)
  unfold sessionControl
  split
  case isTrue hlarge =>
    refine iff_of_true hs ?_
    rintro rfl
    cases hlarge
  case isFalse hle =>
    split
    case isTrue hsame => exact iff_of_true ⟨hs.defined, hs.unlocked⟩ (hsame ▸ hnonzero)
    case isFalse hother =>
      split
      case isTrue hlocked => exact iff_of_true hs (by rw [hlocked.1]; decide)
      case isFalse hopen =>
        split
        case isTrue hfactory => exact iff_of_true hs (by rw [hfactory.1]; decide)
        case isFalse =>
          constructor
          · rintro hsound rfl
            have hmem : (0 : UInt8) ∈ [(1 : UInt8), 2, 3, 4] := hsound.defined
            exact absurd hmem (by decide)
          · intro hzero
            refine ⟨?_, ?_⟩
            · grind
            · rintro (htwo : sub = 2)
              have hunlocked : s.securityLocked = false := by
                cases hl : s.securityLocked with
                | false => rfl
                | true => exact absurd ⟨htwo, hl⟩ hopen
              rw [hunlocked, htwo]
              rfl

theorem requestSeed_sound (now : UInt32) :
    (s.requestSeed now).1.Sound ↔ ¬ (s.currentSession = 2 ∧ s.retryCounter ≥ 3) := by
  unfold requestSeed
  split
  case isTrue hthree =>
    constructor
    · rintro hsound ⟨htwo, -⟩
      cases hsound.unlocked htwo
    · intro hnot
      refine ⟨hs.defined, ?_⟩
      intro htwo
      exact absurd ⟨htwo, hthree⟩ hnot
  case isFalse hfewer =>
    refine iff_of_true ⟨hs.defined, hs.unlocked⟩ ?_
    rintro ⟨-, hthree⟩
    exact hfewer hthree

theorem sendKey_sound {rest : List UInt8} (hlen : 4 ≤ rest.length) :
    ∃ t answer, s.sendKey rest = some (t, answer) ∧ t.Sound := by
  match rest, hlen with
  | b₀ :: b₁ :: b₂ :: b₃ :: rest, _ =>
    unfold sendKey
    split
    · exact ⟨_, _, rfl, hs⟩
    · simp only
      split
      · exact ⟨_, _, rfl, hs.defined, fun _ => rfl⟩
      · exact ⟨_, _, rfl, hs.defined, hs.unlocked⟩

theorem process_sound (now : UInt32) : (s.process now).Sound := by
  have hp2 : ∀ u : DiagSession, u.Sound →
      (if u.currentSession = 3 ∧ now - u.p2Timer ≥ 2000 then { u with p2Timer := now }
        else u).Sound := by
    intro u hu
    split
    · exact ⟨hu.defined, hu.unlocked⟩
    · exact hu
  apply hp2
  split
  · refine ⟨.head _, ?_⟩
    intro htwo
    cases htwo
  · exact hs

theorem step_sound (op : DiagSessionOp) (hlong : Long op) :
    s.Regular op ↔ ∃ t answer, s.step op = some (t, answer) ∧ t.Sound := by
  cases op with
  | process now => exact iff_of_true trivial (exists_some.mpr (process_sound hs now))
  | handleRequest now factory data =>
    match data, hlong with
    | service :: sub :: rest, hlong =>
      simp only [Regular, ZeroSession, SeedRequest, step, handleRequest]
      by_cases hcontrol : service = 0x10
      · subst hcontrol
        have hseed : (0x10 : UInt8) ≠ 0x27 := by decide
        rw [if_pos rfl, exists_some, sessionControl_sound hs]
        simp
      · rw [if_neg hcontrol]
        by_cases haccess : service = 0x27
        · by_cases hodd : sub % 2 = 1
          · rw [if_pos haccess, if_pos hodd, exists_some, requestSeed_sound hs]
            have hzero : ¬ (service = 0x10 ∧ sub = 0) := fun h => hcontrol h.1
            have hseed : service = 0x27 ∧ sub % 2 = 1 := ⟨haccess, hodd⟩
            exact ⟨fun h hbad => h.2 ⟨hseed, hbad⟩, fun h => ⟨hzero, fun hbad => h hbad.2⟩⟩
          · rw [if_pos haccess, if_neg hodd]
            have hrest : 4 ≤ rest.length := by
              simpa [Long]
                using hlong
            exact iff_of_true ⟨fun h => hcontrol h.1, fun h => hodd h.1.2⟩
              (sendKey_sound hs hrest)
        · rw [if_neg haccess]
          exact iff_of_true ⟨fun h => hcontrol h.1, fun h => haccess h.1.1⟩
            (exists_some.mpr hs)

end

theorem init_sound (s : DiagSession) (now : UInt32) : (s.init now).Sound := by
  refine ⟨.head _, ?_⟩
  intro htwo
  exact absurd htwo (by decide : (1 : UInt8) ≠ 2)

/-- **Whole runs.** After `DiagSession_Init` every state a run of requests and timeouts reaches is
`Sound` exactly if no request asks for session 0, and none for a seed in the programming session
with three wrong keys on the counter. -/
theorem programming_unlocked_iff (s : DiagSession) (now : UInt32) {ops : List DiagSessionOp}
    (hlong : ∀ op ∈ ops, Long op) :
    Throughout step Sound (s.init now) ops ↔ Along step Regular (s.init now) ops :=
  throughout_iff (fun _ => True) (fun _ _ _ _ _ _ => trivial)
    (fun _ op hop _ hs => step_sound hs op hop) ops hlong trivial (init_sound s now)

def zero : DiagSession := ⟨1, 0, 0, true, 0, 0, false⟩

def keyRequest (key : UInt32) : List UInt8 :=
  [0x27, 0x02, key.toUInt8, (key >>> 8).toUInt8, (key >>> 16).toUInt8, (key >>> 24).toUInt8]

/-- A right key, the programming session, three wrong keys, and a seed request. -/
def lockedOut : List DiagSessionOp :=
  let seed := DiagSessionOp.handleRequest 7 false [0x27, 0x01, 0, 0, 0, 0]
  let wrong := DiagSessionOp.handleRequest 7 false (keyRequest 0)
  [seed, .handleRequest 7 false (keyRequest (calculateKey (generateSeed 7))),
    .handleRequest 7 false [0x10, 0x02, 0, 0, 0, 0], seed, wrong, seed, wrong, seed, wrong, seed]

/-- A right key, and then the programming session. -/
theorem programming_unlocked_entered :
    Throughout step Sound (zero.init 0) (lockedOut.take 3) ∧
      ∃ s outs, run step (zero.init 0) (lockedOut.take 3) = some (s, outs) ∧
        s.currentSession = 2 := by
  have hlong : ∀ op ∈ lockedOut.take 3, Long op := by
    show ∀ op ∈ [_, _, _], Long op
    simp [Long, keyRequest]
  refine ⟨(programming_unlocked_iff zero 0 hlong).mpr ?_, _, _, rfl, rfl⟩
  refine (along_cons_of rfl).mpr
    ⟨⟨fun h => absurd h.1 (by decide), fun h => absurd h.2 (by decide)⟩, ?_⟩
  refine (along_cons_of rfl).mpr
    ⟨⟨fun h => absurd h.1 (by decide), fun h => absurd h.1.2 (by decide)⟩, ?_⟩
  refine (along_cons_of rfl).mpr
    ⟨⟨fun h => absurd h.2 (by decide), fun h => absurd h.1.1 (by decide)⟩, trivial⟩

/-- Session 0 is one request away; and after three wrong keys in the programming session
the next seed request locks the unit there. -/
theorem programming_locked :
    ((run step (zero.init 0) [.handleRequest 0 false [0x10, 0x00, 0, 0, 0, 0]]).map
      fun r => r.1.currentSession) = some 0 ∧
    ((run step (zero.init 0) lockedOut).map fun r => (r.1.currentSession, r.1.securityLocked))
      = some (2, true) := by
  constructor <;> decide +kernel

end DiagSession

end Cant.Diagnostic
