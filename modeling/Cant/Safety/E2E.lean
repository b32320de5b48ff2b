/-
# `E2E` — end-to-end protection: counters, time stamps and the stream

`e2e_protection.c` numbers messages at the sender (`E2E_Protect`) and accepts them
at the receiver (`E2E_Check`) if they come in time, with the right identifier, the
next number and the right CRC.

* `accepted_in_sequence`: the accepted messages are numbered 1, 2, 3, ... modulo
  `max_delta_counter`, and a rejected one changes nothing.
* `stream_accepted_iff`: a stream that is delivered unchanged and in time is accepted to the
  end if and only if `max_delta_counter` is not zero and the clock has not passed
  `timeout_ms` at the first check, since `E2E_Init` sets `last_timestamp` to zero.

`CRC8_TABLE` is indexed with the whole 32-bit register, which starts at `0xFFFFFFFF`. `wild` says
what such a read past the end of the table gives on the platform, `none` if it traps.
-/
import Cant.Lib.Crc
import Cant.Lib.Run
import Cant.Lib.Word

namespace Cant.Safety

open Word Run List Option

inductive E2EProfile where
  | profile1 | profile2 | profile4 | profile5 | profile6
  deriving DecidableEq

inductive E2EStateType where
  | init | valid | invalid | error
  deriving DecidableEq

inductive E2EStatus where
  | ok | errorCrc | errorSequence | errorRepeated | errorTimeout | errorWrongLength | errorConfig
  deriving DecidableEq

/-- `E2EConfig`; the ranges are those of `uint16_t` and `uint32_t`. -/
structure E2EConfig where
  profile : E2EProfile
  dataId : Nat
  minLength : Nat
  maxLength : Nat
  maxDeltaCounter : Nat
  timeoutMs : Nat
  includeLength : Bool
  maxDelta_lt : maxDeltaCounter < 65536
  timeout_lt : timeoutMs < 4294967296

structure E2EState where
  sequenceCounter : Nat
  lastTimestamp : Nat
  state : E2EStateType
  initialized : Bool
  deriving DecidableEq

/-- `E2EProtectedData`; `data` is what the pointer leads to, `none` for a null
pointer. -/
structure E2EProtectedData where
  data : Option (List UInt8)
  length : Nat
  crc : Nat
  sequence : Nat
  dataId : Nat
  deriving DecidableEq

/-- The bytes `data[0]` to `data[length - 1]`. -/
def E2EProtectedData.payload (d : E2EProtectedData) : Option (List UInt8) := do
  let bytes ← d.data
  if d.length ≤ bytes.length then some (bytes.take d.length) else none

/-! ## The CRC -/

/-- `CRC8_TABLE`: the initialiser has sixteen entries, the others are zero. -/
def crc8Table (i : Nat) : Nat :=
  [0x00, 0x1D, 0x3A, 0x27, 0x74, 0x69, 0x4E, 0x53,
   0xE8, 0xF5, 0xD2, 0xCF, 0x9C, 0x81, 0xA6, 0xBB].getD i 0

def crc16Table (i : Nat) : Nat :=
  [0x0000, 0x1021, 0x2042, 0x3063, 0x4084, 0x50A5, 0x60C6, 0x70E7,
   0x8108, 0x9129, 0xA14A, 0xB16B, 0xC18C, 0xD1AD, 0xE1CE, 0xF1EF].getD i 0

/-- `CRC32_TABLE`: the initialiser has eight entries. -/
def crc32Table (i : Nat) : Nat :=
  [0x00000000, 0x77073096, 0xEE0E612C, 0x990951BA,
   0x076DC419, 0x706AF48F, 0xE963A535, 0x9E6495A3].getD i 0

section

variable (wild : Nat → Option Nat)

def crc8Loop : Nat → List UInt8 → Option Nat
  | crc, [] => some crc
  | crc, b :: bs =>
    let i := crc ^^^ b.toNat
    if i < 256 then crc8Loop (crc8Table i) bs
    else (wild i).bind fun v => crc8Loop v bs

def calculateCrc (profile : E2EProfile) (data : List UInt8) : Option Nat :=
  match profile with
  | .profile1 => crc8Loop wild 0xFFFFFFFF data
  | .profile2 => some (data.foldl (Crc.step 2 crc16Table) 0xFFFFFFFF &&& 0xFFFF)
  | .profile4 => some (data.foldl (Crc.step 4 crc32Table) 0xFFFFFFFF)
  | .profile5 => some 0
  | .profile6 => some 0

/-- The header `E2E_Protect` builds and `E2E_Check` rebuilds. -/
def buildHeader (config : E2EConfig) (d : E2EProtectedData) : List UInt8 :=
  [.ofNat (d.dataId >>> 8), .ofNat d.dataId, .ofNat (d.sequence >>> 24),
    .ofNat (d.sequence >>> 16), .ofNat (d.sequence >>> 8), .ofNat d.sequence] ++
  if config.includeLength then [.ofNat (d.length >>> 8), .ofNat d.length] else []

/-- The CRC of a message, as both sides compute it: over the header first, and then
over the payload into the same variable. -/
def messageCrc (config : E2EConfig) (d : E2EProtectedData) : Option Nat := do
  let _ ← calculateCrc wild config.profile (buildHeader config d)
  let payload ← d.payload
  calculateCrc wild config.profile payload

/-! ## Sender and receiver -/

def validateConfig (config : E2EConfig) : Bool :=
  config.minLength ≤ config.maxLength && config.maxLength ≠ 0 && config.timeoutMs ≠ 0

def validateData (config : E2EConfig) (d : E2EProtectedData) : Bool :=
  d.data.isSome && config.minLength ≤ d.length && d.length ≤ config.maxLength

def E2EState.init (s : E2EState) (config : E2EConfig) : E2EState × Bool :=
  if validateConfig config then (⟨0, 0, .init, true⟩, true) else (s, false)

/-- The number after `c`, for `max_delta_counter` not zero. -/
def nextSequence (config : E2EConfig) (c : Nat) : Option Nat :=
  if config.maxDeltaCounter = 0 then none
  else some (u32 (c + 1) % config.maxDeltaCounter)

def usable (config : E2EConfig) (s : E2EState) (d : E2EProtectedData) : Bool :=
  s.initialized && validateConfig config && validateData config d

def protect (config : E2EConfig) (s : E2EState) (d : E2EProtectedData) (now : Nat) :
    Option (E2EState × E2EProtectedData × E2EStatus) :=
  if ¬ usable config s d then some (s, d, .errorConfig)
  else do
    let seq ← nextSequence config s.sequenceCounter
    let d := { d with sequence := seq, dataId := config.dataId }
    let crc ← messageCrc wild config d
    some ({ s with sequenceCounter := seq, lastTimestamp := now, state := .valid },
      { d with crc := crc }, .ok)

def check (config : E2EConfig) (s : E2EState) (d : E2EProtectedData) (now : Nat) :
    Option (E2EState × E2EStatus) :=
  if ¬ usable config s d then some (s, .errorConfig)
  else if u32 ((now : Int) - s.lastTimestamp) > config.timeoutMs then
    some ({ s with state := .error }, .errorTimeout)
  else if d.dataId ≠ config.dataId then some ({ s with state := .error }, .errorConfig)
  else do
    let expected ← nextSequence config s.sequenceCounter
    if d.sequence ≠ expected then some ({ s with state := .invalid }, .errorSequence)
    else do
      let crc ← messageCrc wild config d
      if crc ≠ d.crc then some ({ s with state := .invalid }, .errorCrc)
      else some ({ s with sequenceCounter := d.sequence, lastTimestamp := now, state := .valid },
        .ok)

/-- What `E2E_Check` can do to the receiver: take the message as the next one, or
change nothing but the state name. -/
inductive Checked (config : E2EConfig) (s : E2EState) (d : E2EProtectedData) (now : Nat) :
    E2EState → E2EStatus → Prop
  | accepted : d.dataId = config.dataId → nextSequence config s.sequenceCounter = some d.sequence →
      u32 ((now : Int) - s.lastTimestamp) ≤ config.timeoutMs →
      messageCrc wild config d = some d.crc →
      Checked config s d now
        { s with sequenceCounter := d.sequence, lastTimestamp := now, state := .valid } .ok
  | rejected {name : E2EStateType} {status : E2EStatus} : status ≠ .ok →
      Checked config s d now { s with state := name } status

variable {wild} {config : E2EConfig} {s s' : E2EState} {d : E2EProtectedData} {now : Nat}

theorem check_checked {status : E2EStatus} (h : check wild config s d now = some (s', status)) :
    Checked wild config s d now s' status := by
  unfold check at h
  split at h
  · obtain ⟨rfl, rfl⟩ : s = s' ∧ .errorConfig = status := by simpa using h
    exact Checked.rejected (s := s) (by decide)
  split at h
  · obtain ⟨rfl, rfl⟩ : { s with state := .error } = s' ∧ .errorTimeout = status := by
      simpa using h
    exact .rejected (by decide)
  split at h
  · obtain ⟨rfl, rfl⟩ : { s with state := .error } = s' ∧ .errorConfig = status := by
      simpa using h
    exact .rejected (by decide)
  rename_i _ htime hid
  simp only [bind_eq_bind, bind_eq_some_iff] at h
  obtain ⟨expected, hexp, h⟩ := h
  split at h
  · obtain ⟨rfl, rfl⟩ : { s with state := .invalid } = s' ∧ .errorSequence = status := by
      simpa using h
    exact .rejected (by decide)
  rename_i hseq
  simp only [bind_eq_some_iff] at h
  obtain ⟨crc, hcrc, h⟩ := h
  split at h
  · obtain ⟨rfl, rfl⟩ : { s with state := .invalid } = s' ∧ .errorCrc = status := by
      simpa using h
    exact .rejected (by decide)
  rename_i hcrceq
  obtain ⟨rfl, rfl⟩ :
      { s with sequenceCounter := d.sequence, lastTimestamp := now, state := .valid } = s' ∧
        .ok = status := by simpa using h
  exact .accepted (not_not.mp hid) (not_not.mp hseq ▸ hexp) (by omega) (not_not.mp hcrceq ▸ hcrc)

theorem protect_ok_iff {d' : E2EProtectedData} :
    protect wild config s d now = some (s', d', .ok) ↔
      usable config s d = true ∧ ∃ seq crc, nextSequence config s.sequenceCounter = some seq ∧
        messageCrc wild config { d with sequence := seq, dataId := config.dataId } = some crc ∧
        s' = { s with sequenceCounter := seq, lastTimestamp := now, state := .valid } ∧
        d' = { d with sequence := seq, dataId := config.dataId, crc := crc } := by
  by_cases husable : usable config s d = true
  · simp only [protect, husable, not_true, if_false, bind_eq_bind, bind_eq_some_iff,
      Option.some.injEq, Prod.mk.injEq, true_and, and_true]
    constructor
    · rintro ⟨seq, hseq, crc, hcrc, rfl, rfl⟩
      exact ⟨seq, crc, hseq, hcrc, rfl, rfl⟩
    · rintro ⟨seq, crc, hseq, hcrc, rfl, rfl⟩
      exact ⟨seq, hseq, crc, hcrc, rfl, rfl⟩
  · simp [protect, husable]

theorem init_eq {s₀ : E2EState} (h : s₀.init config = (s, true)) :
    validateConfig config = true ∧ s = ⟨0, 0, .init, true⟩ := by
  rw [E2EState.init] at h
  split at h
  case isTrue hvalid => exact ⟨hvalid, (Prod.mk.inj h).1.symm⟩
  case isFalse => cases (Prod.mk.inj h).2

/-! ## The receiver: accepted messages are in sequence -/

/-- The pointer leads to as many bytes as `length` says. -/
def E2EProtectedData.Readable (d : E2EProtectedData) : Prop :=
  ∀ bytes ∈ d.data, d.length ≤ bytes.length

structure CheckCall where
  data : E2EProtectedData
  now : Nat

def checkStep (wild : Nat → Option Nat) (config : E2EConfig) (s : E2EState) (c : CheckCall) :
    Option (E2EState × E2EStatus) := check wild config s c.data c.now

def acceptedData : List CheckCall → List E2EStatus → List E2EProtectedData
  | c :: cs, st :: sts => if st = .ok then c.data :: acceptedData cs sts else acceptedData cs sts
  | _, _ => []

def Readable (wild : Nat → Option Nat) : Prop := ∀ i, ∃ v, wild i = some v

theorem crc8Loop_isSome (hwild : Readable wild) : ∀ (bs : List UInt8) (crc : Nat),
    ∃ v, crc8Loop wild crc bs = some v
  | [], crc => ⟨crc, rfl⟩
  | b :: bs, crc => by
    rw [crc8Loop]
    split
    · exact crc8Loop_isSome hwild bs _
    · obtain ⟨v, hv⟩ := hwild (crc ^^^ b.toNat)
      rw [hv]
      exact crc8Loop_isSome hwild bs v

theorem calculateCrc_isSome {profile : E2EProfile} (h : profile ≠ .profile1 ∨ Readable wild)
    (bs : List UInt8) : ∃ v, calculateCrc wild profile bs = some v := by
  cases profile with
  | profile1 =>
    rcases h with h | h
    · exact absurd rfl h
    · exact crc8Loop_isSome h bs _
  | profile2 | profile4 | profile5 | profile6 => exact ⟨_, rfl⟩

theorem payload_isSome (hread : d.Readable) (hdata : d.data.isSome) :
    ∃ bytes, d.payload = some bytes := by
  obtain ⟨bytes, hbytes⟩ := isSome_iff_exists.mp hdata
  refine ⟨bytes.take d.length, ?_⟩
  simp [E2EProtectedData.payload, hbytes, if_pos (hread bytes hbytes)]

theorem messageCrc_isSome (h : config.profile ≠ .profile1 ∨ Readable wild) (hread : d.Readable)
    (hdata : d.data.isSome) : ∃ v, messageCrc wild config d = some v := by
  obtain ⟨hd, hhd⟩ := calculateCrc_isSome h (buildHeader config d)
  obtain ⟨bytes, hbytes⟩ := payload_isSome hread hdata
  obtain ⟨v, hv⟩ := calculateCrc_isSome h bytes
  exact ⟨v, by simp [messageCrc, hhd, hbytes, hv]⟩

theorem usable_data (h : usable config s d = true) : d.data.isSome := by
  simp only [usable, validateData, Bool.and_eq_true] at h
  exact h.2.1.1

theorem check_isSome (h : config.profile ≠ .profile1 ∨ Readable wild)
    (hm : config.maxDeltaCounter ≠ 0) (hread : d.Readable) (s : E2EState) (now : Nat) :
    ∃ s' status, check wild config s d now = some (s', status) := by
  unfold check
  split
  · exact ⟨_, _, rfl⟩
  rename_i husable
  split
  · exact ⟨_, _, rfl⟩
  split
  · exact ⟨_, _, rfl⟩
  obtain ⟨crc, hcrc⟩ := messageCrc_isSome h hread (usable_data (not_not.mp husable))
  simp only [nextSequence, if_neg hm, hcrc, bind_eq_bind, bind_some]
  split
  · exact ⟨_, _, rfl⟩
  split
  · exact ⟨_, _, rfl⟩
  · exact ⟨_, _, rfl⟩

theorem nextSequence_mod (hm : config.maxDeltaCounter ≠ 0) (n : Nat) :
    nextSequence config (n % config.maxDeltaCounter) = some ((n + 1) % config.maxDeltaCounter) := by
  have hlt := config.maxDelta_lt
  have hmod := Nat.mod_lt n (Nat.pos_of_ne_zero hm)
  have hu : u32 ((n % config.maxDeltaCounter : Nat) + 1) = n % config.maxDeltaCounter + 1 :=
    u32_of_lt (n := n % config.maxDeltaCounter + 1) (by omega)
  rw [nextSequence, if_neg hm, hu, Nat.mod_add_mod]

theorem run_in_sequence (hm : config.maxDeltaCounter ≠ 0) : ∀ (calls : List CheckCall)
    {s t : E2EState} {outs : List E2EStatus} {n : Nat},
    s.sequenceCounter = n % config.maxDeltaCounter →
    run (checkStep wild config) s calls = some (t, outs) →
    (acceptedData calls outs).map E2EProtectedData.sequence =
        (List.range' (n + 1) (acceptedData calls outs).length).map (· % config.maxDeltaCounter) ∧
      ∀ d ∈ acceptedData calls outs, d.dataId = config.dataId
  | [], s, t, outs, n, _, _ => by simp [acceptedData]
  | c :: calls, s, t, outs, n, hn, hrun => by
    obtain ⟨s', status, outs', hstep, hrest, rfl⟩ := run_cons.mp hrun
    cases check_checked hstep with
    | accepted hid hseq _ _ =>
      have hseq : (n + 1) % config.maxDeltaCounter = c.data.sequence := by
        rw [hn, nextSequence_mod hm] at hseq
        exact Option.some.inj hseq
      obtain ⟨hnums, hids⟩ := run_in_sequence hm calls (n := n + 1) hseq.symm hrest
      rw [acceptedData, if_pos rfl, map_cons, hnums, ← hseq]
      exact ⟨rfl, forall_mem_cons.mpr ⟨hid, hids⟩⟩
    | @rejected name _ hne =>
      rw [acceptedData, if_neg hne]
      exact run_in_sequence hm calls (s := { s with state := name }) hn hrest

/-- **Accepted messages are in sequence.** The accepted ones carry the numbers 1, 2, 3, ... modulo
`max_delta_counter` and the configured identifier; a message that is rejected leaves the counter and
the time stamp; and every check answers, unless the profile is 1 and the platform traps. -/
theorem accepted_in_sequence (wild : Nat → Option Nat) {config : E2EConfig}
    (hm : 1 ≤ config.maxDeltaCounter) {s₀ s : E2EState} (hinit : s₀.init config = (s, true))
    (calls : List CheckCall) :
    ((config.profile ≠ .profile1 ∨ Readable wild) → (∀ c ∈ calls, c.data.Readable) →
      ∃ t outs, run (checkStep wild config) s calls = some (t, outs)) ∧
    ∀ t outs, run (checkStep wild config) s calls = some (t, outs) →
      (acceptedData calls outs).map E2EProtectedData.sequence =
        (List.range' 1 (acceptedData calls outs).length).map (· % config.maxDeltaCounter) ∧
      (∀ d ∈ acceptedData calls outs, d.dataId = config.dataId) ∧
      ∀ d now u status, check wild config t d now = some (u, status) → status ≠ .ok →
        u.sequenceCounter = t.sequenceCounter ∧ u.lastTimestamp = t.lastTimestamp := by
  have hm : config.maxDeltaCounter ≠ 0 := by omega
  refine ⟨?_, ?_⟩
  · intro hwild hread
    clear hinit
    induction calls generalizing s with
    | nil => exact ⟨s, [], rfl⟩
    | cons c calls ih =>
      obtain ⟨s', status, hstep⟩ :=
        check_isSome hwild hm (hread c mem_cons_self) s c.now
      obtain ⟨t, outs, hrun⟩ := ih (s := s') fun c' hc' => hread c' (.tail _ hc')
      exact ⟨t, status :: outs, run_cons.mpr ⟨s', status, outs, hstep, hrun, rfl⟩⟩
  · intro t outs hrun
    have hzero : s.sequenceCounter = 0 % config.maxDeltaCounter := by
      rw [(init_eq hinit).2, Nat.zero_mod]
    obtain ⟨hnums, hids⟩ := run_in_sequence hm calls hzero hrun
    refine ⟨hnums, hids, ?_⟩
    intro d now u status hcheck hne
    cases check_checked hcheck with
    | accepted _ _ _ _ => exact absurd rfl hne
    | rejected _ => exact ⟨rfl, rfl⟩

def sampleConfig : E2EConfig where
  profile := .profile2
  dataId := 0x1234
  minLength := 1
  maxLength := 8
  maxDeltaCounter := 16
  timeoutMs := 100
  includeLength := true
  maxDelta_lt := by decide
  timeout_lt := by decide

/-- The first message of a sender with that configuration, checked at `now`. -/
def sampleCall (now : Nat) : CheckCall := ⟨⟨some [1, 2], 2, 0, 1, 0x1234⟩, now⟩

theorem accepted_in_sequence_sample :
    1 ≤ sampleConfig.maxDeltaCounter ∧
      E2EState.init ⟨7, 7, .error, true⟩ sampleConfig = (⟨0, 0, .init, true⟩, true) ∧
      ∃ t outs, run (checkStep (fun _ => none) sampleConfig) ⟨0, 0, .init, true⟩
          [sampleCall 50, sampleCall 60] = some (t, outs) ∧
        acceptedData [sampleCall 50, sampleCall 60] outs = [(sampleCall 50).data] ∧
        (acceptedData [sampleCall 50, sampleCall 60] outs).map E2EProtectedData.sequence =
          (List.range' 1 (acceptedData [sampleCall 50, sampleCall 60] outs).length).map
            (· % sampleConfig.maxDeltaCounter) := by
  have hrun : run (checkStep (fun _ => none) sampleConfig) ⟨0, 0, .init, true⟩
      [sampleCall 50, sampleCall 60]
      = some (⟨1, 50, .invalid, true⟩, [.ok, .errorSequence]) := by
    decide +kernel
  have hinit : E2EState.init ⟨7, 7, .error, true⟩ sampleConfig
      = (⟨0, 0, .init, true⟩, true) := by decide
  exact ⟨by decide, hinit, _, _, hrun, rfl,
    ((accepted_in_sequence (fun _ => none) (by decide) hinit _).2 _ _ hrun).1⟩

/-! ## The stream: what is sent in time is accepted -/

/-- A message on its way: the caller's data, and the time in milliseconds at which it
is protected and at which it is checked. -/
structure Transfer where
  raw : E2EProtectedData
  sent : Nat
  checked : Nat

variable {p : E2EState × E2EState} {x : Transfer}

/-- Protect at the sender, check at the receiver; the clock has 32 bits. -/
def transfer (wild : Nat → Option Nat) (config : E2EConfig) (p : E2EState × E2EState)
    (x : Transfer) : Option ((E2EState × E2EState) × E2EStatus × E2EStatus) := do
  let (sender, d, st) ← protect wild config p.1 x.raw (u32 x.sent)
  let (receiver, st') ← check wild config p.2 d (u32 x.checked)
  some ((sender, receiver), st, st')

/-- Each check comes at most `timeout` milliseconds after the one before it; the
first one, after `t`. -/
def InTime (timeout : Nat) : Nat → List Transfer → Prop
  | _, [] => True
  | t, x :: xs => t ≤ x.checked ∧ x.checked - t ≤ timeout ∧ InTime timeout x.checked xs

def AllAccepted (wild : Nat → Option Nat) (config : E2EConfig) (p : E2EState × E2EState)
    (xs : List Transfer) : Prop :=
  ∃ q outs, run (transfer wild config) p xs = some (q, outs) ∧ ∀ o ∈ outs, o = (.ok, .ok)

/-- Both sides are set up and have the same counter. -/
structure Synced (config : E2EConfig) (p : E2EState × E2EState) : Prop where
  valid : validateConfig config = true
  sender : p.1.initialized = true
  receiver : p.2.initialized = true
  counter : p.2.sequenceCounter = p.1.sequenceCounter

variable (wild) in
theorem Synced.transfer (h : Synced config p)
    (hprofile : config.profile ≠ .profile1) (hm : config.maxDeltaCounter ≠ 0)
    (hdata : validateData config x.raw = true) (hread : x.raw.Readable)
    (htime : u32 ((u32 x.checked : Int) - p.2.lastTimestamp) ≤ config.timeoutMs) :
    ∃ q, transfer wild config p x = some (q, .ok, .ok) ∧ Synced config q ∧
      q.2.lastTimestamp = u32 x.checked := by
  obtain ⟨seq, hseq⟩ : ∃ seq, nextSequence config p.1.sequenceCounter = some seq :=
    ⟨_, if_neg hm⟩
  have hsome : x.raw.data.isSome := by
    simp only [validateData, Bool.and_eq_true] at hdata
    exact hdata.1.1
  let d : E2EProtectedData := { x.raw with sequence := seq, dataId := config.dataId }
  obtain ⟨crc, hcrc⟩ : ∃ v, messageCrc wild config d = some v :=
    messageCrc_isSome (Or.inl hprofile) hread hsome
  have hprotect : protect wild config p.1 x.raw (u32 x.sent) = some
      ({ p.1 with sequenceCounter := seq, lastTimestamp := u32 x.sent, state := .valid },
        { d with crc := crc }, .ok) := by
    have husable : usable config p.1 x.raw = true := by
      rw [usable, h.sender, h.valid, hdata]
      rfl
    exact protect_ok_iff.mpr ⟨husable, seq, crc, hseq, hcrc, rfl, rfl⟩
  have hcheck : check wild config p.2 { d with crc := crc } (u32 x.checked) = some
      ({ p.2 with sequenceCounter := seq, lastTimestamp := u32 x.checked, state := .valid },
        .ok) := by
    have husable : usable config p.2 { d with crc := crc } = true := by
      rw [usable, h.receiver, h.valid]
      exact hdata
    have hsame : messageCrc wild config { d with crc := crc } = some crc := hcrc
    rw [check, if_neg (not_not.mpr husable), if_neg (by omega), if_neg (not_not.mpr rfl),
      h.counter, hseq]
    simp [hsame, d]
  refine ⟨({ p.1 with sequenceCounter := seq, lastTimestamp := u32 x.sent, state := .valid },
    { p.2 with sequenceCounter := seq, lastTimestamp := u32 x.checked, state := .valid }), ?_,
    ⟨h.valid, h.sender, h.receiver, rfl⟩, rfl⟩
  simp [Safety.transfer, hprotect, hcheck]

theorem Synced.stream (hprofile : config.profile ≠ .profile1) (hm : config.maxDeltaCounter ≠ 0) :
    ∀ (xs : List Transfer) {p : E2EState × E2EState} {t : Nat}, Synced config p →
    p.2.lastTimestamp = u32 t → (∀ x ∈ xs, validateData config x.raw = true ∧ x.raw.Readable) →
    InTime config.timeoutMs t xs → AllAccepted wild config p xs
  | [], p, _, _, _, _, _ => ⟨p, [], rfl, by simp⟩
  | x :: xs, p, t, h, ht, hxs, htime => by
    obtain ⟨hle, hgap, hrest⟩ := htime
    have hclock : u32 ((u32 x.checked : Int) - p.2.lastTimestamp) ≤ config.timeoutMs := by
      rw [ht]
      unfold u32
      omega
    obtain ⟨hdata, hread⟩ := hxs x mem_cons_self
    obtain ⟨q, hq, hsync, hlast⟩ := h.transfer wild hprofile hm hdata hread hclock
    obtain ⟨r, outs, hrun, hall⟩ := Synced.stream hprofile hm xs hsync hlast
      (fun y hy => hxs y (.tail _ hy)) hrest
    exact ⟨r, _, run_cons.mpr ⟨q, _, outs, hq, hrun, rfl⟩, forall_mem_cons.mpr ⟨rfl, hall⟩⟩

theorem first_accepted {xs : List Transfer}
    (hzero : p.2.lastTimestamp = 0) (h : AllAccepted wild config p (x :: xs)) :
    config.maxDeltaCounter ≠ 0 ∧ u32 x.checked ≤ config.timeoutMs := by
  obtain ⟨q, outs, hrun, hall⟩ := h
  obtain ⟨p', o, outs', hstep, -, rfl⟩ := run_cons.mp hrun
  obtain rfl : o = (.ok, .ok) := hall o mem_cons_self
  simp only [Safety.transfer, bind_eq_bind, bind_eq_some_iff, Option.some.injEq,
    Prod.mk.injEq] at hstep
  obtain ⟨⟨sender, d, st⟩, hprotect, ⟨receiver, st'⟩, hcheck, -, rfl, rfl⟩ := hstep
  constructor
  · intro hm
    obtain ⟨-, seq, -, hseq, -⟩ := protect_ok_iff.mp hprotect
    rw [nextSequence, if_pos hm] at hseq
    cases hseq
  · cases check_checked hcheck with
    | accepted _ _ htime _ =>
      unfold u32 at htime ⊢
      omega
    | rejected hne => exact absurd rfl hne

/-- **A stream in time.** Messages that are delivered unchanged, in order and without a gap of more
than `timeout_ms` are all accepted if and only if there are none, or `max_delta_counter` is not zero
and the 32-bit clock shows at most `timeout_ms` at the first check. -/
theorem stream_accepted_iff (wild : Nat → Option Nat) {config : E2EConfig}
    (hprofile : config.profile = .profile2 ∨ config.profile = .profile4) {s₀ r₀ s r : E2EState}
    (hs : s₀.init config = (s, true)) (hr : r₀.init config = (r, true)) {t : Nat}
    {xs : List Transfer} (hxs : ∀ x ∈ xs, validateData config x.raw = true ∧ x.raw.Readable)
    (htime : InTime config.timeoutMs t xs) :
    AllAccepted wild config (s, r) xs ↔
      xs = [] ∨ config.maxDeltaCounter ≠ 0 ∧ ∀ x ∈ xs.head?, u32 x.checked ≤ config.timeoutMs := by
  obtain ⟨hvalid, rfl⟩ := init_eq hs
  obtain ⟨-, rfl⟩ := init_eq hr
  have hnot1 : config.profile ≠ .profile1 := by
    rcases hprofile with h | h <;> rw [h] <;> decide
  have hsync : Synced config (⟨0, 0, .init, true⟩, ⟨0, 0, .init, true⟩) := ⟨hvalid, rfl, rfl, rfl⟩
  cases xs with
  | nil => exact ⟨fun _ => Or.inl rfl, fun _ => ⟨_, [], rfl, by simp⟩⟩
  | cons x xs =>
    obtain ⟨hdata, hread⟩ := hxs x mem_cons_self
    constructor
    · intro h
      obtain ⟨hm, hfirst⟩ := first_accepted rfl h
      refine Or.inr ⟨hm, ?_⟩
      rintro y ⟨⟩
      exact hfirst
    · rintro (hnil | ⟨hm, hfirst⟩)
      · cases hnil
      · -- the receiver's time stamp is zero once, and the last check afterwards
        have hclock : u32 ((u32 x.checked : Int) - (0 : Nat)) ≤ config.timeoutMs := by
          have := hfirst x rfl
          unfold u32 at this ⊢
          omega
        obtain ⟨q, hq, hsyncq, hlast⟩ := hsync.transfer wild hnot1 hm hdata hread hclock
        obtain ⟨p, outs, hrun, hall⟩ := Synced.stream hnot1 hm xs hsyncq hlast
          (fun y hy => hxs y (.tail _ hy)) htime.2.2
        exact ⟨p, _, run_cons.mpr ⟨q, _, outs, hq, hrun, rfl⟩, forall_mem_cons.mpr ⟨rfl, hall⟩⟩

theorem stream_accepted_sample :
    AllAccepted (fun _ => none) sampleConfig (⟨0, 0, .init, true⟩, ⟨0, 0, .init, true⟩)
      [⟨⟨some [1, 2, 3], 3, 0, 0, 0⟩, 40, 50⟩, ⟨⟨some [9], 1, 0, 0, 0⟩, 60, 120⟩] := by
  have hinit : E2EState.init ⟨7, 7, .error, true⟩ sampleConfig
      = (⟨0, 0, .init, true⟩, true) := by decide
  refine (stream_accepted_iff (fun _ => none) (Or.inl rfl) hinit hinit (t := 0) ?_ ?_).mpr
    (Or.inr ⟨by decide, ?_⟩)
  · simp only [forall_mem_cons, not_mem_nil, false_imp_iff, implies_true, and_true]
    exact ⟨⟨by decide, by rintro _ ⟨⟩; decide⟩, by decide, by rintro _ ⟨⟩; decide⟩
  · exact ⟨by decide, by decide, by decide, by decide, trivial⟩
  · decide

/-- Set up at 1000 ms and checked 50 ms later, with a time-out of 100 ms: the first
check reports a time-out. -/
theorem first_check_times_out :
    InTime sampleConfig.timeoutMs 1000 [⟨⟨some [1, 2, 3], 3, 0, 0, 0⟩, 1040, 1050⟩] ∧
      (run (transfer (fun _ => none) sampleConfig) (⟨0, 0, .init, true⟩, ⟨0, 0, .init, true⟩)
        [⟨⟨some [1, 2, 3], 3, 0, 0, 0⟩, 1040, 1050⟩]).map Prod.snd
        = some [(.ok, .errorTimeout)] := by
  refine ⟨⟨by decide, by decide, trivial⟩, by decide +kernel⟩

end

end Cant.Safety
