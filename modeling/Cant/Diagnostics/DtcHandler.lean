/-
# `DtcHandler` — trouble codes for DM1 (`diagnostics/dtc_handler.c`)

The array of records is two lists here: what is stored, and behind it the spare slots with what
was left in them. A new record takes over the status that its slot has, and is compared with it:
its first status may pass for no change, or count as a second occurrence. The timer for the aging
is never started (`dtc_create` leaves it at zero), so no record ages.

A record has four bits for the `fmi` in a DM1 message, which has five (`dm1_recovers_iff`).

The node is an argument of each `dtc_process`, as others use it in between. A message with two codes
has more than the eight bytes of a frame: `j1939_transmit` opens a session for it and sends nothing.
-/
import Cant.Lib.Past
import Cant.Lib.FinMap
import Cant.Protocols.J1939

namespace Cant.Diagnostics

open Keyed Past Protocols Run Word List Option

/-- `DTCRecord`, without `severity`, which nothing uses. -/
structure DTCRecord where
  spn : UInt32
  fmi : UInt8
  occurrenceCount : UInt8
  status : UInt8

abbrev Code := UInt32 × UInt8

def DTCRecord.code (r : DTCRecord) : Code := (r.spn, r.fmi)

def testFailed (status : UInt8) : Bool := status &&& 0x02 ≠ 0

def testNotCompleted (status : UInt8) : Bool := status &&& 0x10 ≠ 0

/-- `DTCConfig`, without `support_freezeframe`, which nothing reads. -/
structure DTCConfig where
  maxDtcs : Nat
  agingCycles : UInt32
  autoClear : Bool

structure DTCHandler where
  config : DTCConfig
  stored : List DTCRecord
  spare : List DTCRecord
  cycleCounter : UInt32
  agingTimer : Timer
  broadcastTimer : Timer
  changesPending : Bool

namespace DTCHandler

def create (config : DTCConfig) (now : Nat) : Option DTCHandler :=
  if config.maxDtcs = 0 then none
  else some ⟨config, [], List.replicate config.maxDtcs ⟨0, 0, 0, 0⟩, 0, .idle,
    .start (Timer.ticks now) 1000, false⟩

def findDtc (h : DTCHandler) (code : Code) : Option DTCRecord :=
  lookup DTCRecord.code code h.stored

def active (stored : List DTCRecord) : List DTCRecord := stored.filter fun r => testFailed r.status

def dm1Bytes (r : DTCRecord) : List UInt8 :=
  [.ofNat (r.spn.toNat &&& 0xFF), .ofNat ((r.spn.toNat >>> 8) &&& 0xFF),
    .ofNat (((r.spn.toNat >>> 16) &&& 0x0F) ||| (r.fmi.toNat <<< 4)), r.occurrenceCount]

def dm1 (stored : List DTCRecord) : List UInt8 := [0, 0] ++ (active stored).flatMap dm1Bytes

def updateDm1Message (h : DTCHandler) : DTCHandler × Option (List UInt8) :=
  if !h.changesPending then (h, none)
  else ({ h with changesPending := false }, some (dm1 h.stored))

/-- The aging loop at record `i`, for so many rounds; the record that was last stays behind. -/
def age (h : DTCHandler) : Nat → Nat → DTCHandler
  | 0, _ => h
  | rounds + 1, i =>
    match h.stored[i]? with
    | none => h
    | some r =>
      if h.config.autoClear && testNotCompleted r.status &&
          h.config.agingCycles ≤ h.cycleCounter then
        age { h with
          stored := h.stored.eraseIdx i
          spare := h.stored.getLast?.toList ++ h.spare
          changesPending := true } rounds i
      else age h rounds (i + 1)

def pgnDm1 : UInt32 := 0x00FECA

/-- The end of `update_dm1_message`; there is no result for more than `data` has room for. -/
def transmitDm1 (j1939 : J1939Handler) (taken : Bool) (now : Nat) (bytes : List UInt8) :
    Option (J1939Handler × List CANFrame) := do
  let data ← (Buf.fill 1785 0).blit 0 bytes
  let (j1939, sent, _) ← j1939.transmit (fun _ => taken) now
    ⟨pgnDm1, 3, 0, 0xFF, data, bytes.length⟩
  some (j1939, sent)

/-- `dtc_process`: `taken` says whether the CAN driver takes a frame. -/
def process (h : DTCHandler) (j1939 : J1939Handler) (taken : Bool) (now : Nat) :
    Option (DTCHandler × J1939Handler × List CANFrame) :=
  let h :=
    if h.agingTimer.expired (Timer.ticks now) then
      { age { h with cycleCounter := h.cycleCounter + 1 } h.stored.length 0 with
        agingTimer := .start (Timer.ticks now) 1000 }
    else h
  if h.broadcastTimer.expired (Timer.ticks now) then do
    let (h, message) := h.updateDm1Message
    let (j1939, sent) ←
      match message with
      | none => some (j1939, [])
      | some bytes => transmitDm1 j1939 taken now bytes
    some ({ h with broadcastTimer := .start (Timer.ticks now) 1000 }, j1939, sent)
  else some (h, j1939, [])

/-- The end of `dtc_set_status`, with the record. -/
def assign (status : UInt8) (r : DTCRecord) : DTCRecord :=
  if r.status ≠ status then
    { r with
      status
      occurrenceCount := if testFailed status then r.occurrenceCount + 1 else r.occurrenceCount }
  else r

def setStatus (h : DTCHandler) (code : Code) (status : UInt8) : DTCHandler × Bool :=
  match h.findDtc code with
  | some r =>
    ({ h with
      stored := update DTCRecord.code code (assign status) h.stored
      changesPending := h.changesPending || r.status ≠ status }, true)
  | none =>
    match h.spare with
    | [] => (h, false)
    | r :: spare =>
      ({ h with
        stored := h.stored ++ [assign status ⟨code.1, code.2, 1, r.status⟩]
        spare
        changesPending := h.changesPending || r.status ≠ status }, true)

def clearAll (h : DTCHandler) : DTCHandler :=
  { h with stored := [], spare := h.stored ++ h.spare, changesPending := true }

inductive Call where
  | setStatus (code : Code) (status : UInt8)
  | clearAll
  | process (j1939 : J1939Handler) (taken : Bool) (now : Nat)

/-- A call, with the frames that reach the bus. -/
def step (h : DTCHandler) : Call → Option (DTCHandler × List CANFrame)
  | .setStatus code status => some ((h.setStatus code status).1, [])
  | .clearAll => some (h.clearAll, [])
  | .process j1939 taken now => (h.process j1939 taken now).map fun (h, _, sent) => (h, sent)

/-! ## The message -/

def decode : List UInt8 → List Code
  | a :: b :: c :: _ :: rest => (word32 a b (c &&& 0x0F) 0, c >>> 4) :: decode rest
  | _ => []

theorem length_dm1 (stored : List DTCRecord) :
    (dm1 stored).length = 2 + 4 * (active stored).length := by
  simp [dm1, dm1Bytes, length_flatMap]
  omega

theorem decode_dm1Bytes {r : DTCRecord} (hspn : r.spn.toNat < 2 ^ 19) (rest : List UInt8) :
    decode (dm1Bytes r ++ rest) = (r.spn, .ofNat (r.fmi.toNat % 16)) :: decode rest := by
  have hbyte : ∀ n, (UInt8.ofNat n).toNat = n % 256 := fun _ => rfl
  have hthird : (((r.spn.toNat >>> 16) &&& 0x0F) ||| (r.fmi.toNat <<< 4)) =
      r.spn.toNat / 65536 % 16 + 16 * r.fmi.toNat := by
    have hlow : r.spn.toNat / 65536 % 16 < 2 ^ 4 := Nat.mod_lt _ (by decide)
    rw [and_0x0F, Nat.shiftRight_eq_div_pow]
    exact or_shiftLeft hlow
  refine congrArg (· :: decode rest) (Prod.ext (UInt32.toNat_inj.mp ?_) (UInt8.toNat_inj.mp ?_))
  · rw [toNat_word32, UInt8.toNat_and, hbyte, hbyte, hbyte, hthird, and_0xFF, and_0xFF]
    show _ + 65536 * (_ &&& 0x0F) + 16777216 * 0 = r.spn.toNat
    rw [and_0x0F]
    omega
  · rw [UInt8.toNat_shiftRight, hbyte, hbyte, hthird]
    show _ >>> 4 = _
    omega

theorem decode_flatMap {records : List DTCRecord} (hspn : ∀ r ∈ records, r.spn.toNat < 2 ^ 19) :
    decode (records.flatMap dm1Bytes) =
      records.map fun r => (r.spn, .ofNat (r.fmi.toNat % 16)) := by
  induction records with
  | nil => rfl
  | cons r records ih =>
    obtain ⟨hr, hrest⟩ := forall_mem_cons.mp hspn
    rw [flatMap_cons, decode_dm1Bytes hr, ih hrest, map_cons]

/-- **The DM1 message.** Its data fit their 1785 bytes exactly if at most 445 codes are active;
and the active codes can be read back, in order, exactly if each has an `fmi` below 16. -/
theorem dm1_recovers_iff {h : DTCHandler} {bytes : List UInt8}
    (hsent : h.updateDm1Message.2 = some bytes) (hspn : ∀ r ∈ h.stored, r.spn.toNat < 2 ^ 19) :
    (bytes.length ≤ 1785 ↔ (active h.stored).length ≤ 445) ∧
      (decode (bytes.drop 2) = (active h.stored).map DTCRecord.code ↔
        ∀ r ∈ active h.stored, r.fmi.toNat < 16) := by
  have hbytes : bytes = dm1 h.stored := by
    unfold updateDm1Message at hsent
    split at hsent
    · cases hsent
    · exact (Option.some.inj hsent).symm
  have hactive : ∀ r ∈ active h.stored, r.spn.toNat < 2 ^ 19 :=
    fun r hr => hspn r (mem_of_mem_filter hr)
  rw [hbytes, length_dm1]
  refine ⟨by omega, ?_⟩
  show decode ((active h.stored).flatMap dm1Bytes) = _ ↔ _
  rw [decode_flatMap hactive, map_inj_left]
  refine forall₂_congr fun r _ => ?_
  have hfmi := r.fmi.toNat_lt
  rw [DTCRecord.code, Prod.mk.injEq, and_iff_right rfl, ← UInt8.toNat_inj, UInt8.toNat_ofNat']
  omega

def withRecords (stored : List DTCRecord) : DTCHandler :=
  ⟨⟨3, 0, false⟩, stored, [], 0, .idle, .start 0 1000, true⟩

/-- Two active codes around one that is not. -/
theorem dm1_recovers_two :
    ∃ bytes, (withRecords [⟨0x7FFFF, 15, 1, 2⟩, ⟨8, 3, 1, 0⟩, ⟨7, 4, 9, 2⟩]).updateDm1Message.2 =
        some bytes ∧
      bytes.length ≤ 1785 ∧ decode (bytes.drop 2) = [(0x7FFFF, 15), (7, 4)] := by
  obtain ⟨hlength, hdecode⟩ := dm1_recovers_iff
    (h := withRecords [⟨0x7FFFF, 15, 1, 2⟩, ⟨8, 3, 1, 0⟩, ⟨7, 4, 9, 2⟩]) rfl (by decide)
  exact ⟨_, rfl, hlength.mpr (by decide), hdecode.mpr (by decide)⟩

/-- The `fmi` 1 and 17 give the same message. -/
theorem fmi_cut :
    (withRecords [⟨7, 17, 1, 2⟩]).updateDm1Message.2 =
      (withRecords [⟨7, 1, 1, 2⟩]).updateDm1Message.2 :=
  rfl

/-! ## The log -/

def codes (h : DTCHandler) : List Code := (active h.stored).map DTCRecord.code

abbrev Entry := Taken DTCHandler Call (List CANFrame)

/-- How often the status of a code has changed to a failed one since its record was created, and
whether it was created with a failed status that its slot had before. -/
def history (code : Code) : List Entry → Nat × Bool
  | [] => (0, false)
  | e :: past =>
    match e.input with
    | .setStatus k status =>
      if k = code then
        match e.pre.findDtc code with
        | none => (if testFailed status then 1 else 0,
            testFailed status && e.pre.spare.head?.map (·.status) = some status)
        | some r =>
          if testFailed status ∧ r.status ≠ status then
            ((history code past).1 + 1, (history code past).2)
          else history code past
      else history code past
    | _ => history code past

/-- The active codes of the last DM1 message that was sent. -/
def lastSent : List Entry → List Code
  | [] => []
  | e :: past => if e.output = [] then lastSent past else e.post.codes

def Differed : List Entry → Prop :=
  Since (fun e => e.output = []) fun e past =>
    ¬ ∀ code, code ∈ e.post.codes ↔ code ∈ lastSent (e :: past)

/-- A frame of the node that has the DM1 message of the records. -/
structure HasDm1 (j1939 : J1939Handler) (stored : List DTCRecord) (frame : CANFrame) : Prop where
  id : frame.id = (composeCanId 3 pgnDm1 j1939.currentAddress).toNat
  dlc : frame.dlc = (dm1 stored).length
  data : frame.data.elems.take (dm1 stored).length = dm1 stored

/-- If the active codes have differed from those sent, and the driver takes a frame, the next
`dtc_process` after the timer sends them. -/
def Informs (x : List Entry × DTCHandler) : Prop :=
  Differed x.1 → ∀ j1939 now, x.2.broadcastTimer.expired (Timer.ticks now) = true →
    ∃ h' j1939' frame, x.2.process j1939 true now = some (h', j1939', [frame]) ∧
      HasDm1 j1939 x.2.stored frame

/-- The count is right in a record that took over its first status from its slot, as long as it
is below 256, and in no other. -/
def Exact (x : List Entry × DTCHandler) : Prop :=
  ∀ r ∈ x.2.stored, r.occurrenceCount.toNat = (history r.code x.1).1 ↔
    (history r.code x.1).2 = true ∧ (history r.code x.1).1 < 256

/-- No second code becomes active, and one that does in a slot that had its status finds a change
pending; a frame is taken if the codes have differed. -/
def Announced (x : List Entry × DTCHandler) : Call → Prop
  | .setStatus code status =>
    testFailed status = true → x.2.findDtc code ≠ none ∨ x.2.spare ≠ [] →
      (∀ k ∈ x.2.codes, k = code) ∧
      (x.2.findDtc code = none → x.2.spare.head?.map (·.status) = some status →
        x.2.changesPending = true)
  | .process _ taken now =>
    Differed x.1 → x.2.broadcastTimer.expired (Timer.ticks now) = true → taken = true
  | .clearAll => True

/-- The count of a record starts at one too many, unless its slot had its status before. -/
def Counts (log : List Entry) (r : DTCRecord) : Prop :=
  r.occurrenceCount.toNat = ((history r.code log).1 + if (history r.code log).2 then 0 else 1) % 256

/-- What holds in every run; nothing is ever started for the aging. -/
structure Inv (x : List Entry × DTCHandler) : Prop where
  idle : x.2.agingTimer = .idle
  unique : Unique DTCRecord.code x.2.stored
  counts : ∀ r ∈ x.2.stored, Counts x.1 r

/-- What holds besides as long as every change is announced. -/
structure Quiet (x : List Entry × DTCHandler) : Prop where
  few : x.2.codes.length ≤ 1
  same : ¬ Differed x.1 → ∀ code, code ∈ x.2.codes ↔ code ∈ lastSent x.1
  settled : x.2.changesPending = false → ¬ Differed x.1

section

variable {e : Entry} {r : DTCRecord}
variable {x : List Entry × DTCHandler} {h h' : DTCHandler} {code : Code} {status : UInt8}
  {o : List CANFrame} {past : List Entry} {call : Call} {j1939 : J1939Handler} {taken : Bool}
  {now : Nat}

variable (j1939 taken now) in
theorem transmitDm1_eq {bytes : List UInt8} (hlength : bytes.length ≤ 8) :
    ∃ data : Buf UInt8 64, data.elems.take bytes.length = bytes ∧
      transmitDm1 j1939 taken now bytes = some (j1939, if taken then
        [⟨(composeCanId 3 pgnDm1 j1939.currentAddress).toNat, bytes.length, true,
          data⟩] else []) := by
  obtain ⟨message, hblit, -⟩ := (Buf.fill 1785 (0 : UInt8)).blit_eq_some 0 bytes (by omega)
  have hfront := Buf.take_of_blit hblit
  rw [take_zero, nil_append, Nat.zero_add] at hfront
  obtain ⟨data, hdata, hsend⟩ := j1939.transmit_short (fun _ => taken) now
    ⟨pgnDm1, 3, 0, 0xFF, message, bytes.length⟩ hlength
  refine ⟨data, hdata.trans hfront, ?_⟩
  cases taken <;> simp [transmitDm1, hblit, hsend, Isotp.canTransmit]

variable (j1939 taken now) in
theorem process_eq (hidle : h.agingTimer = .idle) :
    h.process j1939 taken now = if h.broadcastTimer.expired (Timer.ticks now) then
        (if h.changesPending then transmitDm1 j1939 taken now (dm1 h.stored) else
          some (j1939, [])).map fun (j1939, sent) =>
            ({ h with changesPending := false, broadcastTimer := .start (Timer.ticks now) 1000 },
              j1939, sent)
      else some (h, j1939, []) := by
  have hexpired : h.agingTimer.expired (Timer.ticks now) = false := by rw [hidle]; rfl
  unfold process updateDm1Message
  rw [if_neg (Bool.eq_false_iff.mp hexpired)]
  cases hpending : h.changesPending with
  | false => simp [hpending]
  | true => simp [hpending, map_eq_bind]

theorem step_process (hidle : h.agingTimer = .idle)
    (hstep : h.step (.process j1939 taken now) = some (h', o)) :
    (h.broadcastTimer.expired (Timer.ticks now) = false ∧ h' = h ∧ o = []) ∨
      h.broadcastTimer.expired (Timer.ticks now) = true ∧
      h' = { h with changesPending := false, broadcastTimer := .start (Timer.ticks now) 1000 } ∧
      (o = [] ∧ h.changesPending = false ∨
        h.changesPending = true ∧
          ∃ j1939', transmitDm1 j1939 taken now (dm1 h.stored) = some (j1939', o)) := by
  obtain ⟨⟨h₁, j1939', sent⟩, hprocess, heq⟩ := map_eq_some_iff.mp hstep
  cases heq
  rw [process_eq _ _ _ hidle] at hprocess
  split at hprocess
  case isTrue hexpired =>
    obtain ⟨⟨j1939₁, sent₁⟩, hsent, heq⟩ := map_eq_some_iff.mp hprocess
    cases heq
    refine .inr ⟨hexpired, rfl, ?_⟩
    split at hsent
    case isTrue hpending => exact .inr ⟨hpending, _, hsent⟩
    case isFalse hpending =>
      cases hsent
      exact .inl ⟨rfl, Bool.eq_false_iff.mpr hpending⟩
  case isFalse hexpired =>
    cases hprocess
    exact .inl ⟨Bool.eq_false_iff.mpr hexpired, rfl, rfl⟩

theorem assign_code (status : UInt8) (r : DTCRecord) : (assign status r).code = r.code := by
  unfold assign
  split <;> rfl

theorem counts_assign (he : e.input = .setStatus r.code status)
    (hfind : e.pre.findDtc r.code = some r) (hr : Counts past r) :
    Counts (e :: past) (assign status r) := by
  unfold Counts at hr ⊢
  rw [assign_code]
  simp only [history, he, hfind, if_true, assign]
  by_cases hsame : r.status = status
  · simpa [hsame] using hr
  · cases testFailed status
    · simpa [hsame] using hr
    · simp [hsame, UInt8.toNat_add, hr]
      omega

theorem counts_created {spare : List DTCRecord}
    (he : e.input = .setStatus code status) (hfind : e.pre.findDtc code = none)
    (hspare : e.pre.spare = r :: spare) :
    Counts (e :: past) (assign status ⟨code.1, code.2, 1, r.status⟩) := by
  unfold Counts
  rw [assign_code]
  simp only [history, he, DTCRecord.code, hfind, hspare, if_true, assign]
  by_cases hsame : r.status = status
  · cases htest : testFailed status <;> simp [hsame]
  · cases testFailed status <;> simp [hsame]

theorem Inv.setStatus (hx : Inv x) (hpre : e.pre = x.2)
    (he : e.input = .setStatus code status) : Inv (e :: x.1, (x.2.setStatus code status).1) := by
  have hother : ∀ r ∈ x.2.stored, r.code ≠ code → Counts (e :: x.1) r := by
    intro r hr hne
    have hpast : history r.code (e :: x.1) = history r.code x.1 := by
      rw [history, he]
      exact if_neg (Ne.symm hne)
    unfold Counts
    rw [hpast]
    exact hx.counts r hr
  unfold DTCHandler.setStatus
  split
  case h_1 r hfind =>
    obtain ⟨hr, rfl⟩ := mem_of_lookup hfind
    obtain ⟨rest, hperm, hput⟩ := update_perm hfind
    have hnew := (nodup_cons.mp ((hperm.map DTCRecord.code).nodup_iff.mp hx.unique)).1
    refine ⟨hx.idle, hx.unique.update (assign_code status), fun r' hr' => ?_⟩
    rcases mem_cons.mp ((hput _).mem_iff.mp hr') with rfl | hrest
    · exact counts_assign he (hpre ▸ hfind) (hx.counts r hr)
    · refine hother r' (hperm.mem_iff.mpr (mem_cons_of_mem r hrest)) fun heq => hnew ?_
      exact heq ▸ mem_map_of_mem hrest
  case h_2 hfind =>
    have hne : ∀ r ∈ x.2.stored, r.code ≠ code := fun r hr heq =>
      lookup_eq_none_iff.mp hfind (heq ▸ mem_map_of_mem hr)
    split
    · exact ⟨hx.idle, hx.unique, fun r hr => hother r hr (hne r hr)⟩
    case h_2 r spare hspare =>
      refine ⟨hx.idle, hx.unique.append ?_, fun r' hr' => ?_⟩
      · rw [assign_code]
        exact hfind
      · rcases mem_append.mp hr' with hold | hnew
        · exact hother r' hold (hne r' hold)
        · rw [mem_singleton.mp hnew]
          exact counts_created he (hpre ▸ hfind) (hpre ▸ hspare)

theorem Inv.step (hx : Inv x) (hstep : x.2.step call = some (h', o)) :
    Inv (⟨x.2, call, o, h'⟩ :: x.1, h') := by
  cases call with
  | setStatus code status =>
    cases hstep
    exact hx.setStatus rfl rfl
  | clearAll =>
    cases hstep
    exact ⟨hx.idle, nodup_nil, nofun⟩
  | process j1939 taken now =>
    rcases step_process hx.idle hstep with ⟨-, rfl, -⟩ | ⟨-, rfl, -⟩
    · exact ⟨hx.idle, hx.unique, hx.counts⟩
    · exact ⟨hx.idle, hx.unique, hx.counts⟩

theorem Inv.exact (hx : Inv x) : Exact x := by
  intro r hr
  rw [hx.counts r hr]
  split
  case isTrue hreused =>
    rw [hreused, and_iff_right rfl]
    omega
  case isFalse hnot =>
    refine iff_of_false ?_ fun hboth => hnot hboth.1
    omega

/-! ### Which codes are active -/

theorem mem_codes {k : Code} : k ∈ h.codes ↔ ∃ r ∈ h.stored, testFailed r.status = true ∧
    r.code = k := by
  simp [codes, active, and_assoc]

theorem status_assign (status : UInt8) (r : DTCRecord) : (assign status r).status = status := by
  unfold assign
  split
  · rfl
  case isFalse hsame => exact not_not.mp hsame

theorem mem_codes_setStatus (hunique : Unique DTCRecord.code h.stored) {k : Code} :
    k ∈ (h.setStatus code status).1.codes ↔
      if k = code ∧ (h.findDtc code ≠ none ∨ h.spare ≠ []) then testFailed status = true
      else k ∈ h.codes := by
  unfold DTCHandler.setStatus
  split
  case h_1 r hfind =>
    obtain ⟨-, rfl⟩ := mem_of_lookup hfind
    obtain ⟨rest, hperm, hput⟩ := update_perm hfind
    have hnew := (nodup_cons.mp ((hperm.map DTCRecord.code).nodup_iff.mp hunique)).1
    have hrest : ∀ r' ∈ rest, r'.code ≠ r.code := fun r' hr' heq =>
      hnew (heq ▸ mem_map_of_mem hr')
    simp only [mem_codes, (hput _).mem_iff, hperm.mem_iff, mem_cons, exists_eq_or_imp,
      assign_code, status_assign]
    grind
  case h_2 hfind =>
    have hne : ∀ r ∈ h.stored, r.code ≠ code := fun r hr heq =>
      lookup_eq_none_iff.mp hfind (heq ▸ mem_map_of_mem hr)
    split
    case h_1 hspare => simp [hfind, hspare]
    case h_2 r spare hspare =>
      have hcode : (assign status ⟨code.1, code.2, 1, r.status⟩).code = code := assign_code status _
      simp only [mem_codes, mem_append, mem_singleton]
      grind [status_assign]

theorem mem_codes_found (hunique : Unique DTCRecord.code h.stored)
    (hfind : h.findDtc code = some r) : code ∈ h.codes ↔ testFailed r.status = true := by
  obtain ⟨hr, hcode⟩ := mem_of_lookup hfind
  refine mem_codes.trans ⟨?_, fun hfailed => ⟨r, hr, hfailed, hcode⟩⟩
  rintro ⟨r', hr', hfailed, rfl⟩
  cases mem_unique hfind (hunique.lookup_of_mem hr')
  exact hfailed

theorem not_mem_codes (hfind : h.findDtc code = none) : code ∉ h.codes := by
  intro hmem
  obtain ⟨r, hr, -, hcode⟩ := mem_codes.mp hmem
  exact lookup_eq_none_iff.mp hfind (hcode ▸ mem_map_of_mem hr)

/-- Without a change pending, the code had the status, or the slot that it gets. -/
theorem settled_setStatus (hpending : (h.setStatus code status).1.changesPending = false) :
    h.changesPending = false ∧ ∀ r ∈ (h.findDtc code).or h.spare.head?, r.status = status := by
  unfold DTCHandler.setStatus at hpending
  split at hpending
  case h_1 r hfind => simpa [hfind] using hpending
  case h_2 hfind =>
    split at hpending
    case h_1 hspare => simpa [hfind, hspare] using hpending
    case h_2 hspare => simpa [hfind, hspare] using hpending

theorem length_codes_le (hunique : Unique DTCRecord.code h.stored) {l : List Code}
    (hsub : h.codes ⊆ l) : h.codes.length ≤ l.length := by
  have hnodup : h.codes.Nodup := List.Nodup.sublist (filter_sublist.map _) hunique
  exact (subperm_of_subset hnodup hsub).length_le

/-! ### As long as changes are announced -/

theorem Quiet.short (hx : Quiet x) : (dm1 x.2.stored).length ≤ 8 := by
  have hfew := hx.few
  rw [codes, length_map] at hfew
  rw [length_dm1]
  omega

theorem Quiet.silent (hx : Quiet x) (hfew : h'.codes.length ≤ 1)
    (hsettled : h'.changesPending = false →
      ¬ Differed x.1 ∧ ∀ code, code ∈ h'.codes ↔ code ∈ x.2.codes) :
    Quiet (⟨x.2, call, [], h'⟩ :: x.1, h') := by
  refine ⟨hfew, fun hnot => not_not.mp fun hdiffers => hnot (.inl hdiffers), ?_⟩
  intro hpending
  obtain ⟨hsame, hcodes⟩ := hsettled hpending
  rintro (hdiffers | ⟨-, hbefore⟩)
  · exact hdiffers fun code => (hcodes code).trans (hx.same hsame code)
  · exact hsame hbefore

section

variable (hinv : Inv x) (hx : Quiet x)
include hinv hx

theorem Quiet.setStatus (hok : Announced x (.setStatus code status)) :
    Quiet (⟨x.2, .setStatus code status, [], (x.2.setStatus code status).1⟩ :: x.1,
      (x.2.setStatus code status).1) := by
  have hunique : Unique DTCRecord.code (x.2.setStatus code status).1.stored :=
    (hinv.setStatus (e := ⟨x.2, .setStatus code status, [], x.2⟩) rfl rfl).unique
  refine hx.silent ?_ fun hpending => ?_
  · by_cases hnew : testFailed status = true ∧ (x.2.findDtc code ≠ none ∨ x.2.spare ≠ [])
    · have hall := (hok hnew.1 hnew.2).1
      refine length_codes_le (l := [code]) hunique fun k hk => mem_singleton.mpr ?_
      rw [mem_codes_setStatus hinv.unique] at hk
      grind
    · refine (length_codes_le hunique fun k hk => ?_).trans hx.few
      rw [mem_codes_setStatus hinv.unique] at hk
      grind
  · obtain ⟨hbefore, hstatus⟩ := settled_setStatus hpending
    refine ⟨hx.settled hbefore, fun k => ?_⟩
    rw [mem_codes_setStatus hinv.unique]
    split
    case isTrue hnew =>
      obtain ⟨rfl, hroom⟩ := hnew
      cases hfind : x.2.findDtc k with
      | some r =>
        rw [hfind] at hstatus
        rw [mem_codes_found hinv.unique hfind, hstatus r rfl]
      | none =>
        refine iff_of_false (fun hfailed => ?_) (not_mem_codes hfind)
        have hslot : x.2.spare.head?.map (·.status) = some status := by
          obtain ⟨slot, spare, hspare⟩ := exists_cons_of_ne_nil (hroom.resolve_left (· hfind))
          rw [hfind, hspare] at hstatus
          rw [hspare]
          exact congrArg some (hstatus slot rfl)
        cases hbefore.symm.trans ((hok hfailed hroom).2 hfind hslot)
    case isFalse => rfl

theorem Quiet.step (hok : Announced x call)
    (hstep : x.2.step call = some (h', o)) : Quiet (⟨x.2, call, o, h'⟩ :: x.1, h') := by
  cases call with
  | setStatus code status =>
    cases hstep
    exact hx.setStatus hinv hok
  | clearAll =>
    cases hstep
    exact hx.silent (Nat.zero_le 1) nofun
  | process j1939 taken now =>
    rcases step_process hinv.idle hstep with
      ⟨-, rfl, rfl⟩ | ⟨hexpired, rfl, ⟨rfl, hpending⟩ | ⟨-, j1939', hsent⟩⟩
    · exact hx.silent hx.few fun hpending => ⟨hx.settled hpending, fun _ => Iff.rfl⟩
    · exact hx.silent hx.few fun _ => ⟨hx.settled hpending, fun _ => Iff.rfl⟩
    · obtain ⟨data, -, heq⟩ := transmitDm1_eq j1939 taken now hx.short
      cases heq.symm.trans hsent
      cases taken with
      | false =>
        exact hx.silent hx.few fun _ =>
          ⟨fun hdiffered => Bool.false_ne_true (hok hdiffered hexpired), fun _ => Iff.rfl⟩
      | true =>
        refine ⟨hx.few, fun _ _ => Iff.rfl, fun _ => ?_⟩
        rintro (hdiffers | ⟨hnone, -⟩)
        · exact hdiffers fun _ => Iff.rfl
        · cases hnone

theorem informs : Informs x := by
  intro hdiffered j1939 now hexpired
  have hpending : x.2.changesPending = true :=
    Bool.not_eq_false _ ▸ fun hnot => hx.settled hnot hdiffered
  obtain ⟨data, hdata, heq⟩ := transmitDm1_eq j1939 true now hx.short
  have hprocess := process_eq j1939 true now hinv.idle
  rw [if_pos hexpired, if_pos hpending, heq] at hprocess
  exact ⟨_, _, _, hprocess, rfl, rfl, hdata⟩

theorem step_defined : ∀ call, ∃ h' o, x.2.step call = some (h', o)
  | .setStatus .. => ⟨_, _, rfl⟩
  | .clearAll => ⟨_, _, rfl⟩
  | .process j1939 taken now => by
    obtain ⟨data, -, heq⟩ := transmitDm1_eq j1939 taken now hx.short
    rw [DTCHandler.step, process_eq _ _ _ hinv.idle, heq]
    split
    · split <;> exact ⟨_, _, rfl⟩
    · exact ⟨_, _, rfl⟩

end

theorem create_ready {config : DTCConfig} (hcreate : create config now = some h) :
    Inv ([], h) ∧ Quiet ([], h) := by
  unfold create at hcreate
  split at hcreate
  · cases hcreate
  · cases hcreate
    exact ⟨⟨rfl, nodup_nil, nofun⟩, ⟨Nat.zero_le 1, fun _ _ => Iff.rfl, fun _ => id⟩⟩

end

/-- **The codes, over every run.** `occurrence_count` is how often a code has come to a failed
status only in a record whose slot had that status when it was created, and below 256. A change of
the active codes is sent at the next expiration of the timer as long as changes are `Announced`. -/
theorem faults_reported {config : DTCConfig} {h : DTCHandler} {now : Nat}
    (hcreate : create config now = some h) (calls : List Call) :
    (∀ x outputs, run (logged step) ([], h) calls = some (x, outputs) → Exact x) ∧
      (Along (logged step) Announced ([], h) calls →
        Throughout (logged step) Informs ([], h) calls) := by
  obtain ⟨hinv, hquiet⟩ := create_ready hcreate
  constructor
  · intro x outputs hrun
    refine (run_inv Inv (fun x call x' o hx hlogged => ?_) hinv hrun).exact
    obtain ⟨h', hstep, rfl⟩ := logged_iff.mp hlogged
    exact hx.step hstep
  · refine throughout_of_along (fun x => Inv x ∧ Quiet x) (fun x hx => informs hx.1 hx.2) ?_ calls
      ⟨hinv, hquiet⟩
    rintro x call ⟨hx, hquiet⟩ hok
    obtain ⟨h', o, hstep⟩ := step_defined hx hquiet call
    exact ⟨_, _, logged_eq hstep, hx.step hstep, hquiet.step hx hok hstep⟩

def oneSlot : DTCHandler := ⟨⟨1, 0, false⟩, [], [⟨0, 0, 0, 0⟩], 0, .idle, .start 0 1000, false⟩

theorem fault_reported_once :
    create ⟨1, 0, false⟩ 0 = some oneSlot ∧
      Throughout (logged step) Informs ([], oneSlot)
        [.setStatus (7, 1) 2, .process engine true 1000, .setStatus (7, 1) 0,
          .process engine true 2000] := by
  have hcreate : create ⟨1, 0, false⟩ 0 = some oneSlot := rfl
  refine ⟨hcreate, (faults_reported hcreate _).2 ?_⟩
  refine (along_cons_of rfl).mpr
    ⟨fun _ _ => ⟨forall_mem_nil _, fun _ h => absurd h (by decide)⟩, ?_⟩
  refine (along_cons_of rfl).mpr ⟨fun _ _ => rfl, ?_⟩
  refine (along_cons_of rfl).mpr ⟨fun h => absurd h (by decide), ?_⟩
  exact (along_cons_of rfl).mpr ⟨fun _ _ => rfl, trivial⟩

/-- The first failure counts twice. A code that fails in the slot of a cleared one counts once,
and is not reported. -/
theorem fault_unreported :
    (run step oneSlot [.setStatus (7, 1) 2]).map (·.1.stored) = some [⟨7, 1, 2, 2⟩] ∧
      ¬ Throughout (logged step) Informs ([], oneSlot)
        [.setStatus (7, 1) 2, .process engine true 1000, .clearAll, .process engine true 2000,
          .setStatus (8, 1) 2] := by
  refine ⟨rfl, fun h => ?_⟩
  have hdiffered : ¬ ∀ code, code ∈ [((8, 1) : Code)] ↔ code ∈ [] := fun hall =>
    absurd ((hall (8, 1)).mp (by decide)) (by decide)
  obtain ⟨h', j1939', frame, hlast, -⟩ := h.last rfl (.inl hdiffered) engine 3000 rfl
  cases hlast

end DTCHandler

end Cant.Diagnostics
