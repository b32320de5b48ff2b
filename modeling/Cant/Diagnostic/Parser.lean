/-
# `Parser` — parsing and formatting requests (`diag_parser.c`)

A frame is

    version 0x01   length   service   data ...   checksum

and a request keeps the data part in a block of the memory manager, so parsing goes
through `MemoryManager.alloc` and formatting reads the block back. `Memory_Alloc`
has no block of size zero to give, and so a frame without data is not accepted.

* `parse_format_parse`: what was accepted can be formatted, and parsing the result
  gives the same request, as long as the heap has a block to give.
* `formatted_length_iff`: `DiagParser_FormatRequest` writes the length of the data
  into the length byte, and `DiagParser_ParseRequest` compares that byte with the length
  of the frame minus three, which is one more. And a length close to `2 ^ 32` passes
  the size check because the sum wraps.

`DEVELOPMENT_BUILD` and `STRICT_CHECKSUM` are the two switches of `BuildFlags`. Of the log, the
length-mismatch warning is kept.
-/
import Cant.Memory.Client
import Cant.Network.Frame

namespace Cant.Diagnostic

open Word Cant.Memory List Option Buf

inductive ParserResult where
  | ok | invalidFormat | invalidLength | invalidService | invalidSubfunc | error
  deriving DecidableEq

structure DiagMessage where
  serviceId : UInt8
  subFunction : UInt8
  data : Nat
  length : Nat
  timestamp : Nat

structure BuildFlags where
  developmentBuild : Bool
  strictChecksum : Bool

/-- What a call of `DiagParser_ParseRequest` answers; `warned` is whether it logged a
length mismatch. -/
structure ParseOut where
  result : ParserResult
  message : Option DiagMessage
  warned : Bool

def calculateChecksum (data : List UInt8) : UInt8 := ~~~ Network.checksum8 data + 1

def serviceTable : List (UInt8 × Nat) :=
  [(0x10, 2), (0x11, 2), (0x27, 2), (0x22, 3), (0x2E, 4), (0xFD, 2)]

def lengthMismatch (data : List UInt8) : Option Bool := do
  let b ← data[1]?
  some (decide (b.toNat ≠ u32 ((data.length : Int) - 3)))

section

variable {m₁ : MemoryManager} {ptr : Nat} {subFunction : UInt8}
variable (flags : BuildFlags)

def validateMessageFormat (data : List UInt8) : Option Bool := do
  let version ← data[0]?
  if version ≠ 0x01 then some false
  else do
    let expected ← data[data.length - 1]?
    if expected ≠ calculateChecksum (data.take (data.length - 1)) ∧ flags.strictChecksum then
      some false
    else some true

/-- The search in `service_table`: how the request is refused, if it is. -/
def checkService (serviceId : UInt8) (length : Nat) : Option ParserResult :=
  match serviceTable.find? (·.1 = serviceId) with
  | some entry => if length < entry.2 then some .invalidLength else none
  | none =>
    if flags.developmentBuild ∧ serviceId ≥ 0xF0 then none else some .invalidService

/-- `parse_service_parameters`: the sub-function, if the parameters are good. -/
def parseServiceParameters (serviceId : UInt8) (data : List UInt8) : Option (Option UInt8) :=
  if serviceId = 0x10 ∨ serviceId = 0x11 ∨ serviceId = 0x27 then
    if data.length < 4 then some none else data[3]?.map some
  else if serviceId = 0x22 ∨ serviceId = 0x2E then
    if data.length < 5 then some none else some (some 0)
  else if serviceId = 0xFD then
    if flags.developmentBuild then some (some 0) else some none
  else if serviceId ≥ 0xF0 then some (some 0)
  else some none

/-- `DiagParser_ParseRequest` at clock `now`; `file` and `line` go to `Memory_Alloc`. -/
def parseRequest (m : MemoryManager) (file line now : Nat) (data : List UInt8) :
    Option (MemoryManager × ParseOut) :=
  if data.length < 4 then some (m, ⟨.invalidLength, none, false⟩)
  else do
    let warned ← lengthMismatch data
    let valid ← validateMessageFormat flags data
    if ¬ valid then some (m, ⟨.invalidFormat, none, warned⟩)
    else do
      let serviceId ← data[2]?
      match checkService flags serviceId data.length with
      | some refusal => some (m, ⟨refusal, none, warned⟩)
      | none => do
        match ← parseServiceParameters flags serviceId data with
        | none => some (m, ⟨.invalidSubfunc, none, warned⟩)
        | some subFunction => do
          let dataLength := data.length - 3 - 1
          let (m, ptr) ← m.alloc dataLength file line
          if ptr = 0 then some (m, ⟨.error, none, warned⟩)
          else
            let m := { m with mem := m.mem.store ptr ((data.drop 3).take dataLength) }
            some (m, ⟨.ok, some ⟨serviceId, subFunction, ptr, dataLength, now⟩, warned⟩)

/-- The copy of `DiagParser_FormatRequest`, which is left out when there is no data. -/
def copyData {n : Nat} (mem : Mem) (message : DiagMessage) (buffer : Buf UInt8 n) :
    Option (Buf UInt8 n) :=
  if message.length > 0 then buffer.blit 3 (mem.load message.data message.length)
  else some buffer

/-- `DiagParser_FormatRequest`: the buffer, and the length if the call answers true. -/
def formatRequest {n : Nat} (mem : Mem) (message : DiagMessage) (buffer : Buf UInt8 n) :
    Option (Buf UInt8 n × Option Nat) :=
  let totalLength := u32 (3 + message.length + 1)
  if totalLength > 4095 then some (buffer, none)
  else do
    let buffer ← buffer.blit 0 [0x01]
    let buffer ← buffer.blit 1 [UInt8.ofNat message.length]
    let buffer ← buffer.blit 2 [message.serviceId]
    let buffer ← copyData mem message buffer
    let summed ← buffer.slice 0 (u32 ((totalLength : Int) - 1))
    let buffer ← buffer.blit (u32 ((totalLength : Int) - 1)) [calculateChecksum summed]
    some (buffer, some totalLength)

/-! ## What is accepted -/

/-- The frame passes every check as a request for `serviceId` with `subFunction`. -/
structure Accepts (data : List UInt8) (serviceId subFunction : UInt8) : Prop where
  format : validateMessageFormat flags data = some true
  service : data[2]? = some serviceId
  known : checkService flags serviceId data.length = none
  parameters : parseServiceParameters flags serviceId data = some (some subFunction)

def requestData (data : List UInt8) : List UInt8 := (data.drop 3).take (data.length - 3 - 1)

@[simp] theorem length_requestData (data : List UInt8) :
    (requestData data).length = data.length - 3 - 1 := by
  rw [requestData, length_take, length_drop]
  omega

theorem load_requestData (mem : Mem) (ptr : Nat) (data : List UInt8) :
    (mem.store ptr (requestData data)).load ptr (data.length - 3 - 1) = requestData data := by
  have hload := Mem.load_store_self mem ptr (requestData data)
  rwa [length_requestData] at hload

variable {flags}

variable {data : List UInt8} {m : MemoryManager} {file line : Nat} {serviceId : UInt8}

/-- **A good frame is accepted** if the memory manager has a block for its data. -/
theorem parseRequest_of_accepts (now : Nat)
    (h : Accepts flags data serviceId subFunction) (hlen : 4 ≤ data.length)
    (halloc : m.alloc (data.length - 3 - 1) file line = some (m₁, ptr)) (hptr : ptr ≠ 0) :
    ∃ warned, parseRequest flags m file line now data =
      some ({ m₁ with mem := m₁.mem.store ptr (requestData data) },
        ⟨.ok, some ⟨serviceId, subFunction, ptr, data.length - 3 - 1, now⟩, warned⟩) := by
  obtain ⟨warned, hw⟩ : ∃ warned, lengthMismatch data = some warned := by
    rw [lengthMismatch, getElem?_eq_getElem (by omega : 1 < data.length)]
    exact ⟨_, rfl⟩
  refine ⟨warned, ?_⟩
  rw [parseRequest, if_neg (by omega)]
  simp [hw, h.format, h.service, h.known, h.parameters, halloc, if_neg hptr, requestData]

theorem accepts_of_parseRequest {m' : MemoryManager} {now : Nat} {out : ParseOut}
    (h : parseRequest flags m file line now data = some (m', out)) (hok : out.result = .ok) :
    4 ≤ data.length ∧ ∃ serviceId subFunction m₁ ptr,
      Accepts flags data serviceId subFunction ∧
      m.alloc (data.length - 3 - 1) file line = some (m₁, ptr) ∧ ptr ≠ 0 := by
  unfold parseRequest at h
  split at h
  case isTrue => cases h; cases hok
  case isFalse hlen =>
    obtain ⟨warned, -, h⟩ := bind_eq_some_iff.mp h
    obtain ⟨valid, hvalid, h⟩ := bind_eq_some_iff.mp h
    split at h
    case isTrue => cases h; cases hok
    case isFalse htrue =>
      obtain ⟨serviceId, hservice, h⟩ := bind_eq_some_iff.mp h
      split at h
      next refusal hknown =>
        cases h
        -- a refusal of `service_table` is never `ok`
        unfold checkService at hknown
        split at hknown <;> split at hknown <;> cases hknown <;> cases hok
      next hknown =>
        obtain ⟨parameters, hparameters, h⟩ := bind_eq_some_iff.mp h
        cases parameters with
        | none => cases h; cases hok
        | some subFunction =>
          obtain ⟨⟨m₁, ptr⟩, halloc, h⟩ := bind_eq_some_iff.mp h
          dsimp only at h
          split at h
          case isTrue => cases h; cases hok
          case isFalse hptr =>
            have hformat : validateMessageFormat flags data = some true := by
              rw [hvalid, not_not.mp htrue]
            exact ⟨by omega, serviceId, subFunction, m₁, ptr,
              ⟨hformat, hservice, hknown, hparameters⟩, halloc, hptr⟩

/-! ## What is formatted -/

def requestFrame (serviceId : UInt8) (data : List UInt8) : List UInt8 :=
  let front := 0x01 :: UInt8.ofNat data.length :: serviceId :: data
  front ++ [calculateChecksum front]

@[simp] theorem length_requestFrame (serviceId : UInt8) (data : List UInt8) :
    (requestFrame serviceId data).length = data.length + 4 := by
  simp [requestFrame]

theorem requestData_requestFrame (serviceId : UInt8) (data : List UInt8) :
    requestData (requestFrame serviceId data) = data := by
  rw [requestData]
  simp [requestFrame]

variable {n : Nat} {mem : Mem} {message : DiagMessage}

theorem formatRequest_answer (h : ¬ u32 (3 + message.length + 1) > 4095)
    {buffer out : Buf UInt8 n} {answer : Option Nat}
    (hf : formatRequest mem message buffer = some (out, answer)) :
    answer = some (u32 (3 + message.length + 1)) ∧
      u32 ((u32 (3 + message.length + 1) : Int) - 1) + 1 ≤ n := by
  replace hf := (if_neg h).symm.trans hf
  obtain ⟨b₀, -, hf⟩ := bind_eq_some_iff.mp hf
  obtain ⟨b₁, -, hf⟩ := bind_eq_some_iff.mp hf
  obtain ⟨b₂, -, hf⟩ := bind_eq_some_iff.mp hf
  obtain ⟨b₃, -, hf⟩ := bind_eq_some_iff.mp hf
  obtain ⟨summed, -, hf⟩ := bind_eq_some_iff.mp hf
  obtain ⟨b₄, hlast, hf⟩ := bind_eq_some_iff.mp hf
  cases hf
  exact ⟨rfl, blit_isSome.mp (by rw [hlast]; rfl)⟩

variable (mem message) in
theorem copyData_eq (buffer : Buf UInt8 n) (hn : message.length + 3 ≤ n) :
    ∃ out, copyData mem message buffer = some out ∧
      out.elems.take (3 + message.length) =
        buffer.elems.take 3 ++ mem.load message.data message.length := by
  rw [copyData]
  by_cases hpos : message.length > 0
  · rw [if_pos hpos]
    obtain ⟨out, hout, -⟩ := buffer.blit_eq_some 3 (mem.load message.data message.length)
      (by rw [Mem.length_load]; omega)
    have htake := take_of_blit hout
    rw [Mem.length_load] at htake
    exact ⟨out, hout, htake⟩
  · rw [if_neg hpos, Nat.eq_zero_of_not_pos hpos]
    exact ⟨buffer, rfl, by simp [Mem.load]⟩

variable (mem message) in
/-- **What `DiagParser_FormatRequest` writes**, into a buffer with room for it. -/
theorem formatRequest_eq (h : message.length + 4 ≤ 4095) (buffer : Buf UInt8 n)
    (hn : message.length + 4 ≤ n) :
    ∃ out, formatRequest mem message buffer = some (out, some (message.length + 4)) ∧
      out.elems.take (message.length + 4) =
        requestFrame message.serviceId (mem.load message.data message.length) := by
  have htotal : u32 (3 + message.length + 1) = message.length + 4 := by unfold u32; omega
  have hlast : u32 (((message.length + 4 : Nat) : Int) - 1) = 3 + message.length := by
    unfold u32
    omega
  obtain ⟨b₀, hb₀, -⟩ := buffer.blit_eq_some 0 [0x01] (by simp; omega)
  obtain ⟨b₁, hb₁, -⟩ := b₀.blit_eq_some 1 [UInt8.ofNat message.length] (by simp; omega)
  obtain ⟨b₂, hb₂, -⟩ := b₁.blit_eq_some 2 [message.serviceId] (by simp; omega)
  obtain ⟨b₃, hb₃, hfront⟩ := copyData_eq mem message b₂ (by omega)
  -- the front of the frame, cell after cell
  have h₀ := take_of_blit hb₀
  have h₁ := take_of_blit hb₁
  have h₂ := take_of_blit hb₂
  simp only [length_singleton, Nat.zero_add, Nat.reduceAdd] at h₀ h₁ h₂
  rw [h₂, h₁, h₀, take_zero] at hfront
  obtain ⟨out, hout, -⟩ := b₃.blit_eq_some (3 + message.length)
    [calculateChecksum (b₃.elems.take (3 + message.length))] (by simp; omega)
  have hframe := take_of_blit hout
  refine ⟨out, ?_, ?_⟩
  · rw [formatRequest, htotal]
    simp only [if_neg (by omega : ¬ message.length + 4 > 4095), hb₀, hb₁, hb₂, hb₃, hlast,
      slice_eq_some (by omega : 0 + (3 + message.length) ≤ n), drop_zero, hout,
      bind_eq_bind, bind_some]
  · rw [length_singleton, hfront] at hframe
    rw [Nat.add_comm message.length 4, show 4 + message.length = 3 + message.length + 1 by omega,
      hframe]
    simp [requestFrame]

/-! ## Parsing what was formatted -/

/-- Rebuilding an accepted frame from its service and data gives an accepted one,
whatever its length byte and checksum were. -/
theorem Accepts.rebuilt (h : Accepts flags data serviceId subFunction) (hlen : 5 ≤ data.length) :
    Accepts flags (requestFrame serviceId (requestData data)) serviceId subFunction := by
  have hsame : (requestFrame serviceId (requestData data)).length = data.length := by
    rw [length_requestFrame, length_requestData]
    omega
  have hfirst : (requestFrame serviceId (requestData data))[3]? = data[3]? := by
    obtain ⟨b, rest, hb⟩ := exists_cons_of_length_pos
      (by rw [length_requestData]; omega : 0 < (requestData data).length)
    have hhead : (requestData data)[0]? = data[3]? := by
      rw [requestData, getElem?_take_of_lt (by omega), getElem?_drop]
    rw [← hhead, hb]
    rfl
  refine ⟨?_, rfl, ?_, ?_⟩
  · rw [validateMessageFormat]
    simp [requestFrame]
  · rw [hsame]
    exact h.known
  · rw [parseServiceParameters, hsame, hfirst]
    exact h.parameters

theorem alloc_zero (h : m.alloc 0 file line = some (m₁, ptr)) : ptr = 0 := by
  rw [MemoryManager.alloc, if_pos (Or.inr rfl)] at h
  cases h
  rfl

/-- **A request survives formatting.** What `DiagParser_ParseRequest` accepts is formatted into any
buffer of 4095 bytes, and parsing the result, with any memory manager that has a block for it, gives
the same request. -/
theorem parse_format_parse {m m' : MemoryManager} {file line now : Nat} {data : List UInt8}
    {out : ParseOut} (hparse : parseRequest flags m file line now data = some (m', out))
    (hok : out.result = .ok) (hlen : data.length ≤ 4095) (hn : 4095 ≤ n) (buffer : Buf UInt8 n) :
    ∃ message frame length, out.message = some message ∧
      formatRequest m'.mem message buffer = some (frame, some length) ∧
      ∀ (m₂ m₃ : MemoryManager) (file₂ line₂ now₂ ptr : Nat),
        m₂.alloc message.length file₂ line₂ = some (m₃, ptr) → ptr ≠ 0 →
        ∃ m₄ out₂ message₂,
          parseRequest flags m₂ file₂ line₂ now₂ (frame.elems.take length) = some (m₄, out₂) ∧
          out₂.result = .ok ∧ out₂.message = some message₂ ∧
          message₂.serviceId = message.serviceId ∧
          message₂.subFunction = message.subFunction ∧
          message₂.length = message.length ∧
          m₄.mem.load message₂.data message₂.length = m'.mem.load message.data message.length := by
  obtain ⟨hlen₄, serviceId, subFunction, m₁, ptr₁, haccepts, halloc, hptr⟩ :=
    accepts_of_parseRequest hparse hok
  obtain ⟨warned, hsome⟩ := parseRequest_of_accepts now haccepts hlen₄ halloc hptr
  cases hsome.symm.trans hparse
  -- a frame without data has no block
  have hlen₅ : 5 ≤ data.length := by
    apply Nat.lt_of_le_of_ne hlen₄
    rintro hfour
    rw [← hfour] at halloc
    exact hptr (alloc_zero halloc)
  have hload := load_requestData m₁.mem ptr₁ data
  obtain ⟨frame, hformat, hframe⟩ := formatRequest_eq (m₁.mem.store ptr₁ (requestData data))
    ⟨serviceId, subFunction, ptr₁, data.length - 3 - 1, now⟩
    (by dsimp only; omega) buffer (by dsimp only; omega)
  rw [hload] at hframe
  refine ⟨_, frame, _, rfl, hformat, ?_⟩
  intro m₂ m₃ file₂ line₂ now₂ ptr halloc₂ hptr₂
  have hsame : (requestFrame serviceId (requestData data)).length - 3 - 1 =
      data.length - 3 - 1 := by
    rw [length_requestFrame, length_requestData]
    omega
  obtain ⟨warned₂, hsome₂⟩ := parseRequest_of_accepts now₂ (haccepts.rebuilt hlen₅)
    (by omega) (by rw [hsame]; exact halloc₂) hptr₂
  rw [hsame, requestData_requestFrame] at hsome₂
  rw [hframe]
  refine ⟨_, _, _, hsome₂, rfl, rfl, rfl, rfl, rfl, ?_⟩
  exact (load_requestData m₃.mem ptr data).trans hload.symm

theorem parse_format_parse_reset : ∃ m m' out message frame length m₄ out₂,
    MemoryManager.init heap256 (fun _ => 0) 4096 (fun _ => (0, false)) = some m ∧
    parseRequest ⟨false, true⟩ m 0 0 0 [0x01, 0x02, 0x11, 0x01, 0xEB] = some (m', out) ∧
    out.result = .ok ∧ out.message = some message ∧
    formatRequest m'.mem message (Buf.fill 4095 0) = some (frame, some length) ∧
    parseRequest ⟨false, true⟩ m 0 0 1 (frame.elems.take length) = some (m₄, out₂) ∧
    out₂.result = .ok := by
  obtain ⟨m, hinit⟩ := isSome_iff_exists.mp (by decide :
    (MemoryManager.init heap256 (fun _ => 0) 4096 (fun _ => (0, false))).isSome)
  have hfirst : ((MemoryManager.init heap256 (fun _ => 0) 4096 (fun _ => (0, false))).bind
      fun m => (parseRequest ⟨false, true⟩ m 0 0 0 [0x01, 0x02, 0x11, 0x01, 0xEB]).map
        fun r => (r.2.result, r.2.message.map fun message =>
          (m.alloc message.length 0 0).map Prod.snd)) = some (.ok, some (some 4144)) := by
    decide +kernel
  rw [hinit] at hfirst
  obtain ⟨⟨m', out⟩, hparse, hout⟩ := map_eq_some_iff.mp hfirst
  obtain ⟨hok, hblock⟩ := Prod.mk.inj hout
  obtain ⟨message, frame, length, hmessage, hformat, hagain⟩ :=
    parse_format_parse hparse hok (by decide) (Nat.le_refl 4095) (Buf.fill 4095 0)
  rw [hmessage] at hblock
  obtain ⟨⟨m₃, ptr⟩, halloc, hptr⟩ := map_eq_some_iff.mp (Option.some.inj hblock)
  obtain ⟨m₄, out₂, -, hparse₂, hok₂, -⟩ :=
    hagain m m₃ 0 0 1 ptr halloc (by cases hptr; decide)
  exact ⟨m, m', out, message, frame, length, m₄, out₂, hinit, hparse, hok, hmessage, hformat,
    hparse₂, hok₂⟩

/-! ## The length byte -/

/-- What the length byte of a frame is for: a call that does not answer false leaves a
frame of four bytes more than the message, at most 4095, in which
`DiagParser_ParseRequest` finds no length mismatch. -/
def LengthAgrees (mem : Mem) (message : DiagMessage) (buffer : Buf UInt8 n) : Prop :=
  (∃ out, formatRequest mem message buffer = some (out, none)) ∨
    ∃ out, formatRequest mem message buffer = some (out, some (message.length + 4)) ∧
      message.length + 4 ≤ 4095 ∧
      lengthMismatch (out.elems.take (message.length + 4)) = some false

theorem lengthMismatch_requestFrame (serviceId : UInt8) (data : List UInt8) :
    lengthMismatch (requestFrame serviceId data) = some true := by
  have hbyte : (requestFrame serviceId data)[1]? = some (UInt8.ofNat data.length) := rfl
  rw [lengthMismatch, hbyte, length_requestFrame]
  simp only [bind_eq_bind, bind_some, Option.some.injEq, decide_eq_true_eq, UInt8.toNat_ofNat']
  unfold u32
  omega

/-- **The length byte agrees exactly where there is no frame**, that is when the call
refuses the message as too long. A shorter message gives a mismatch, and one within
four of `2 ^ 32` is taken for a frame of at most three bytes. -/
theorem formatted_length_iff (hlen : message.length < 2 ^ 32) (buffer : Buf UInt8 n) :
    LengthAgrees mem message buffer ↔ 4092 ≤ message.length ∧ message.length < 2 ^ 32 - 4 := by
  constructor
  · intro h
    by_contra hshort
    have htotal : ¬ u32 (3 + message.length + 1) > 4095 := by
      unfold u32
      omega
    rcases h with ⟨out, hf⟩ | ⟨out, hf, hle, hagrees⟩
    · cases (formatRequest_answer htotal hf).1
    · obtain ⟨-, hroom⟩ := formatRequest_answer htotal hf
      have hn : message.length + 4 ≤ n := by
        unfold u32 at hroom
        omega
      obtain ⟨out', hf', hframe⟩ := formatRequest_eq mem message hle buffer hn
      cases hf'.symm.trans hf
      rw [hframe, lengthMismatch_requestFrame] at hagrees
      cases hagrees
  · rintro ⟨hmin, hmax⟩
    exact Or.inl ⟨buffer, if_pos (by unfold u32; omega)⟩

theorem formatted_length_refused :
    LengthAgrees (fun _ => 0) ⟨0x22, 0, 100, 4092, 0⟩ (Buf.fill 8 0) :=
  (formatted_length_iff (by decide) _).mpr (by decide)

/-- `11 22 33` for service `22` is formatted as `01 03 22 11 22 33 74`: the length byte
is 3, and a frame of seven bytes is compared with 4. -/
theorem three_bytes_mismatch :
    ¬ LengthAgrees (Mem.store (fun _ => 0) 100 [0x11, 0x22, 0x33]) ⟨0x22, 0, 100, 3, 0⟩
      (Buf.fill 7 0) := by
  rintro (⟨out, hf⟩ | ⟨out, hf, -, hagrees⟩)
  · cases hf
  · cases hf
    cases hagrees

end

end Cant.Diagnostic
