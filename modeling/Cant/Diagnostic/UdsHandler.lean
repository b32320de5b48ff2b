/-
# `UdsHandler` — the request dispatcher (`uds_handler.c`)

A call is made at a clock reading `now` of `system_ticks`, and lists the callbacks it
calls. A request comes with the bytes its `data` points to, at least `length` of them,
and a response with a data area of at least 19 bytes, the most a read writes; both are
fields of `UdsRequest` and `UdsResponse`, so every call is defined.

The seed is `start_time` of a local `Timer` that nothing sets. What the stack holds there is the
argument `stack`.
-/
import Cant.Lib.Run
import Cant.Utils.Timer
import Cant.Diagnostic.Uds

namespace Cant.Diagnostic.Uds

open Word

structure UdsConfig where
  s3ClientMs : Nat
  securityDelayMs : Nat
  securityAttemptLimit : UInt8
  enableSessionTimeout : Bool
  sessionChangeCallback : Bool
  securityCallback : Bool

/-- A request: `UdsMessage` with the bytes `data` points to. -/
structure UdsRequest where
  serviceId : UdsServiceId
  subFunction : UInt8
  data : List UInt8
  length : Nat
  readable : length ≤ data.length

/-- A response: `UdsMessage` with the bytes `data` points to. -/
structure UdsResponse where
  serviceId : Nat
  subFunction : UInt8
  data : List UInt8
  length : Nat

/-- The response a caller passes, with room for the longest answer. -/
structure UdsResponseArea where
  response : UdsResponse
  room : 19 ≤ response.data.length

inductive UdsCallback where
  | sessionChange (old new : UdsSessionType)
  | security (level : UInt8) (accessGranted : Bool)

def serviceAccess : List (UdsServiceId × Nat) :=
  [(.diagnosticSessionControl, 0x0F), (.ecuReset, 0x0E), (.securityAccess, 0x0E),
   (.communicationControl, 0x0C), (.testerPresent, 0x0F), (.readDataByIdentifier, 0x0F),
   (.writeDataByIdentifier, 0x0C), (.routineControl, 0x0E), (.requestDownload, 0x02),
   (.transferData, 0x02), (.requestTransferExit, 0x02)]

def validateServiceAccess (serviceId : UdsServiceId) (session : UdsSessionType) : Bool :=
  match serviceAccess.find? (·.1 = serviceId) with
  | some entry => decide (entry.2 &&& (1 <<< (session.code - 1)) ≠ 0)
  | none => false

/-- The handler, with `security_seed` and `expected_key`. -/
structure UdsHandler where
  config : UdsConfig
  currentSession : UdsSessionType
  sessionTimer : Timer
  securityDelayTimer : Timer
  securityAttemptCount : UInt8
  securityLevel : UInt8
  securityLocked : Bool
  initialized : Bool
  securitySeed : UInt32
  expectedKey : UInt32

/-- The positive response to a service: `service_id + 0x40`. -/
def UdsResponse.acknowledge (r : UdsResponse) (request : UdsRequest) (length : Nat) : UdsResponse :=
  { r with
    serviceId := request.serviceId.code + 0x40, subFunction := request.subFunction,
    length := length }

/-- `process_ecu_reset`: nothing is scheduled, and an unknown kind of reset is answered
after the response was filled in. -/
def processEcuReset (request : UdsRequest) (response : UdsResponse) : UdsResponse × Bool :=
  if request.length ≠ 2 then (response, false)
  else (response.acknowledge request 2, decide (request.subFunction ∈ [(0x01 : UInt8), 0x02, 0x03]))

/-- The bytes `process_read_data_by_identifier` has for an identifier. -/
def readBuffer : Nat → Option (List UInt8)
  | 0xF190 => some ("SAMPLE1234567890".toList.map (fun c => UInt8.ofNat c.toNat) ++ [0])
  | 0xF19E => some ("ECU123456".toList.map (fun c => UInt8.ofNat c.toNat) ++ [0])
  | 0xF197 => some ("HW-V1.0".toList.map (fun c => UInt8.ofNat c.toNat))
  | 0xF195 => some ("SW-V1.0".toList.map (fun c => UInt8.ofNat c.toNat))
  | _ => none

/-- `process_read_data_by_identifier`; the identifier is read in the byte order of the
machine. -/
def processReadDataByIdentifier (request : UdsRequest) (response : UdsResponse) :
    UdsResponse × Bool :=
  if request.length < 3 then (response, false)
  else
    let identifier := request.data.getD 1 0 :: [request.data.getD 2 0]
    match readBuffer ((request.data.getD 1 0).toNat + 256 * (request.data.getD 2 0).toNat) with
    | none => (response, false)
    | some bytes =>
      ({ response with
        serviceId := request.serviceId.code + 0x40
        data := identifier ++ bytes ++ response.data.drop (2 + bytes.length)
        length := 2 + bytes.length }, true)

/-- `memcpy(&received_key, &request->data[2], 4)`. -/
def UdsRequest.key (request : UdsRequest) : UInt32 :=
  word32 (request.data.getD 2 0) (request.data.getD 3 0) (request.data.getD 4 0)
    (request.data.getD 5 0)

structure UdsOut where
  answer : UdsResponseCode
  response : Option UdsResponse
  callbacks : List UdsCallback

namespace UdsHandler

def calculateKey (seed : UInt32) : UInt32 :=
  ((seed ^^^ 0x55AA55AA) + 0x12345678) ^^^ 0xAA55AA55

def sessionCallbacks (s : UdsHandler) (new : UdsSessionType) : List UdsCallback :=
  if s.config.sessionChangeCallback then [.sessionChange s.currentSession new] else []

def securityCallbacks (s : UdsHandler) (level : UInt8) (granted : Bool) : List UdsCallback :=
  if s.config.securityCallback then [.security level granted] else []

/-- A session is entered: security starts over. -/
def enter (s : UdsHandler) (session : UdsSessionType) : UdsHandler :=
  { s with
    currentSession := session, securityLevel := 0, securityLocked := false
    securityAttemptCount := 0 }

def processDiagnosticSessionControl (s : UdsHandler) (request : UdsRequest)
    (response : UdsResponse) : UdsHandler × UdsResponse × Bool × List UdsCallback :=
  if request.length ≠ 2 then (s, response, false, [])
  else
    match UdsSessionType.ofCode request.subFunction.toNat with
    | none => (s, response, false, [])
    | some session =>
      (s.enter session, response.acknowledge request 2, true, s.sessionCallbacks session)

/-- The seed request of `process_security_access`. -/
def issueSeed (s : UdsHandler) (stack : UInt32) : UdsHandler :=
  { s with
    securitySeed := stack ^^^ 0xA5A5A5A5
    expectedKey := calculateKey (stack ^^^ 0xA5A5A5A5) }

def seedBytes (seed : UInt32) : List UInt8 :=
  [seed.toUInt8, (seed >>> 8).toUInt8, (seed >>> 16).toUInt8, (seed >>> 24).toUInt8]

def grant (s : UdsHandler) (subFunction : UInt8) : UdsHandler :=
  { s with securityLevel := subFunction - 1, securityAttemptCount := 0 }

def refuse (s : UdsHandler) (now : Nat) : UdsHandler :=
  let s := { s with securityAttemptCount := s.securityAttemptCount + 1 }
  if s.securityAttemptCount ≥ s.config.securityAttemptLimit then
    { s with securityLocked := true, securityDelayTimer := .start now s.config.securityDelayMs }
  else s

def unlock (s : UdsHandler) : UdsHandler :=
  if s.securityLocked then { s with securityLocked := false, securityAttemptCount := 0 } else s

def processSecurityAccess (s : UdsHandler) (now : Nat) (stack : UInt32) (request : UdsRequest)
    (response : UdsResponse) : UdsHandler × UdsResponse × Bool × List UdsCallback :=
  if request.length < 2 then (s, response, false, [])
  else if s.securityLocked ∧ ¬ s.securityDelayTimer.expired now then (s, response, false, [])
  else
    let s := s.unlock
    if request.subFunction &&& 0x01 = 1 then
      (s.issueSeed stack, { response.acknowledge request 6 with
        data := seedBytes (s.issueSeed stack).securitySeed }, true, [])
    else if request.length ≠ 6 then (s, response, false, [])
    else if request.key = s.expectedKey then
      (s.grant request.subFunction, response.acknowledge request 2, true,
        s.securityCallbacks (request.subFunction - 1) true)
    else (s.refuse now, response, false, s.securityCallbacks (request.subFunction - 1) false)

def init (s : UdsHandler) (now : Nat) (config : UdsConfig) : UdsHandler :=
  { s.enter .default with
    config := config
    sessionTimer := if config.enableSessionTimeout then .start now config.s3ClientMs
      else s.sessionTimer
    initialized := true }

def touch (s : UdsHandler) (now : Nat) : UdsHandler :=
  if s.config.enableSessionTimeout then
    { s with sessionTimer := .start now s.config.s3ClientMs }
  else s

/-- The switch of `UDS_Handler_ProcessRequest`. -/
def dispatch (s : UdsHandler) (now : Nat) (stack : UInt32) (request : UdsRequest)
    (response : UdsResponse) : UdsHandler × UdsResponse × Bool × List UdsCallback :=
  match request.serviceId with
  | .diagnosticSessionControl => s.processDiagnosticSessionControl request response
  | .securityAccess => s.processSecurityAccess now stack request response
  | .ecuReset => (s, (processEcuReset request response).1, (processEcuReset request response).2, [])
  | .readDataByIdentifier =>
    (s, (processReadDataByIdentifier request response).1,
      (processReadDataByIdentifier request response).2, [])
  | .testerPresent => (s, response.acknowledge request 2, true, [])
  | _ => (s, response, false, [])

/-- What `UDS_Handler_ProcessRequest` makes of the `bool` of a service. -/
def answered (r : UdsHandler × UdsResponse × Bool × List UdsCallback) : UdsHandler × UdsOut :=
  (r.1, ⟨if r.2.2.1 then .positive else .serviceNotSupported, some r.2.1, r.2.2.2⟩)

def processRequest (s : UdsHandler) (now : Nat) (stack : UInt32) (request : UdsRequest)
    (area : UdsResponseArea) : UdsHandler × UdsOut :=
  if ¬ s.initialized then (s, ⟨.generalReject, some area.response, []⟩)
  else if ¬ validateServiceAccess request.serviceId s.currentSession then
    (s.touch now, ⟨.serviceNotSupported, some area.response, []⟩)
  else answered ((s.touch now).dispatch now stack request area.response)

def processTimeout (s : UdsHandler) (now : Nat) : UdsHandler × List UdsCallback :=
  if s.initialized ∧ s.config.enableSessionTimeout ∧ s.sessionTimer.expired now ∧
      s.currentSession ≠ .default then
    ({ s with currentSession := .default, securityLevel := 0 }, s.sessionCallbacks .default)
  else (s, [])

def resetSession (s : UdsHandler) : UdsHandler × List UdsCallback :=
  if ¬ s.initialized then (s, []) else (s.enter .default, s.sessionCallbacks .default)

end UdsHandler

inductive UdsCall where
  | request (stack : UInt32) (request : UdsRequest) (area : UdsResponseArea)
  | processTimeout
  | resetSession

def UdsHandler.step (now : Nat) (s : UdsHandler) : UdsCall → Option (UdsHandler × UdsOut)
  | .request stack request area => some (s.processRequest now stack request area)
  | .processTimeout =>
    some ((s.processTimeout now).1, ⟨.positive, none, (s.processTimeout now).2⟩)
  | .resetSession => some (s.resetSession.1, ⟨.positive, none, s.resetSession.2⟩)

end Cant.Diagnostic.Uds
