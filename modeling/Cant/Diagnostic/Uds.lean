/-
# `Uds` — services and sessions

The names of `uds_handler.h`. A service or a session arrives as a number, so a value
the enumeration does not name has its place too: for a service it is `other`, and a
session is kept as a number wherever a caller may pass any.
-/
import Mathlib.Tactic.Common

namespace Cant.Diagnostic

/-- `UdsServiceId`; `other` is a value without a name. -/
inductive UdsServiceId where
  | diagnosticSessionControl
  | ecuReset
  | securityAccess
  | communicationControl
  | testerPresent
  | accessTimingParameter
  | securedDataTransmission
  | controlDtcSetting
  | responseOnEvent
  | linkControl
  | readDataByIdentifier
  | readMemoryByAddress
  | readScalingDataByIdentifier
  | readDataByPeriodicIdentifier
  | dynamicallyDefineDataIdentifier
  | writeDataByIdentifier
  | writeMemoryByAddress
  | clearDiagnosticInformation
  | readDtcInformation
  | inputOutputControlByIdentifier
  | routineControl
  | requestDownload
  | requestUpload
  | transferData
  | requestTransferExit
  | other (code : Nat)
  deriving DecidableEq

def UdsServiceId.code : UdsServiceId → Nat
  | diagnosticSessionControl => 0x10
  | ecuReset => 0x11
  | securityAccess => 0x27
  | communicationControl => 0x28
  | testerPresent => 0x3E
  | accessTimingParameter => 0x83
  | securedDataTransmission => 0x84
  | controlDtcSetting => 0x85
  | responseOnEvent => 0x86
  | linkControl => 0x87
  | readDataByIdentifier => 0x22
  | readMemoryByAddress => 0x23
  | readScalingDataByIdentifier => 0x24
  | readDataByPeriodicIdentifier => 0x2A
  | dynamicallyDefineDataIdentifier => 0x2C
  | writeDataByIdentifier => 0x2E
  | writeMemoryByAddress => 0x3D
  | clearDiagnosticInformation => 0x14
  | readDtcInformation => 0x19
  | inputOutputControlByIdentifier => 0x2F
  | routineControl => 0x31
  | requestDownload => 0x34
  | requestUpload => 0x35
  | transferData => 0x36
  | requestTransferExit => 0x37
  | other code => code

inductive UdsResponseCode where
  | positive
  | generalReject
  | serviceNotSupported
  | subfunctionNotSupported
  | incorrectLength
  | conditionsNotCorrect
  | requestSequenceError
  | requestOutOfRange
  | securityAccessDenied
  | invalidKey
  | exceededNumberOfAttempts
  | requiredTimeDelayNotExpired
  | uploadDownloadNotAccepted
  | transferDataSuspended
  | generalProgrammingFailure
  | wrongBlockSequenceCounter
  | responsePending
  deriving DecidableEq

inductive UdsSessionType where
  | default | programming | extendedDiagnostic | safetySystem
  deriving DecidableEq

namespace UdsSessionType

def code : UdsSessionType → Nat
  | default => 1
  | programming => 2
  | extendedDiagnostic => 3
  | safetySystem => 4

/-- The session with a number, if it has one. -/
def ofCode : Nat → Option UdsSessionType
  | 1 => some default
  | 2 => some programming
  | 3 => some extendedDiagnostic
  | 4 => some safetySystem
  | _ => none

end UdsSessionType

end Cant.Diagnostic
