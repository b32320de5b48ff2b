/-
# `Crc` — the CRC unit (`utils/crc.c`)

The settings and the table are state of the unit; the table is all zero until
`crc_init` fills it. `crc32_table[(crc & 0xFF) ^ data[i]]` is indexed by a byte, so the
table is a function of a byte.

`CrcState` is the part of the unit that the 32-bit code uses, `CrcUnit` the whole of it.
-/
import Mathlib.Logic.Function.Iterate

namespace Cant.Utils

/-- `crc_state`, with the table of the 32-bit code. -/
structure CrcState where
  polynomial : UInt32
  initialValue : UInt32
  finalXor : UInt32
  initialized : Bool
  crc32Table : UInt8 → UInt32

namespace CrcState

def start : CrcState := ⟨0x04C11DB7, 0xFFFFFFFF, 0xFFFFFFFF, false, fun _ => 0⟩

def tableRound (polynomial crc : UInt32) : UInt32 :=
  (crc >>> 1) ^^^ (if crc &&& 1 ≠ 0 then polynomial else 0)

/-- `init_crc_tables`: eight rounds for every index. -/
def initCrcTables (s : CrcState) : CrcState :=
  { s with crc32Table := fun i => (tableRound s.polynomial)^[8] i.toUInt32 }

def crcInit (s : CrcState) : CrcState :=
  if s.initialized then s else { s.initCrcTables with initialized := true }

def calculateCrc32 (s : CrcState) (data : List UInt8) : UInt32 :=
  if data = [] then 0
  else
    data.foldl (fun (crc : UInt32) b => (crc >>> 8) ^^^ s.crc32Table (crc.toUInt8 ^^^ b))
      s.initialValue ^^^ s.finalXor

end CrcState

structure CrcUnit extends CrcState where
  crc8Table : UInt8 → UInt8
  crc16Table : UInt8 → UInt16
  crc64Table : UInt8 → UInt64

namespace CrcUnit

def start : CrcUnit := ⟨.start, fun _ => 0, fun _ => 0, fun _ => 0⟩

def poly64 : UInt64 := 0x42F0E1EBA9EA3693

def tableRound8 (crc : UInt8) : UInt8 :=
  (crc <<< 1) ^^^ (if crc &&& 0x80 ≠ 0 then 0x07 else 0)

def tableRound16 (crc : UInt16) : UInt16 :=
  (crc <<< 1) ^^^ (if crc &&& 0x8000 ≠ 0 then 0x1021 else 0)

def tableRound64 (crc : UInt64) : UInt64 :=
  (crc >>> 1) ^^^ (if crc &&& 1 ≠ 0 then poly64 else 0)

def initCrcTables (s : CrcUnit) : CrcUnit where
  toCrcState := s.toCrcState.initCrcTables
  crc8Table i := tableRound8^[8] i
  crc16Table i := tableRound16^[8] (i.toUInt16 <<< 8)
  crc64Table i := tableRound64^[8] i.toUInt64

def crcInit (s : CrcUnit) : CrcUnit :=
  if s.initialized then s else { s.initCrcTables with initialized := true }

def crcSetPolynomial (s : CrcUnit) (polynomial : UInt32) : CrcUnit :=
  ({ s with polynomial } : CrcUnit).initCrcTables

def crcSetInitialValue (s : CrcUnit) (initial : UInt32) : CrcUnit :=
  { s with initialValue := initial }

def crcSetFinalXor (s : CrcUnit) (finalXor : UInt32) : CrcUnit := { s with finalXor }

def calculateCrc8 (s : CrcUnit) (data : List UInt8) : UInt8 :=
  if data = [] then 0
  else data.foldl (fun (crc : UInt8) b => s.crc8Table (crc ^^^ b)) 0

def calculateCrc16 (s : CrcUnit) (data : List UInt8) : UInt16 :=
  if data = [] then 0
  else
    data.foldl (fun (crc : UInt16) b => (crc <<< 8) ^^^ s.crc16Table ((crc >>> 8).toUInt8 ^^^ b))
      0xFFFF

def calculateCrc64 (s : CrcUnit) (data : List UInt8) : UInt64 :=
  if data = [] then 0
  else
    data.foldl (fun (crc : UInt64) b => (crc >>> 8) ^^^ s.crc64Table (crc.toUInt8 ^^^ b))
      0xFFFFFFFFFFFFFFFF

end CrcUnit

end Cant.Utils
