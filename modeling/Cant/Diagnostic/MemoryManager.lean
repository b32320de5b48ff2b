/-
# `MemoryManager` — reading, writing and erasing by address (`memory_manager.c`)

A pointer into the table of areas is an index. The three operations make the same checks
and are instances of `Manager.operate`. An outcome names the stretch of addresses that was
handed to the platform function, if the checks were passed: that stretch runs over the
naturals, where the checks compute modulo `2 ^ 32`.

The range check looks up the first and the last address of the request and compares the
areas. A length that wraps brings the last address back below the first, into the same
area: `access_covered_iff` says that nothing else goes wrong, `run_keeps_unwritable` what this
means for the memory over a whole run.
-/
import Cant.Lib.Buf
import Cant.Lib.Extent
import Cant.Lib.Run
import Cant.Utils.Timer

namespace Cant.Diagnostic.MemoryManager

inductive MemoryAreaType where
  | ram | flash | eeprom | rom | mirror

/-- `MemoryAreaDef`, without `security_level`, which nothing reads. -/
structure MemoryAreaDef where
  startAddress : UInt32
  size : UInt32
  type : MemoryAreaType
  accessRights : UInt8

def accessRead : UInt8 := 0x01

def accessWrite : UInt8 := 0x02

inductive MemoryResult where
  | success | invalidAddress | accessDenied | writeFailed | readFailed | verifyFailed | busy | error

/-- `MemoryManagerConfig`; of the callback only whether it is set. -/
structure MemoryManagerConfig where
  memoryAreas : List MemoryAreaDef
  writeTimeoutMs : UInt32
  eraseTimeoutMs : UInt32
  operationCompleteCallback : Bool

structure State where
  isBusy : Bool
  currentAddress : UInt32
  remainingBytes : UInt32
  lastResult : MemoryResult
  operationTimer : Timer
  initialized : Bool

structure Manager where
  config : MemoryManagerConfig
  state : State
  memory : Mem

/-! ## The checks -/

def MemoryAreaDef.holds (area : MemoryAreaDef) (address : UInt32) : Bool :=
  address ≥ area.startAddress && address < area.startAddress + area.size

def findMemoryArea (areas : List MemoryAreaDef) (address : UInt32) : Option Nat :=
  areas.findIdx? (·.holds address)

def validateAddressRange (areas : List MemoryAreaDef) (address length : UInt32) : Bool :=
  let startArea := findMemoryArea areas address
  let endArea := findMemoryArea areas (address + length - 1)
  startArea.isSome && endArea.isSome && startArea == endArea

def MemoryAreaDef.grants (area : MemoryAreaDef) (required : UInt8) : Bool :=
  area.accessRights &&& required == required

def checkAccessRights (areas : List MemoryAreaDef) (address : UInt32) (required : UInt8) : Bool :=
  match findMemoryArea areas address with
  | none => false
  | some i => areas[i]?.any (·.grants required)

/-! ## The platform functions -/

/-- What a platform function answers: its result, the bytes read, the memory behind it. -/
structure Platform where
  result : MemoryResult
  read : List UInt8
  memory : Mem

/-- The `switch` on the type of the area at `address`. -/
def onArea (areas : List MemoryAreaDef) (address : UInt32) (memory : Mem)
    (act : MemoryAreaType → Platform) : Platform :=
  match (findMemoryArea areas address).bind (areas[·]?) with
  | none => ⟨.invalidAddress, [], memory⟩
  | some area => act area.type

def platformReadMemory (address length : UInt32) (areas : List MemoryAreaDef) (memory : Mem) :
    Platform :=
  onArea areas address memory fun
    | .ram | .rom => ⟨.success, memory.load address.toNat length.toNat, memory⟩
    | .flash | .eeprom | .mirror => ⟨.success, [], memory⟩

def platformWriteMemory (address : UInt32) (data : List UInt8) (areas : List MemoryAreaDef)
    (memory : Mem) : Platform :=
  onArea areas address memory fun
    | .ram => ⟨.success, [], memory.store address.toNat data⟩
    | .flash | .eeprom | .mirror => ⟨.success, [], memory⟩
    | .rom => ⟨.accessDenied, [], memory⟩

def platformEraseMemory (address : UInt32) (areas : List MemoryAreaDef) (memory : Mem) : Platform :=
  onArea areas address memory fun
    | .flash | .eeprom => ⟨.success, [], memory⟩
    | .ram | .rom | .mirror => ⟨.accessDenied, [], memory⟩

/-! ## The operations -/

structure Outcome where
  result : MemoryResult
  /-- The addresses handed to the platform function. -/
  access : Option Extent
  read : List UInt8
  /-- The argument of the callback. -/
  notified : Option MemoryResult

def Outcome.refused (result : MemoryResult) : Outcome := ⟨result, none, [], none⟩

namespace Manager

/-- `Memory_Manager_Init`; `none` is a null configuration or a null table. -/
def init (m : Manager) (config : Option MemoryManagerConfig) : Manager × Bool :=
  match config with
  | none => (m, false)
  | some config =>
    if config.memoryAreas.isEmpty then (m, false)
    else
      ({ m with
          config
          state := { m.state with
            isBusy := false, currentAddress := 0, remainingBytes := 0,
            lastResult := .success, initialized := true } }, true)

/-- What an operation does behind its checks. `begin` is what it does to the state before
it calls `platform`. -/
def perform (m : Manager) (address length : UInt32) (begin : State → State)
    (platform : List MemoryAreaDef → Mem → Platform) : Manager × Outcome :=
  let begun :=
    begin { m.state with isBusy := true, currentAddress := address, remainingBytes := length }
  let done := platform m.config.memoryAreas m.memory
  ({ m with
      memory := done.memory
      state := { begun with isBusy := false, lastResult := done.result } },
    { result := done.result
      access := some ⟨address.toNat, length.toNat⟩
      read := done.read
      notified := if m.config.operationCompleteCallback then some done.result else none })

/-- What the three operations share. `given` says that the data pointer is not null. -/
def operate (m : Manager) (required : UInt8) (address length : UInt32) (given : Bool)
    (begin : State → State) (platform : List MemoryAreaDef → Mem → Platform) :
    Manager × Outcome :=
  if !m.state.initialized || !given || length == 0 then (m, .refused .error)
  else if m.state.isBusy then (m, .refused .busy)
  else if !validateAddressRange m.config.memoryAreas address length then
    (m, .refused .invalidAddress)
  else if !checkAccessRights m.config.memoryAreas address required then
    (m, .refused .accessDenied)
  else m.perform address length begin platform

def read (m : Manager) (address : UInt32) (given : Bool) (length : UInt32) : Manager × Outcome :=
  m.operate accessRead address length given id (platformReadMemory address length)

def write (m : Manager) (now : Nat) (address length : UInt32)
    (data : Option (Buf UInt8 length.toNat)) : Manager × Outcome :=
  m.operate accessWrite address length data.isSome
    (fun s : State =>
      { s with operationTimer := .start (Timer.ticks now) m.config.writeTimeoutMs.toNat })
    (platformWriteMemory address (data.elim [] Buf.elems))

def erase (m : Manager) (now : Nat) (address length : UInt32) : Manager × Outcome :=
  m.operate accessWrite address length true
    (fun s : State =>
      { s with operationTimer := .start (Timer.ticks now) m.config.eraseTimeoutMs.toNat })
    (platformEraseMemory address)

end Manager

inductive Request where
  | read (address : UInt32) (given : Bool) (length : UInt32)
  | write (address length : UInt32) (data : Option (Buf UInt8 length.toNat))
  | erase (address length : UInt32)

namespace Request

def address : Request → UInt32
  | read a _ _ | write a _ _ | erase a _ => a

def length : Request → UInt32
  | read _ _ n | write _ n _ | erase _ n => n

def required : Request → UInt8
  | read _ _ _ => accessRead
  | write _ _ _ | erase _ _ => accessWrite

def extent (r : Request) : Extent := ⟨r.address.toNat, r.length.toNat⟩

def Fits (r : Request) : Prop := r.address.toNat + r.length.toNat ≤ 4294967296
  deriving Decidable

end Request

def Manager.call (m : Manager) (now : Nat) : Request → Manager × Outcome
  | .read address given length => m.read address given length
  | .write address length data => m.write now address length data
  | .erase address length => m.erase now address length

/-! ## What the checks say -/

def MemoryAreaDef.extent (area : MemoryAreaDef) : Extent :=
  ⟨area.startAddress.toNat, min area.size.toNat (4294967296 - area.startAddress.toNat)⟩

variable {address : UInt32} {areas : List MemoryAreaDef} {m : Manager} {r : Request} {x : Nat}

theorem MemoryAreaDef.holds_iff {area : MemoryAreaDef} :
    area.holds address = true ↔ area.startAddress.toNat ≤ address.toNat ∧
      address.toNat < (area.startAddress.toNat + area.size.toNat) % 4294967296 := by
  rw [holds, Bool.and_eq_true, decide_eq_true_eq, decide_eq_true_eq, ge_iff_le,
    UInt32.le_iff_toNat_le, UInt32.lt_iff_toNat_lt, UInt32.toNat_add]

theorem findMemoryArea_eq_some {i : Nat} (h : findMemoryArea areas address = some i) :
    ∃ area, areas[i]? = some area ∧ area.holds address = true := by
  obtain ⟨hi, hholds, -⟩ := List.findIdx?_eq_some_iff_getElem.mp h
  exact ⟨_, List.getElem?_eq_getElem hi, hholds⟩

theorem exists_area_of_checks {length : UInt32} {required : UInt8}
    (hrange : validateAddressRange areas address length = true)
    (hrights : checkAccessRights areas address required = true) :
    ∃ area ∈ areas, area.grants required = true ∧ area.holds address = true ∧
      area.holds (address + length - 1) = true := by
  simp only [validateAddressRange, Bool.and_eq_true, beq_iff_eq] at hrange
  obtain ⟨⟨hstart, -⟩, hsame⟩ := hrange
  obtain ⟨i, hi⟩ := Option.isSome_iff_exists.mp hstart
  obtain ⟨area, harea, hfirst⟩ := findMemoryArea_eq_some hi
  obtain ⟨area', harea', hlast⟩ := findMemoryArea_eq_some (hsame.symm.trans hi)
  obtain rfl : area = area' := Option.mem_unique harea harea'
  rw [checkAccessRights, hi] at hrights
  simp only [harea, Option.any_some] at hrights
  exact ⟨area, List.mem_of_getElem? harea, hrights, hfirst, hlast⟩

theorem toNat_last {length : UInt32} (hlength : length ≠ 0)
    (hfits : address.toNat + length.toNat ≤ 4294967296) :
    (address + length - 1).toNat = address.toNat + length.toNat - 1 := by
  have hpos : length.toNat ≠ 0 := fun h => hlength (UInt32.toNat_inj.mp h)
  rw [UInt32.toNat_sub, UInt32.toNat_add, UInt32.toNat_one]
  omega

namespace Manager

section

variable {m : Manager} {now : Nat} {required : UInt8} {address length : UInt32} {given : Bool}
  {begin : State → State} {platform : List MemoryAreaDef → Mem → Platform} {e : Extent} {x : Nat}

variable (m required address length given begin platform) in
theorem operate_cases :
    (∃ result, m.operate required address length given begin platform = (m, .refused result)) ∨
    (m.operate required address length given begin platform
        = m.perform address length begin platform ∧ length ≠ 0 ∧
      validateAddressRange m.config.memoryAreas address length = true ∧
      checkAccessRights m.config.memoryAreas address required = true) := by
  unfold operate
  split
  · exact .inl ⟨_, rfl⟩
  case isFalse hargs =>
    split
    · exact .inl ⟨_, rfl⟩
    · split
      · exact .inl ⟨_, rfl⟩
      case isFalse hrange =>
        split
        · exact .inl ⟨_, rfl⟩
        case isFalse hrights =>
          simp only [Bool.or_eq_true, beq_iff_eq, not_or] at hargs
          simp only [Bool.not_eq_true', Bool.not_eq_false] at hrange hrights
          exact .inr ⟨rfl, hargs.2, hrange, hrights⟩

theorem operate_access
    (h : (m.operate required address length given begin platform).2.access = some e) :
    e = ⟨address.toNat, length.toNat⟩ ∧ length ≠ 0 ∧
      validateAddressRange m.config.memoryAreas address length = true ∧
      checkAccessRights m.config.memoryAreas address required = true := by
  rcases operate_cases m required address length given begin platform
    with ⟨result, hrefused⟩ | ⟨hperform, hchecks⟩
  · rw [hrefused] at h
    cases h
  · rw [hperform] at h
    exact ⟨(Option.some.inj h).symm, hchecks⟩

theorem operate_config :
    (m.operate required address length given begin platform).1.config = m.config := by
  rcases operate_cases m required address length given begin platform
    with ⟨result, hrefused⟩ | ⟨hperform, -⟩
  · rw [hrefused]
  · rw [hperform]
    rfl

theorem operate_memory
    (h : (m.operate required address length given begin platform).2.access
        = some ⟨address.toNat, length.toNat⟩ →
      (platform m.config.memoryAreas m.memory).memory x = m.memory x) :
    (m.operate required address length given begin platform).1.memory x = m.memory x := by
  rcases operate_cases m required address length given begin platform
    with ⟨result, hrefused⟩ | ⟨hperform, -⟩
  · rw [hrefused]
  · rw [hperform] at h ⊢
    exact h rfl

end

theorem call_access {m : Manager} {now : Nat} {r : Request} {e : Extent}
    (h : (m.call now r).2.access = some e) :
    e = r.extent ∧ r.length ≠ 0 ∧
      validateAddressRange m.config.memoryAreas r.address r.length = true ∧
      checkAccessRights m.config.memoryAreas r.address r.required = true := by
  cases r with
  | read address given length | write address length data | erase address length =>
    exact operate_access h

theorem call_config (m : Manager) (now : Nat) (r : Request) :
    (m.call now r).1.config = m.config := by
  cases r with
  | read address given length | write address length data | erase address length =>
    exact operate_config

end Manager

def Covered (areas : List MemoryAreaDef) (required : UInt8) (e : Extent) : Prop :=
  ∃ area ∈ areas, area.grants required = true ∧ e.Within area.extent

theorem covered_of_fits {now : Nat} {e : Extent} (h : (m.call now r).2.access = some e)
    (hfits : r.Fits) : Covered m.config.memoryAreas r.required e := by
  obtain ⟨rfl, hlength, hrange, hrights⟩ := Manager.call_access h
  obtain ⟨area, hmem, hgrants, hfirst, hlast⟩ := exists_area_of_checks hrange hrights
  have hpos : 0 < r.extent.size := Nat.pos_of_ne_zero fun h0 => hlength (UInt32.toNat_inj.mp h0)
  rw [MemoryAreaDef.holds_iff] at hfirst hlast
  rw [toNat_last hlength hfits] at hlast
  -- The end of the area is above its start, so it did not wrap.
  refine ⟨area, hmem, hgrants, (Extent.within_iff hpos).mpr ⟨hfirst.1, ?_⟩⟩
  show r.address.toNat + r.length.toNat ≤ area.startAddress.toNat +
    min area.size.toNat (4294967296 - area.startAddress.toNat)
  omega

theorem fits_of_covered (hlength : r.length ≠ 0) (h : Covered areas r.required r.extent) :
    r.Fits := by
  obtain ⟨area, -, -, hwithin⟩ := h
  have hpos : 0 < r.extent.size := Nat.pos_of_ne_zero fun h0 => hlength (UInt32.toNat_inj.mp h0)
  have hstart := area.startAddress.toNat_lt
  have hends : r.address.toNat + r.length.toNat ≤ area.startAddress.toNat +
      min area.size.toNat (4294967296 - area.startAddress.toNat) :=
    ((Extent.within_iff hpos).mp hwithin).2
  show r.address.toNat + r.length.toNat ≤ 4294967296
  omega

/-- **What the checks let through.** A call that passes them touches only addresses of one
area that grants the right exactly when its last address is computed without wrap-around. -/
theorem access_covered_iff {m : Manager} {now : Nat} {r : Request} {e : Extent}
    (h : (m.call now r).2.access = some e) :
    Covered m.config.memoryAreas r.required e ↔ r.Fits := by
  constructor
  · intro hcovered
    obtain ⟨rfl, hlength, -, -⟩ := Manager.call_access h
    exact fits_of_covered hlength hcovered
  · exact covered_of_fits h

/-- A table of one flash area, from `0x1000` to `0x1FFF`. -/
def flashOnly : MemoryManagerConfig := ⟨[⟨0x1000, 0x1000, .flash, accessWrite⟩], 100, 1000, false⟩

/-- The manager of zeroed memory that has been given `config`. -/
def booted (config : MemoryManagerConfig) : Manager :=
  (Manager.init ⟨config, ⟨false, 0, 0, .success, .idle, false⟩, fun _ => 0⟩ (some config)).1

theorem erase_of_last_page_covered :
    ((booted flashOnly).call 0 (.erase 0x1F00 0x100)).2.access = some ⟨0x1F00, 0x100⟩ ∧
      Covered flashOnly.memoryAreas accessWrite ⟨0x1F00, 0x100⟩ := by
  have haccess : ((booted flashOnly).call 0 (.erase 0x1F00 0x100)).2.access
      = some ⟨0x1F00, 0x100⟩ := rfl
  exact ⟨haccess, (access_covered_iff haccess).mpr (by decide)⟩

/-- A request of almost `2 ^ 32` bytes ends where it began and is carried out. -/
theorem wrapped_length_accepted :
    ((booted flashOnly).call 0 (.erase 0x1800 0xFFFFFC00)).2.result = .success ∧
      ((booted flashOnly).call 0 (.erase 0x1800 0xFFFFFC00)).2.access
        = some ⟨0x1800, 0xFFFFFC00⟩ ∧
      ¬ Covered flashOnly.memoryAreas accessWrite ⟨0x1800, 0xFFFFFC00⟩ := by
  refine ⟨rfl, rfl, fun h => ?_⟩
  have hfits : Request.Fits (.erase 0x1800 0xFFFFFC00) := fits_of_covered (by decide) h
  exact absurd hfits (by decide)

/-! ## What a run does to the memory -/

theorem onArea_memory {memory : Mem} {act : MemoryAreaType → Platform}
    (h : ∀ type, (act type).memory x = memory x) :
    (onArea areas address memory act).memory x = memory x := by
  unfold onArea
  split
  · rfl
  · exact h _

def Unwritable (areas : List MemoryAreaDef) (x : Nat) : Prop :=
  ∀ area ∈ areas, area.grants accessWrite = true → x ∉ area.extent

theorem call_memory {now : Nat} (hfits : r.Fits) (hx : Unwritable m.config.memoryAreas x) :
    (m.call now r).1.memory x = m.memory x := by
  cases r with
  | read address given length | erase address length =>
    refine Manager.operate_memory fun _ => onArea_memory fun type => ?_
    cases type <;> rfl
  | write address length data =>
    refine Manager.operate_memory fun haccess => onArea_memory fun type => ?_
    cases type with
    | ram =>
      have hcovered := covered_of_fits (r := .write address length data) haccess hfits
      obtain ⟨area, hmem, hgrants, hwithin⟩ := hcovered
      have hout : x ∉ Extent.mk address.toNat length.toNat :=
        fun hin => hx area hmem hgrants (hwithin x hin)
      have hsize : (data.elim [] Buf.elems).length ≤ length.toNat := by
        cases data with
        | none => exact Nat.zero_le _
        | some data => exact Nat.le_of_eq data.size_eq
      refine Mem.store_of_not ?_
      by_contra hnot
      exact hout (Extent.mem_mk.mpr (by omega))
    | flash | eeprom | mirror | rom => rfl

def Manager.step (m : Manager) (i : Nat × Request) : Option (Manager × Outcome) :=
  some (m.call i.1 i.2)

/-- **Memory that no area makes writable.** Over any run of calls that do not wrap, a byte
outside every area with the write right keeps its value. -/
theorem run_keeps_unwritable (hx : Unwritable m.config.memoryAreas x) (calls : List (Nat × Request))
    (hfits : ∀ i ∈ calls, i.2.Fits) :
    ∃ t os, Run.run Manager.step m calls = some (t, os) ∧ t.memory x = m.memory x := by
  induction calls generalizing m with
  | nil => exact ⟨m, [], rfl, rfl⟩
  | cons i calls ih =>
    have hkept : (m.call i.1 i.2).1.memory x = _ := call_memory (hfits i List.mem_cons_self) hx
    rw [← m.call_config i.1 i.2] at hx
    obtain ⟨t, os, hrun, hmem⟩ := ih hx fun j hj => hfits j (.tail _ hj)
    exact ⟨t, _, Run.run_cons.mpr ⟨_, _, os, rfl, hrun, rfl⟩, hmem.trans hkept⟩

def ramOnly : MemoryManagerConfig := ⟨[⟨0x1000, 0x1000, .ram, accessWrite⟩], 100, 1000, false⟩

/-- The byte below one that is written. -/
theorem byte_below_ram_kept : ∃ t os, Run.run Manager.step (booted ramOnly)
    [(0, .write 0x1000 2 (some ⟨[0xA1, 0xA2], rfl⟩))] = some (t, os) ∧
      t.memory 0x1000 = 0xA1 ∧ t.memory 0xFFF = 0 := by
  have hbelow : Unwritable (booted ramOnly).config.memoryAreas 0xFFF := by
    intro area harea _ hx
    cases List.mem_singleton.mp harea
    exact absurd hx.1 (by decide)
  obtain ⟨t, os, hrun, hkept⟩ := run_keeps_unwritable hbelow
    [(0, .write 0x1000 2 (some ⟨[0xA1, 0xA2], rfl⟩))] (by decide)
  refine ⟨t, os, hrun, ?_, hkept⟩
  cases hrun
  rfl

end Cant.Diagnostic.MemoryManager
