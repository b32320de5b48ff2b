/-
# `SafetyData` — protected data items (`safety_data.c`)

An item is a piece of somebody else's memory: `data_size` bytes at `data_ptr`, and as
many at `redundant_ptr` for a copy, each NULL if there is none. The unit keeps the
value together with its CRC and, depending on the protection, with a plain or an inverted
copy.

A call on an item stays in the item's two areas, with one exception (`reset_framed`): the default is
stored through a pointer of the item's *type*, so an item with `data_size` below `sizeof(type)`
writes past its own end.

C's `float` is the platform's: `Platform` says what a conversion gives and how two
values compare, and nothing is assumed but the sizes.
-/
import Mathlib.Data.Set.Lattice
import Mathlib.Order.CompletePartialOrder
import Cant.Lib.ByteMem
import Cant.Lib.Word
import Cant.Utils.Crc

namespace Cant.Safety

open Word Cant.Utils List Mem

inductive SafetyDataType where
  | int8 | int16 | int32 | uint8 | uint16 | uint32 | float | double | bool | custom

/-- `sizeof` of the type a value is accessed through; a custom item is not accessed
through one. -/
def SafetyDataType.size : SafetyDataType → Nat
  | .int8 | .uint8 | .bool => 1
  | .int16 | .uint16 => 2
  | .int32 | .uint32 | .float => 4
  | .double => 8
  | .custom => 0

inductive ProtectionMethod where
  | crc | redundant | inverse | checksum | e2e
  deriving DecidableEq

/-- What the code takes from its platform: the conversions of C's `float`, its order,
and the settings of the CRC unit. -/
structure Platform (F : Type) where
  /-- `(float)(*(T*)value)` -/
  ofBytes : SafetyDataType → List UInt8 → F
  /-- the bytes of `(T)f` -/
  toBytes : SafetyDataType → F → List UInt8
  length_toBytes : ∀ type f, (toBytes type f).length = type.size
  le : F → F → Bool
  crc : CrcState

structure SafetyDataConfig (F : Type) where
  dataPtr : Nat
  redundantPtr : Nat
  dataSize : Nat
  type : SafetyDataType
  protection : ProtectionMethod
  minValue : F
  maxValue : F
  defaultValue : F

structure SafetyDataInstance (F : Type) where
  config : SafetyDataConfig F
  crc : UInt32
  errorCount : Nat
  valid : Bool
  initialized : Bool

structure SafetyData (F : Type) where
  data : List (SafetyDataInstance F)
  initialized : Bool
  mem : Mem

variable {F : Type}

/-- The loop of the inverted copy: `dst[i] = ~src[i]` for `i` from 0. -/
def invertBytes (dst src : Nat) : Nat → Mem → Mem
  | 0, mem => mem
  | n + 1, mem =>
    let mem := invertBytes dst src n mem
    mem.store (dst + n) [~~~ mem (src + n)]

/-- The switch of `update_redundant_copy`, and with the two pointers exchanged that of
`Safety_Data_Restore`. -/
def ProtectionMethod.transfer (protection : ProtectionMethod) (dst src n : Nat) (mem : Mem) : Mem :=
  match protection with
  | .redundant => mem.copy dst src n
  | .inverse => invertBytes dst src n mem
  | _ => mem

namespace SafetyDataConfig

variable (p : Platform F) (c : SafetyDataConfig F)

def calculateDataCrc (mem : Mem) : UInt32 :=
  if c.dataPtr = 0 then 0 else p.crc.calculateCrc32 (mem.load c.dataPtr c.dataSize)

/-- `validate_value_range`; `value` is the memory as seen from the pointer. -/
def validateValueRange (value : Mem) : Bool :=
  match c.type with
  | .bool | .custom => true
  | type =>
    let floatValue := p.ofBytes type (value.load 0 type.size)
    p.le c.minValue floatValue && p.le floatValue c.maxValue

def updateRedundantCopy (mem : Mem) : Mem :=
  if c.redundantPtr = 0 then mem
  else c.protection.transfer c.redundantPtr c.dataPtr c.dataSize mem

def verifyRedundantCopy (mem : Mem) : Bool :=
  if c.redundantPtr = 0 then true
  else
    match c.protection with
    | .redundant => decide (mem.load c.dataPtr c.dataSize = mem.load c.redundantPtr c.dataSize)
    | .inverse => (List.range c.dataSize).all fun i =>
      mem (c.dataPtr + i) ^^^ mem (c.redundantPtr + i) == 0xFF
    | _ => true

def defaultBytes : List UInt8 :=
  match c.type with
  | .bool => [0]
  | .custom => []
  | type => p.toBytes type c.defaultValue

/-- The switch of `Safety_Data_Init` and `Safety_Data_Reset`. -/
def storeDefault (mem : Mem) : Mem := mem.store c.dataPtr (c.defaultBytes p)

end SafetyDataConfig

namespace SafetyDataInstance

variable (p : Platform F)

/-- What `Safety_Data_Init`, `Safety_Data_Write` and `Safety_Data_Reset` do once the
value is in place. -/
def protect (inst : SafetyDataInstance F) (mem : Mem) : SafetyDataInstance F × Mem :=
  let mem := inst.config.updateRedundantCopy mem
  ({ inst with crc := inst.config.calculateDataCrc p mem, valid := true }, mem)

/-- An item of `Safety_Data_Init`. -/
def init (config : SafetyDataConfig F) (mem : Mem) : SafetyDataInstance F × Mem :=
  let inst := ⟨config, 0, 0, false, false⟩
  if config.dataPtr = 0 then (inst, mem)
  else
    let (inst, mem) := protect p inst (config.storeDefault p mem)
    ({ inst with initialized := true }, mem)

def write (value : Mem) (inst : SafetyDataInstance F) (mem : Mem) :
    (SafetyDataInstance F × Mem) × Bool :=
  if inst.config.dataPtr = 0 then ((inst, mem), false)
  else if ¬ inst.config.validateValueRange p value then
    (({ inst with errorCount := u32 (inst.errorCount + 1) }, mem), false)
  else
    (protect p inst (mem.store inst.config.dataPtr (value.load 0 inst.config.dataSize)), true)

def checks (inst : SafetyDataInstance F) (mem : Mem) : Bool :=
  let valid := if inst.config.protection = .crc then
    decide (inst.config.calculateDataCrc p mem = inst.crc) else true
  if valid ∧ (inst.config.protection = .redundant ∨ inst.config.protection = .inverse) then
    inst.config.verifyRedundantCopy mem
  else valid

def verify (inst : SafetyDataInstance F) (mem : Mem) : (SafetyDataInstance F × Mem) × Bool :=
  if ¬ inst.checks p mem then
    (({ inst with errorCount := u32 (inst.errorCount + 1), valid := false }, mem), false)
  else ((inst, mem), true)

def read (inst : SafetyDataInstance F) (mem : Mem) :
    (SafetyDataInstance F × Mem) × Option (List UInt8) :=
  if inst.config.dataPtr = 0 then ((inst, mem), none)
  else
    let ((inst, mem), valid) := inst.verify p mem
    if ¬ valid then ((inst, mem), none)
    else ((inst, mem), some (mem.load inst.config.dataPtr inst.config.dataSize))

def reset (inst : SafetyDataInstance F) (mem : Mem) : (SafetyDataInstance F × Mem) × Unit :=
  if inst.config.dataPtr = 0 then ((inst, mem), ())
  else
    let (inst, mem) := protect p inst (inst.config.storeDefault p mem)
    (({ inst with errorCount := 0 }, mem), ())

def backup (inst : SafetyDataInstance F) (mem : Mem) : (SafetyDataInstance F × Mem) × Bool :=
  if inst.config.redundantPtr = 0 then ((inst, mem), false)
  else ((inst, inst.config.updateRedundantCopy mem), true)

def restore (inst : SafetyDataInstance F) (mem : Mem) : (SafetyDataInstance F × Mem) × Bool :=
  if inst.config.redundantPtr = 0 then ((inst, mem), false)
  else
    let mem := inst.config.protection.transfer inst.config.dataPtr inst.config.redundantPtr
      inst.config.dataSize mem
    (({ inst with crc := inst.config.calculateDataCrc p mem, valid := true }, mem), true)

end SafetyDataInstance

namespace SafetyData

variable (p : Platform F)

/-- How every call on an item begins: the unit and the item must be initialised and
the id in range. -/
def onInstance {γ : Type} (s : SafetyData F) (dataId : Nat) (refused : γ)
    (f : SafetyDataInstance F → Mem → (SafetyDataInstance F × Mem) × γ) : SafetyData F × γ :=
  if ¬ s.initialized then (s, refused)
  else
    match s.data[dataId]? with
    | none => (s, refused)
    | some inst =>
      if ¬ inst.initialized then (s, refused)
      else
        let ((inst, mem), answer) := f inst s.mem
        ({ s with data := s.data.set dataId inst, mem := mem }, answer)

def initAll : List (SafetyDataConfig F) → Mem → List (SafetyDataInstance F) × Mem
  | [], mem => ([], mem)
  | config :: configs, mem =>
    let (inst, mem) := SafetyDataInstance.init p config mem
    let (rest, mem) := initAll configs mem
    (inst :: rest, mem)

def init (s : SafetyData F) (configs : List (SafetyDataConfig F)) : SafetyData F × Bool :=
  if configs.length = 0 ∨ configs.length > 64 then (s, false)
  else
    let (data, mem) := initAll p configs s.mem
    (⟨data, true, mem⟩, true)

def deInit (s : SafetyData F) : SafetyData F := ⟨[], false, s.mem⟩

def write (s : SafetyData F) (dataId : Nat) (value : Mem) : SafetyData F × Bool :=
  s.onInstance dataId false (SafetyDataInstance.write p value)

def read (s : SafetyData F) (dataId : Nat) : SafetyData F × Option (List UInt8) :=
  s.onInstance dataId none (SafetyDataInstance.read p)

def verify (s : SafetyData F) (dataId : Nat) : SafetyData F × Bool :=
  s.onInstance dataId false (SafetyDataInstance.verify p)

def reset (s : SafetyData F) (dataId : Nat) : SafetyData F × Unit :=
  s.onInstance dataId () (SafetyDataInstance.reset p)

def backup (s : SafetyData F) (dataId : Nat) : SafetyData F × Bool :=
  s.onInstance dataId false SafetyDataInstance.backup

def restore (s : SafetyData F) (dataId : Nat) : SafetyData F × Bool :=
  s.onInstance dataId false (SafetyDataInstance.restore p)

end SafetyData

/-- The calls of the unit, and a byte written by somebody else. -/
inductive DataOp (F : Type) where
  | write (dataId : Nat) (value : Mem)
  | read (dataId : Nat)
  | verify (dataId : Nat)
  | reset (dataId : Nat)
  | backup (dataId : Nat)
  | restore (dataId : Nat)
  | init (configs : List (SafetyDataConfig F))
  | deInit
  | outside (address : Nat) (byte : UInt8)

inductive DataOut where
  | done
  | answer (ok : Bool)
  | value (bytes : Option (List UInt8))
  deriving DecidableEq

theorem SafetyData.onInstance_cases (s : SafetyData F) (k : Nat) {γ : Type} (refusal : γ)
    (f : SafetyDataInstance F → Mem → (SafetyDataInstance F × Mem) × γ) :
    (∀ inst, s.data[k]? = some inst → ¬ (s.initialized = true ∧ inst.initialized = true)) ∧
      s.onInstance k refusal f = (s, refusal) ∨
    ∃ inst, s.data[k]? = some inst ∧ s.initialized = true ∧ inst.initialized = true ∧
      s.onInstance k refusal f =
        ({ s with data := s.data.set k (f inst s.mem).1.1, mem := (f inst s.mem).1.2 },
          (f inst s.mem).2) := by
  rw [onInstance]
  cases hs : s.initialized with
  | false => exact Or.inl ⟨fun _ _ h => Bool.false_ne_true h.1, if_pos Bool.false_ne_true⟩
  | true =>
    rw [if_neg (not_not.mpr rfl)]
    cases hk : s.data[k]? with
    | none => exact Or.inl ⟨fun _ h => (by cases h), rfl⟩
    | some inst =>
      cases hi : inst.initialized with
      | false =>
        refine Or.inl ⟨fun inst' h hi' => ?_, if_pos (by rw [hi]; exact Bool.false_ne_true)⟩
        cases h
        cases hi.symm.trans hi'.2
      | true => exact Or.inr ⟨inst, rfl, rfl, hi, if_neg (by rw [hi]; exact not_not.mpr rfl)⟩

def SafetyData.step (p : Platform F) (s : SafetyData F) : DataOp F → Option (SafetyData F × DataOut)
  | .write dataId value => some ((s.write p dataId value).map id .answer)
  | .read dataId => some ((s.read p dataId).map id .value)
  | .verify dataId => some ((s.verify p dataId).map id .answer)
  | .reset dataId => some ((s.reset p dataId).map id fun _ => .done)
  | .backup dataId => some ((s.backup dataId).map id .answer)
  | .restore dataId => some ((s.restore p dataId).map id .answer)
  | .init configs => some ((s.init p configs).map id .answer)
  | .deInit => some (s.deInit, .done)
  | .outside address byte => some ({ s with mem := s.mem.store address [byte] }, .done)

/-! ## Where a call writes -/

namespace SafetyDataConfig

variable (c : SafetyDataConfig F)

def dataArea : Set Nat := {x | c.dataPtr ≠ 0 ∧ c.dataPtr ≤ x ∧ x < c.dataPtr + c.dataSize}

def copyArea : Set Nat :=
  {x | c.redundantPtr ≠ 0 ∧ c.redundantPtr ≤ x ∧ x < c.redundantPtr + c.dataSize}

def areas : Set Nat := c.dataArea ∪ c.copyArea

def defaultArea : Set Nat :=
  {x | c.dataPtr ≠ 0 ∧ c.dataPtr ≤ x ∧ x < c.dataPtr + c.type.size}

def stores : Set Nat := c.areas ∪ c.defaultArea

end SafetyDataConfig

/-- How a byte of the copy is made of a byte of the value, in the two protections that
keep one. -/
def ProtectionMethod.copyByte : ProtectionMethod → Option (UInt8 → UInt8)
  | .redundant => some id
  | .inverse => some (~~~ ·)
  | _ => none

theorem ProtectionMethod.copyByte_involutive {protection : ProtectionMethod} {f : UInt8 → UInt8}
    (h : protection.copyByte = some f) (bs : List UInt8) : (bs.map f).map f = bs := by
  have hf : f ∘ f = id := by
    cases protection <;> cases h
    · rfl
    · exact funext fun b => UInt8.not_not
  rw [map_map, hf, map_id]

theorem invertBytes_of_not {dst src x : Nat} {mem : Mem} : ∀ {n : Nat},
    (x < dst ∨ dst + n ≤ x) → invertBytes dst src n mem x = mem x := by
  intro n
  induction n with
  | zero => intro _; rfl
  | succ n ih =>
    intro h
    rw [invertBytes, store_single_of_ne (by omega)]
    exact ih (by omega)

theorem invertBytes_of_mem {dst src i : Nat} {mem : Mem} : ∀ {n : Nat},
    (∀ j < n, src + j < dst ∨ dst + n ≤ src + j) → i < n →
    invertBytes dst src n mem (dst + i) = ~~~ mem (src + i) := by
  intro n
  induction n with
  | zero => intro _ hi; exact absurd hi (Nat.not_lt_zero i)
  | succ n ih =>
    intro hapart hi
    rcases Nat.lt_succ_iff_lt_or_eq.mp hi with hlt | rfl
    · rw [invertBytes, store_single_of_ne (by omega)]
      refine ih (fun j hj => ?_) hlt
      have := hapart j (by omega)
      omega
    · -- the byte read is not one of those written so far
      have hread : invertBytes dst src i mem (src + i) = mem (src + i) := by
        have := hapart i (by omega)
        exact invertBytes_of_not (by omega)
      rw [invertBytes, hread]
      exact store_of_mem (a := dst + i) (i := 0) Nat.one_pos

namespace ProtectionMethod

variable {protection : ProtectionMethod} {dst src n : Nat} {mem : Mem}

theorem transfer_of_not {x : Nat} (h : x < dst ∨ dst + n ≤ x) :
    protection.transfer dst src n mem x = mem x := by
  cases protection with
  | redundant => exact copy_of_not h
  | inverse => exact invertBytes_of_not h
  | crc | checksum | e2e => rfl

theorem transfer_of_none (h : protection.copyByte = none) :
    protection.transfer dst src n mem = mem := by
  cases protection <;> first | rfl | cases h

theorem load_transfer {f : UInt8 → UInt8} (h : protection.copyByte = some f)
    (hapart : ∀ j < n, src + j < dst ∨ dst + n ≤ src + j) :
    (protection.transfer dst src n mem).load dst n = (mem.load src n).map f := by
  cases protection <;> cases h
  · rw [map_id]
    exact load_copy mem dst src n
  · rw [Mem.load, Mem.load, map_map]
    exact map_congr_left fun i hi => invertBytes_of_mem hapart (mem_range.mp hi)

end ProtectionMethod

namespace SafetyDataConfig

variable {c : SafetyDataConfig F} {mem mem' : Mem}

theorem length_defaultBytes (p : Platform F) : (c.defaultBytes p).length = c.type.size := by
  unfold defaultBytes
  cases c.type <;> first | rfl | exact p.length_toBytes _ _

variable {x : Nat} {f : UInt8 → UInt8}

theorem mem_dataArea (hd : c.dataPtr ≠ 0) :
    x ∈ c.dataArea ↔ c.dataPtr ≤ x ∧ x < c.dataPtr + c.dataSize :=
  and_iff_right hd

theorem mem_copyArea (hr : c.redundantPtr ≠ 0) :
    x ∈ c.copyArea ↔ c.redundantPtr ≤ x ∧ x < c.redundantPtr + c.dataSize :=
  and_iff_right hr

theorem apart_of_disjoint (h : Disjoint c.dataArea c.copyArea) (hd : c.dataPtr ≠ 0)
    (hr : c.redundantPtr ≠ 0) :
    (∀ j < c.dataSize, c.dataPtr + j < c.redundantPtr ∨
      c.redundantPtr + c.dataSize ≤ c.dataPtr + j) ∧
    (∀ j < c.dataSize, c.redundantPtr + j < c.dataPtr ∨
      c.dataPtr + c.dataSize ≤ c.redundantPtr + j) := by
  constructor
  · intro j hj
    by_contra hin
    exact Set.disjoint_left.mp h ((mem_dataArea hd).mpr (by omega : _ ∧ c.dataPtr + j < _))
      ((mem_copyArea hr).mpr (by omega))
  · intro j hj
    by_contra hin
    exact Set.disjoint_left.mp h ((mem_dataArea hd).mpr (by omega))
      ((mem_copyArea hr).mpr (by omega : _ ∧ c.redundantPtr + j < _))

theorem load_data_congr (hd : c.dataPtr ≠ 0) (h : ∀ x ∈ c.dataArea, mem' x = mem x) :
    mem'.load c.dataPtr c.dataSize = mem.load c.dataPtr c.dataSize :=
  load_congr fun x hx hx' => h x ((mem_dataArea hd).mpr ⟨hx, hx'⟩)

theorem load_copy_congr (hr : c.redundantPtr ≠ 0) (h : ∀ x ∈ c.copyArea, mem' x = mem x) :
    mem'.load c.redundantPtr c.dataSize = mem.load c.redundantPtr c.dataSize :=
  load_congr fun x hx hx' => h x ((mem_copyArea hr).mpr ⟨hx, hx'⟩)

theorem updateRedundantCopy_of_not (h : x ∉ c.copyArea) : c.updateRedundantCopy mem x = mem x := by
  rw [updateRedundantCopy]
  by_cases hr : c.redundantPtr = 0
  · rw [if_pos hr]
  · rw [if_neg hr]
    rw [mem_copyArea hr] at h
    exact ProtectionMethod.transfer_of_not (by omega)

theorem load_updateRedundantCopy (h : Disjoint c.dataArea c.copyArea) (hd : c.dataPtr ≠ 0)
    (hr : c.redundantPtr ≠ 0) (hf : c.protection.copyByte = some f) :
    (c.updateRedundantCopy mem).load c.redundantPtr c.dataSize =
      (mem.load c.dataPtr c.dataSize).map f := by
  rw [updateRedundantCopy, if_neg hr]
  exact ProtectionMethod.load_transfer hf (apart_of_disjoint h hd hr).1

theorem xor_eq_0xFF_iff (a b : UInt8) : (a ^^^ b == 0xFF) = true ↔ b = ~~~ a := by
  calc (a ^^^ b == 0xFF) = true
      ↔ a ^^^ b = ~~~ 0 := beq_iff_eq
    _ ↔ ~~~ a ^^^ b = 0 := by rw [← UInt8.not_eq_comm, UInt8.not_xor]
    _ ↔ b = ~~~ a := UInt8.xor_eq_zero_iff.trans eq_comm

theorem verifyRedundantCopy_iff (hr : c.redundantPtr ≠ 0) (hf : c.protection.copyByte = some f) :
    c.verifyRedundantCopy mem = true ↔
      mem.load c.redundantPtr c.dataSize = (mem.load c.dataPtr c.dataSize).map f := by
  rw [verifyRedundantCopy, if_neg hr]
  cases hp : c.protection <;> rw [hp] at hf <;> cases hf
  · rw [map_id]
    exact decide_eq_true_iff.trans eq_comm
  · rw [all_eq_true, Mem.load, Mem.load, map_map, map_inj_left]
    exact forall₂_congr fun i _ => xor_eq_0xFF_iff _ _

theorem restored_of_not (hd : c.dataPtr ≠ 0) (h : x ∉ c.dataArea) :
    c.protection.transfer c.dataPtr c.redundantPtr c.dataSize mem x = mem x := by
  rw [mem_dataArea hd] at h
  exact ProtectionMethod.transfer_of_not (by omega)

theorem load_restored (h : Disjoint c.dataArea c.copyArea) (hd : c.dataPtr ≠ 0)
    (hr : c.redundantPtr ≠ 0) (hf : c.protection.copyByte = some f) :
    (c.protection.transfer c.dataPtr c.redundantPtr c.dataSize mem).load c.dataPtr c.dataSize =
        (mem.load c.redundantPtr c.dataSize).map f ∧
      (c.protection.transfer c.dataPtr c.redundantPtr c.dataSize mem).load
        c.redundantPtr c.dataSize = mem.load c.redundantPtr c.dataSize :=
  ⟨ProtectionMethod.load_transfer hf (apart_of_disjoint h hd hr).2,
    load_copy_congr hr fun _ hx => restored_of_not hd (Set.disjoint_right.mp h hx)⟩

theorem load_storeDefault (p : Platform F) :
    (c.storeDefault p mem).load c.dataPtr c.dataSize =
      Mem.overlay (c.defaultBytes p) (mem.load c.dataPtr c.dataSize) :=
  load_store_overlay mem c.dataPtr c.dataSize (c.defaultBytes p)

theorem storeDefault_of_not (p : Platform F) (hd : c.dataPtr ≠ 0) (h : x ∉ c.defaultArea) :
    c.storeDefault p mem x = mem x := by
  apply store_of_not
  rw [length_defaultBytes]
  by_contra hin
  exact h ⟨hd, by omega, by omega⟩

end SafetyDataConfig

/-! ## Where a call on an item writes -/

/-- The item stays the one it was, and nothing outside `area` is written. -/
structure Framed (area : Set Nat) (inst inst' : SafetyDataInstance F) (mem mem' : Mem) : Prop where
  config : inst'.config = inst.config
  initialized : inst'.initialized = inst.initialized
  frame : ∀ x ∉ area, mem' x = mem x

theorem Framed.mono {area area' : Set Nat} {inst inst' : SafetyDataInstance F} {mem mem' : Mem}
    (h : Framed area inst inst' mem mem') (hsub : area ⊆ area') :
    Framed area' inst inst' mem mem' :=
  ⟨h.config, h.initialized, fun x hx => h.frame x fun hin => hx (hsub hin)⟩

namespace SafetyDataInstance

variable (p : Platform F) (inst : SafetyDataInstance F) (mem : Mem)

theorem protect_framed :
    Framed inst.config.copyArea inst (inst.protect p mem).1 mem (inst.protect p mem).2 :=
  ⟨rfl, rfl, fun _ hx => SafetyDataConfig.updateRedundantCopy_of_not hx⟩

theorem write_framed (value : Mem) :
    Framed inst.config.areas inst (inst.write p value mem).1.1 mem
      (inst.write p value mem).1.2 := by
  rw [write]
  split
  case isTrue => exact ⟨rfl, rfl, fun _ _ => rfl⟩
  case isFalse hd =>
    split
    case isTrue => exact ⟨rfl, rfl, fun _ _ => rfl⟩
    case isFalse =>
      refine ⟨rfl, rfl, fun x hx => ?_⟩
      refine ((protect_framed p inst _).frame x fun hcopy => hx (Or.inr hcopy)).trans ?_
      apply store_of_not
      rw [length_load]
      by_contra hin
      exact hx (Or.inl ((SafetyDataConfig.mem_dataArea hd).mpr (by omega)))

theorem verify_framed : Framed ∅ inst (inst.verify p mem).1.1 mem (inst.verify p mem).1.2 := by
  rw [verify]
  split <;> exact ⟨rfl, rfl, fun _ _ => rfl⟩

theorem read_framed : Framed ∅ inst (inst.read p mem).1.1 mem (inst.read p mem).1.2 := by
  rw [read]
  split
  case isTrue => exact ⟨rfl, rfl, fun _ _ => rfl⟩
  case isFalse =>
    dsimp only
    split <;> exact verify_framed p inst mem

theorem reset_framed :
    Framed inst.config.stores inst (inst.reset p mem).1.1 mem
      (inst.reset p mem).1.2 := by
  rw [reset]
  split
  case isTrue => exact ⟨rfl, rfl, fun _ _ => rfl⟩
  case isFalse hd =>
    refine ⟨rfl, rfl, fun x hx => ?_⟩
    exact ((protect_framed p inst _).frame x fun hcopy => hx (Or.inl (Or.inr hcopy))).trans
      (SafetyDataConfig.storeDefault_of_not p hd fun hdefault => hx (Or.inr hdefault))

theorem backup_framed :
    Framed inst.config.copyArea inst (inst.backup mem).1.1 mem (inst.backup mem).1.2 := by
  rw [backup]
  split
  · exact ⟨rfl, rfl, fun _ _ => rfl⟩
  · exact ⟨rfl, rfl, fun _ hx => SafetyDataConfig.updateRedundantCopy_of_not hx⟩

theorem restore_framed (hd : inst.config.dataPtr ≠ 0) :
    Framed inst.config.dataArea inst (inst.restore p mem).1.1 mem (inst.restore p mem).1.2 := by
  rw [restore]
  split
  · exact ⟨rfl, rfl, fun _ _ => rfl⟩
  · exact ⟨rfl, rfl, fun _ hx => SafetyDataConfig.restored_of_not hd hx⟩

/-! ## What is checked -/

variable {p inst mem}

theorem checks_of_crc (h : inst.config.protection = .crc) (hd : inst.config.dataPtr ≠ 0) :
    inst.checks p mem = true ↔
      p.crc.calculateCrc32 (mem.load inst.config.dataPtr inst.config.dataSize) = inst.crc := by
  simp [checks, h, SafetyDataConfig.calculateDataCrc, hd]

theorem checks_of_copyByte {f : UInt8 → UInt8} (h : inst.config.protection.copyByte = some f)
    (hr : inst.config.redundantPtr ≠ 0) :
    inst.checks p mem = true ↔ mem.load inst.config.redundantPtr inst.config.dataSize =
      (mem.load inst.config.dataPtr inst.config.dataSize).map f := by
  rw [← SafetyDataConfig.verifyRedundantCopy_iff hr h]
  cases hp : inst.config.protection with
  | redundant | inverse => simp [checks, hp]
  | _ => rw [hp] at h; cases h

theorem checks_of_neither (hcrc : inst.config.protection ≠ .crc)
    (hcopy : ∀ f, inst.config.protection.copyByte = some f → inst.config.redundantPtr = 0) :
    inst.checks p mem = true := by
  cases hp : inst.config.protection with
  | crc => exact absurd hp hcrc
  | redundant =>
    simp [checks, hp, SafetyDataConfig.verifyRedundantCopy, hcopy id (by rw [hp]; rfl)]
  | inverse =>
    simp [checks, hp, SafetyDataConfig.verifyRedundantCopy, hcopy (~~~ ·) (by rw [hp]; rfl)]
  | checksum | e2e => simp [checks, hp]

end SafetyDataInstance

end Cant.Safety
