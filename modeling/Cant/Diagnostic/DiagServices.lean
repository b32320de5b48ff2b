/-
# `DiagServices` — services that name memory (`diag_services.c`)

`MEMORY_START_ADDRESS`, `MEMORY_END_ADDRESS`, `MAX_MEMORY_BLOCK_SIZE` and `protected_ranges`
are nowhere in the repository; they are a `MemoryMap`, and what the memory manager answers
is a `MemoryServices`. The end of a protected range is the first address behind it, which
is how `validate_memory_range` compares it.

The check computes `address + size` modulo `2 ^ 32`, and refuses a request only if it lies
in a protected range from one end to the other. `validated_range_safe_iff` is what that
leaves open.
-/
import Cant.Lib.Extent
import Cant.Lib.Word

namespace Cant.Diagnostic.DiagServices

open Word

structure ProtectedRange where
  start : UInt32
  endAddress : UInt32
  deriving DecidableEq

structure MemoryMap where
  startAddress : UInt32
  endAddress : UInt32
  maxBlockSize : UInt32
  protectedRanges : List ProtectedRange

def validateMemoryRange (map : MemoryMap) (address size : UInt32) : Bool :=
  if address < map.startAddress || address + size > map.endAddress || size > map.maxBlockSize then
    false
  else if map.protectedRanges.any
      fun r => address ≥ r.start && address + size ≤ r.endAddress then
    false
  else true

/-! ## The services -/

/-- `UdsResponseCode`, as far as the two services answer it. -/
inductive UdsResponseCode where
  | ok | invalidFormat | requestOutOfRange | conditionsNotCorrect
  deriving DecidableEq

structure MemoryServices where
  getMaxBlockSize : UInt32
  startDownload : UInt32 → UInt32 → UInt8 → Bool
  readMemory : UInt32 → UInt32 → Option (List UInt8)

/-- A response, and the range that was handed to the memory manager. -/
structure Reply where
  code : UdsResponseCode
  /-- What is written to `response->data`, from the given index on. -/
  written : Nat × List UInt8
  length : Nat
  range : Option (UInt32 × UInt32)

def Reply.refused (code : UdsResponseCode) (range : Option (UInt32 × UInt32)) : Reply :=
  ⟨code, (0, []), 0, range⟩

/-- `value = (value << 8) | byte`, byte by byte. -/
def bigEndian (bytes : List UInt8) : UInt32 :=
  bytes.foldl (fun value byte => (value <<< 8) ||| byte.toUInt32) 0

def sizes (data : List UInt8) : Nat × Nat :=
  let format := data.getD 1 0
  (((format >>> 4) &&& 0x0F).toNat, (format &&& 0x0F).toNat)

/-- The address and the size that stand in the request from `off` on. -/
def addressAndSize (data : List UInt8) (off : Nat) : UInt32 × UInt32 :=
  let (addressSize, lengthSize) := sizes data
  (bigEndian ((data.drop off).take addressSize),
    bigEndian ((data.drop (off + addressSize)).take lengthSize))

def handleRequestDownload (map : MemoryMap) (services : MemoryServices) (data : List UInt8) :
    Reply :=
  if data.length < 4 then .refused .invalidFormat none
  else if data.length < 3 + (sizes data).1 + (sizes data).2 then .refused .invalidFormat none
  else
    let (address, size) := addressAndSize data 3
    if !validateMemoryRange map address size then .refused .requestOutOfRange none
    else if !services.startDownload address size (data.getD 2 0) then
      .refused .conditionsNotCorrect (some (address, size))
    else
      let maxBlockLength := services.getMaxBlockSize
      ⟨.ok, (0, [(maxBlockLength >>> 8).toUInt8, (maxBlockLength &&& 0xFF).toUInt8]), 2,
        some (address, size)⟩

/-- `handle_read_memory_by_address`. The length is that of a request with a format byte,
which this service does not have: its fields begin one byte earlier. -/
def handleReadMemoryByAddress (map : MemoryMap) (services : MemoryServices) (data : List UInt8) :
    Reply :=
  if data.length < 4 then .refused .invalidFormat none
  else if data.length ≠ 3 + (sizes data).1 + (sizes data).2 then .refused .invalidFormat none
  else
    let (address, size) := addressAndSize data 2
    if !validateMemoryRange map address size then .refused .requestOutOfRange none
    else
      match services.readMemory address size with
      | none => .refused .conditionsNotCorrect (some (address, size))
      | some bytes => ⟨.ok, (1, bytes), u16 (size.toNat + 1), some (address, size)⟩

/-! ## Ranges without wrap-around -/

def MemoryMap.window (map : MemoryMap) : Extent :=
  ⟨map.startAddress.toNat, map.endAddress.toNat + 1 - map.startAddress.toNat⟩

def ProtectedRange.extent (r : ProtectedRange) : Extent :=
  ⟨r.start.toNat, r.endAddress.toNat - r.start.toNat⟩

def requested (address size : UInt32) : Extent := ⟨address.toNat, size.toNat⟩

def Safe (map : MemoryMap) (address size : UInt32) : Prop :=
  (requested address size).Within map.window ∧
    ∀ r ∈ map.protectedRanges, (requested address size).Apart r.extent

/-- The end of the request is computed as it is, or is the end of the address space and of
the window. -/
def EndsInside (map : MemoryMap) (address size : UInt32) : Prop :=
  address.toNat + size.toNat < 4294967296 ∨
    address.toNat + size.toNat = 4294967296 ∧ map.endAddress.toNat = 4294967295
  deriving Decidable

def NoneSplit (map : MemoryMap) (address size : UInt32) : Prop :=
  ∀ r ∈ map.protectedRanges, ¬ (requested address size).Apart r.extent →
    (requested address size).Within r.extent

variable {address size : UInt32} {map : MemoryMap} {services : MemoryServices} {data : List UInt8}

theorem validateMemoryRange_iff :
    validateMemoryRange map address size = true ↔
      (map.startAddress.toNat ≤ address.toNat ∧
        (address.toNat + size.toNat) % 4294967296 ≤ map.endAddress.toNat ∧
        size.toNat ≤ map.maxBlockSize.toNat) ∧
      ∀ r ∈ map.protectedRanges, r.start.toNat ≤ address.toNat →
        r.endAddress.toNat < (address.toNat + size.toNat) % 4294967296 := by
  have hsum := UInt32.toNat_add address size
  unfold validateMemoryRange
  split
  case isTrue h =>
    simp only [Bool.or_eq_true, decide_eq_true_eq, gt_iff_lt, UInt32.lt_iff_toNat_lt, hsum] at h
    refine iff_of_false Bool.false_ne_true ?_
    omega
  case isFalse h =>
    simp only [Bool.or_eq_true, decide_eq_true_eq, gt_iff_lt, UInt32.lt_iff_toNat_lt, hsum,
      not_or, Nat.not_lt] at h
    split
    case isTrue hany =>
      refine iff_of_false Bool.false_ne_true ?_
      rintro ⟨-, hnone⟩
      obtain ⟨r, hr, hin⟩ := List.any_eq_true.mp hany
      simp only [Bool.and_eq_true, decide_eq_true_eq, ge_iff_le, UInt32.le_iff_toNat_le,
        hsum] at hin
      exact Nat.not_lt.mpr hin.2 (hnone r hr hin.1)
    case isFalse hany =>
      refine iff_of_true rfl ⟨⟨h.1.1, h.1.2, h.2⟩, fun r hr hstart => ?_⟩
      by_contra hle
      refine hany (List.any_eq_true.mpr ⟨r, hr, ?_⟩)
      simp only [Bool.and_eq_true, decide_eq_true_eq, ge_iff_le, UInt32.le_iff_toNat_le, hsum]
      exact ⟨hstart, Nat.not_lt.mp hle⟩

theorem within_window_iff (hsize : 0 < size.toNat)
    (h : validateMemoryRange map address size = true) :
    (requested address size).Within map.window ↔ EndsInside map address size := by
  obtain ⟨⟨hstart, hend, -⟩, -⟩ := validateMemoryRange_iff.mp h
  have hmap := map.endAddress.toNat_lt
  refine (Extent.within_iff hsize).trans ?_
  show map.startAddress.toNat ≤ address.toNat ∧ address.toNat + size.toNat ≤
    map.startAddress.toNat + (map.endAddress.toNat + 1 - map.startAddress.toNat) ↔ _
  constructor
  · unfold EndsInside
    omega
  · intro hends
    unfold EndsInside at hends
    omega

theorem not_within_protected {r : ProtectedRange} (hsize : 0 < size.toNat)
    (h : validateMemoryRange map address size = true) (hr : r ∈ map.protectedRanges) :
    ¬ (requested address size).Within r.extent := by
  intro hwithin
  obtain ⟨-, hnone⟩ := validateMemoryRange_iff.mp h
  obtain ⟨hstart, hend⟩ := (Extent.within_iff hsize).mp hwithin
  have hlt : r.endAddress.toNat < (address.toNat + size.toNat) % 4294967296 := hnone r hr hstart
  have hle : address.toNat + size.toNat ≤
      r.start.toNat + (r.endAddress.toNat - r.start.toNat) := hend
  have hbegin : r.start.toNat ≤ address.toNat := hstart
  omega

theorem safe_zero (map : MemoryMap) (address : UInt32) : Safe map address 0 := by
  have hnone : ∀ a, a ∉ requested address 0 := by
    intro a ha
    obtain ⟨hle, hlt⟩ := Extent.mem_mk.mp ha
    rw [UInt32.toNat_zero] at hlt
    omega
  constructor
  · exact fun a ha => absurd ha (hnone a)
  · exact fun r _ a ha => absurd ha (hnone a)

theorem toNat_pos (h : size ≠ 0) : 0 < size.toNat :=
  Nat.pos_of_ne_zero fun h0 => h (UInt32.toNat_inj.mp h0)

theorem safe_of_inside (h : validateMemoryRange map address size = true)
    (hends : EndsInside map address size) (hsplit : NoneSplit map address size) :
    Safe map address size := by
  by_cases hzero : size = 0
  · rw [hzero]
    exact safe_zero map address
  · refine ⟨(within_window_iff (toNat_pos hzero) h).mpr hends, fun r hr => ?_⟩
    by_contra htouch
    exact not_within_protected (toNat_pos hzero) h hr (hsplit r hr htouch)

/-- **What a validated range is.** All of it is in the window and none of it protected,
exactly when the sum of its address and its size does not wrap and it does not reach into a
protected range from outside. -/
theorem validated_range_safe_iff {map : MemoryMap} {address size : UInt32}
    (h : validateMemoryRange map address size = true) :
    Safe map address size ↔
      size = 0 ∨ EndsInside map address size ∧ NoneSplit map address size := by
  constructor
  · rintro ⟨hwithin, hapart⟩
    by_cases hzero : size = 0
    · exact .inl hzero
    · refine .inr ⟨(within_window_iff (toNat_pos hzero) h).mp hwithin, fun r hr htouch => ?_⟩
      exact absurd (hapart r hr) htouch
  · rintro (rfl | ⟨hends, hsplit⟩)
    · exact safe_zero map address
    · exact safe_of_inside h hends hsplit

def bootMap : MemoryMap := ⟨0x1000, 0x8000, 0x1000, [⟨0x2000, 0x3000⟩]⟩

theorem block_below_boot_safe :
    validateMemoryRange bootMap 0x1800 0x800 = true ∧ Safe bootMap 0x1800 0x800 := by
  have hvalid : validateMemoryRange bootMap 0x1800 0x800 = true := by decide
  refine ⟨hvalid, (validated_range_safe_iff hvalid).mpr (.inr ⟨by decide, ?_⟩)⟩
  intro r hr htouch
  obtain rfl := List.mem_singleton.mp hr
  exact absurd (Extent.apart_iff.mpr (by decide)) htouch

/-- Two requests the check lets through: one reaches from below into the protected range,
and in a window without one the last address of all is accepted, as its end wraps to zero. -/
theorem unsafe_range_accepted :
    validateMemoryRange bootMap 0x1F00 0x200 = true ∧ ¬ Safe bootMap 0x1F00 0x200 ∧
      validateMemoryRange { bootMap with protectedRanges := [] } 0xFFFFFFFF 1 = true ∧
      ¬ Safe { bootMap with protectedRanges := [] } 0xFFFFFFFF 1 := by
  refine ⟨by decide, ?_, by decide, ?_⟩
  · intro h
    refine h.2 ⟨0x2000, 0x3000⟩ (by decide) 0x2000 ?_ ?_
    all_goals exact Extent.mem_mk.mpr (by decide)
  · intro h
    have hin := h.1 0xFFFFFFFF (Extent.mem_mk.mpr (by decide))
    exact absurd (Extent.mem_mk.mp hin) (by decide)

/-! ## The fields of a request -/

/-- The unsigned big-endian integer of any number of bytes. -/
def beValue (bytes : List UInt8) : Nat :=
  bytes.foldl (fun value byte => value * 256 + byte.toNat) 0

/-- The bytes of the address and of the size, from `off` on. -/
def fields (data : List UInt8) (off : Nat) : List UInt8 × List UInt8 :=
  let (addressSize, lengthSize) := sizes data
  ((data.drop off).take addressSize, (data.drop (off + addressSize)).take lengthSize)

/-- The address and the size are the integers that the fields encode. -/
def Decoded (data : List UInt8) (off : Nat) : Prop :=
  (addressAndSize data off).1.toNat = beValue (fields data off).1 ∧
    (addressAndSize data off).2.toNat = beValue (fields data off).2
  deriving Decidable

theorem toNat_shift_or {value : UInt32} {n : Nat} (h : value.toNat = n % 4294967296)
    (byte : UInt8) :
    ((value <<< 8) ||| byte.toUInt32).toNat = (n * 256 + byte.toNat) % 4294967296 := by
  have hbyte : byte.toNat < 2 ^ 8 := byte.toNat_lt
  have hshift : (value <<< 8).toNat = (value.toNat % 2 ^ 24) <<< 8 := by
    rw [UInt32.toNat_shiftLeft, Nat.shiftLeft_eq, Nat.shiftLeft_eq]
    exact Nat.mul_mod_mul_right (2 ^ 8) value.toNat (2 ^ 24)
  rw [UInt32.toNat_or, UInt8.toNat_toUInt32, hshift, Nat.or_comm, or_shiftLeft hbyte, h]
  omega

theorem toNat_bigEndian (bytes : List UInt8) :
    (bigEndian bytes).toNat = beValue bytes % 4294967296 := by
  refine List.foldl_rel (r := fun (value : UInt32) n => value.toNat = n % 4294967296) rfl ?_
  intro byte _ value n h
  exact toNat_shift_or h byte

/-- **The address and the size.** Of a request that passes the format check only bytes inside are
read, and `validate_memory_range` is given the integers that the fields encode exactly if both are
below 2^32. -/
theorem decoded_iff {off : Nat}
    (hformat : (handleRequestDownload map services data).code ≠ .invalidFormat ∧ off = 3 ∨
      (handleReadMemoryByAddress map services data).code ≠ .invalidFormat ∧ off = 2) :
    off + (sizes data).1 + (sizes data).2 ≤ data.length ∧
      (Decoded data off ↔ beValue (fields data off).1 < 4294967296 ∧
        beValue (fields data off).2 < 4294967296) := by
  constructor
  · rcases hformat with ⟨hcode, rfl⟩ | ⟨hcode, rfl⟩
    · by_contra hshort
      rw [handleRequestDownload, if_pos (Nat.lt_of_not_le hshort), ite_self] at hcode
      exact hcode rfl
    · by_contra hshort
      rw [handleReadMemoryByAddress, if_pos (by omega : data.length ≠ _), ite_self] at hcode
      exact hcode rfl
  · have hfields : addressAndSize data off =
        (bigEndian (fields data off).1, bigEndian (fields data off).2) := rfl
    rw [Decoded, hfields, toNat_bigEndian, toNat_bigEndian]
    omega

theorem decoded_two_bytes : Decoded [0x34, 0x12, 0x00, 0x18, 0x08, 0x00] 3 := by
  have hcode : (handleRequestDownload bootMap ⟨0, fun _ _ _ => true, fun _ _ => none⟩
      [0x34, 0x12, 0x00, 0x18, 0x08, 0x00]).code ≠ .invalidFormat := by decide
  exact (decoded_iff (.inl ⟨hcode, rfl⟩)).2.mpr (by decide)

/-- Of an address of five bytes the first one is lost. -/
theorem five_bytes_cut :
    (handleRequestDownload bootMap ⟨0, fun _ _ _ => true, fun _ _ => none⟩
      [0x34, 0x51, 0x00, 0x01, 0x00, 0x00, 0x18, 0x00, 0x08]).range = some (0x1800, 8) ∧
    beValue (fields [0x34, 0x51, 0x00, 0x01, 0x00, 0x00, 0x18, 0x00, 0x08] 3).1 = 0x100001800 := by
  decide

end Cant.Diagnostic.DiagServices
