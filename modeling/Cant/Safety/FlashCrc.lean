/-
# `FlashCrc` — the checksum of a flash region (`memory_test.c`)

The last four bytes of a region are meant to hold the CRC-32 of what stands before. The test
computes the CRC over the whole region, these four bytes included, and compares that with
them. For the right word that is one and the same value, whatever the payload (`flush`), so it is
accepted only behind a payload whose register happens to agree with it.

A region that starts at address 0 is passed as a null pointer, for which `calculate_crc32`
answers 0.
-/
import Cant.Lib.Word
import Cant.Safety.MemoryTest
import Cant.Utils.Crc

namespace Cant.Safety

open Cant.Utils Word List

/-- `calculate_crc32(data, length)`, at an address. -/
def calculateCrc32At (s : CrcState) (mem : UInt32 → UInt8) (data : UInt32) (length : Nat) :
    UInt32 :=
  if data = 0 then 0
  else s.calculateCrc32 ((List.range length).map fun i => mem (data + .ofNat i))

def loadWord (mem : UInt32 → UInt8) (address : UInt32) : UInt32 :=
  word32 (mem address) (mem (address + 1)) (mem (address + 2)) (mem (address + 3))

def flashCrcTest (s : CrcState) (mem : UInt32 → UInt8) (region : MemoryRegionConfig) :
    MemoryTestResult :=
  if region.type ≠ .flash ∧ region.type ≠ .rom then .failedCrc
  else
    let crc := calculateCrc32At s mem region.startAddress region.size.toNat
    let storedCrc := loadWord mem (region.startAddress + region.size - 4)
    if crc = storedCrc then .ok else .failedCrc

/-! ## The register -/

def crcStep (s : CrcState) (crc : UInt32) (b : UInt8) : UInt32 :=
  (crc >>> 8) ^^^ s.crc32Table (crc.toUInt8 ^^^ b)

def register (s : CrcState) (data : List UInt8) : UInt32 := data.foldl (crcStep s) s.initialValue

def flush (s : CrcState) (crc : UInt32) : UInt32 := [0, 0, 0, 0].foldl (crcStep s) crc

variable {s : CrcState}

theorem calculateCrc32_of_ne_nil {data : List UInt8} (h : data ≠ []) :
    s.calculateCrc32 data = register s data ^^^ s.finalXor := if_neg h

theorem crcStep_xor (crc word : UInt32) :
    crcStep s (crc ^^^ word) 0 = crcStep s crc word.toUInt8 ^^^ (word >>> 8) := by
  simp only [crcStep, UInt32.shiftRight_xor, UInt32.toUInt8_xor, UInt8.xor_zero]
  rw [UInt32.xor_assoc, UInt32.xor_assoc, UInt32.xor_comm (word >>> 8)]

theorem foldl_crcStep_word (crc : UInt32) (b₀ b₁ b₂ b₃ : UInt8) :
    [b₀, b₁, b₂, b₃].foldl (crcStep s) crc = flush s (crc ^^^ word32 b₀ b₁ b₂ b₃) := by
  simp only [flush, foldl_cons, foldl_nil, crcStep_xor, word32_toUInt8, word32_shiftRight]
  rw [show word32 0 0 0 0 = 0 from rfl, UInt32.xor_zero]

/-! ## The region -/

def payload (mem : UInt32 → UInt8) (region : MemoryRegionConfig) : List UInt8 :=
  (List.range (region.size.toNat - 4)).map fun i => mem (region.startAddress + .ofNat i)

def storedCrc (mem : UInt32 → UInt8) (region : MemoryRegionConfig) : UInt32 :=
  loadWord mem (region.startAddress + region.size - 4)

section

variable {mem : UInt32 → UInt8} {region : MemoryRegionConfig}

theorem payload_eq_nil (hsize : 4 ≤ region.size) : payload mem region = [] ↔ region.size = 4 := by
  have hle : 4 ≤ region.size.toNat := UInt32.le_iff_toNat_le.mp hsize
  rw [payload, map_eq_nil_iff, range_eq_nil, ← UInt32.toNat_inj]
  have hfour : (4 : UInt32).toNat = 4 := rfl
  omega

theorem foldl_region (hsize : 4 ≤ region.size) :
    ((List.range region.size.toNat).map fun i => mem (region.startAddress + .ofNat i)).foldl
      (crcStep s) s.initialValue =
        flush s (register s (payload mem region) ^^^ storedCrc mem region) := by
  have hle : 4 ≤ region.size.toNat := UInt32.le_iff_toNat_le.mp hsize
  have hend : UInt32.ofNat (region.size.toNat - 4) = region.size - 4 := by
    refine UInt32.toNat_inj.mp ?_
    have hlt := region.size.toNat_lt
    rw [UInt32.toNat_sub_of_le _ _ hsize]
    exact Nat.mod_eq_of_lt (by omega)
  have haddress : ∀ i, region.startAddress + UInt32.ofNat (region.size.toNat - 4 + i) =
      region.startAddress + region.size - 4 + UInt32.ofNat i := by
    intro i
    rw [UInt32.ofNat_add, hend, UInt32.sub_eq_add_neg, UInt32.sub_eq_add_neg, ← UInt32.add_assoc,
      ← UInt32.add_assoc]
  have hsplit : (List.range region.size.toNat).map (fun i => mem (region.startAddress + .ofNat i)) =
      payload mem region ++ [mem (region.startAddress + region.size - 4),
        mem (region.startAddress + region.size - 4 + 1),
        mem (region.startAddress + region.size - 4 + 2),
        mem (region.startAddress + region.size - 4 + 3)] := by
    have hrange : List.range region.size.toNat = List.range (region.size.toNat - 4) ++
        (List.range 4).map (region.size.toNat - 4 + ·) := by
      rw [← range_add, Nat.sub_add_cancel hle]
    have hfour : List.range 4 = [0, 1, 2, 3] := rfl
    rw [hrange, hfour, map_append]
    simp only [map_cons, map_nil, haddress]
    rw [show UInt32.ofNat 0 = 0 from rfl, UInt32.add_zero]
    rfl
  rw [hsplit, foldl_append, foldl_crcStep_word]
  rfl

theorem flashCrcTest_ok_iff (htype : region.type = .flash ∨ region.type = .rom)
    (hsize : 4 ≤ region.size) :
    flashCrcTest s mem region = .ok ↔
      if region.startAddress = 0 then storedCrc mem region = 0
      else flush s (register s (payload mem region) ^^^ storedCrc mem region) =
        storedCrc mem region ^^^ s.finalXor := by
  have hle : 4 ≤ region.size.toNat := UInt32.le_iff_toNat_le.mp hsize
  have htested : ¬ (region.type ≠ .flash ∧ region.type ≠ .rom) := by
    rintro ⟨hflash, hrom⟩
    exact htype.elim hflash hrom
  have hok : flashCrcTest s mem region = .ok ↔
      calculateCrc32At s mem region.startAddress region.size.toNat = storedCrc mem region := by
    rw [flashCrcTest, if_neg htested]
    show (if _ = storedCrc mem region then _ else _) = _ ↔ _
    split
    case isTrue h => exact iff_of_true rfl h
    case isFalse h => exact iff_of_false MemoryTestResult.noConfusion h
  rw [hok, calculateCrc32At]
  split
  · exact eq_comm
  · rw [calculateCrc32_of_ne_nil, register, foldl_region hsize]
    · generalize flush s (register s (payload mem region) ^^^ storedCrc mem region) = flushed
      constructor
      · intro h
        rw [← h, UInt32.xor_assoc, UInt32.xor_self, UInt32.xor_zero]
      · intro h
        rw [h, UInt32.xor_assoc, UInt32.xor_self, UInt32.xor_zero]
    · rw [ne_eq, map_eq_nil_iff, range_eq_nil]
      omega

theorem flush_right_word (hsize : 4 ≤ region.size)
    (hright : storedCrc mem region = s.calculateCrc32 (payload mem region)) :
    flush s (register s (payload mem region) ^^^ storedCrc mem region) =
        storedCrc mem region ^^^ s.finalXor ↔
      if region.size = 4 then flush s s.initialValue = s.finalXor
      else register s (payload mem region) = flush s s.finalXor := by
  split
  case isTrue hempty =>
    have hnil : payload mem region = [] := (payload_eq_nil hsize).mpr hempty
    rw [hright, hnil]
    show flush s (s.initialValue ^^^ 0) = 0 ^^^ s.finalXor ↔ _
    rw [UInt32.xor_zero, UInt32.zero_xor]
  case isFalse hsome =>
    have hne : payload mem region ≠ [] := mt (payload_eq_nil hsize).mp hsome
    rw [hright, calculateCrc32_of_ne_nil hne, ← UInt32.xor_assoc, UInt32.xor_self, UInt32.zero_xor,
      UInt32.xor_assoc, UInt32.xor_self, UInt32.xor_zero]
    exact eq_comm

/-- **What the flash test checks.** It answers whether the last four bytes are the CRC of the
payload exactly in these cases. At address 0: if they are, or are not, both that CRC and zero.
Elsewhere: if they are it, and the register is the one value that four zero bytes make of the final
mask; or if they are not, and do not come out of the register as themselves. -/
theorem flashCrcTest_exact_iff (htype : region.type = .flash ∨ region.type = .rom)
    (hsize : 4 ≤ region.size) :
    (flashCrcTest s mem region = .ok ↔
        storedCrc mem region = s.calculateCrc32 (payload mem region)) ↔
      if region.startAddress = 0 then
        (storedCrc mem region = 0 ↔ storedCrc mem region = s.calculateCrc32 (payload mem region))
      else if storedCrc mem region = s.calculateCrc32 (payload mem region) then
        if region.size = 4 then flush s s.initialValue = s.finalXor
        else register s (payload mem region) = flush s s.finalXor
      else flush s (register s (payload mem region) ^^^ storedCrc mem region) ≠
        storedCrc mem region ^^^ s.finalXor := by
  rw [flashCrcTest_ok_iff htype hsize]
  split
  · exact Iff.rfl
  · split
    case isTrue hright =>
      rw [flush_right_word hsize hright]
      exact ⟨fun h => h.mpr hright, fun h => iff_of_true h hright⟩
    case isFalse hwrong =>
      exact ⟨fun h hflush => hwrong (h.mp hflush), fun h => iff_of_false h hwrong⟩

end

def image (bytes : List UInt8) (address : UInt32) : UInt8 :=
  bytes.getD (address - 0x1000).toNat 0xFF

/-- Four bytes and a word of zeros behind them, which is not their CRC. -/
theorem flashCrcTest_zero_word :
    flashCrcTest CrcState.start.crcInit (image [1, 2, 3, 4, 0, 0, 0, 0]) ⟨0x1000, 8, .flash⟩ = .ok ↔
      storedCrc (image [1, 2, 3, 4, 0, 0, 0, 0]) ⟨0x1000, 8, .flash⟩ =
        CrcState.start.crcInit.calculateCrc32
          (payload (image [1, 2, 3, 4, 0, 0, 0, 0]) ⟨0x1000, 8, .flash⟩) :=
  (flashCrcTest_exact_iff (.inl rfl) (by decide)).mpr (by decide)

/-- The same bytes with their CRC behind them are refused. -/
theorem flashCrcTest_refuses_crc :
    storedCrc (image [1, 2, 3, 4, 0xE3, 0x67, 0x80, 0xFF]) ⟨0x1000, 8, .flash⟩ =
        CrcState.start.crcInit.calculateCrc32
          (payload (image [1, 2, 3, 4, 0xE3, 0x67, 0x80, 0xFF]) ⟨0x1000, 8, .flash⟩) ∧
      flashCrcTest CrcState.start.crcInit (image [1, 2, 3, 4, 0xE3, 0x67, 0x80, 0xFF])
        ⟨0x1000, 8, .flash⟩ = .failedCrc := by
  decide

end Cant.Safety
