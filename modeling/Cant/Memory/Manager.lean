/-
# `Manager` — the memory manager

`memory_manager.c` hands out blocks of one heap and of up to sixteen pools. A
heap block is a header, `size` data bytes and a footer; the headers form a doubly
linked list from `first_block` to `last_block`.

Memory is a byte for every address, and the layout is that of a 64-bit target:

    MemBlock   size 0, flags 4, file 8, line 16, next 24, prev 32, guard_front 40; 48 bytes
    MemFooter  guard_back 0; 4 bytes

so `BLOCK_OVERHEAD` and `MIN_BLOCK_SIZE` are 52. What `malloc` answers is an argument of
`init`; the two index arrays of a pool are lists beside the memory.

A walk along `next` that visits more blocks than there are addresses never ends,
so the walks have that many steps and a call that does not return answers `none`;
so does a call that reads or writes one of a pool's arrays out of bounds, or
divides by a zero `block_size`.
-/
import Cant.Lib.ByteMem
import Cant.Lib.Word

namespace Cant.Memory

open Word

/-- `MemConfig`; `pools` pairs `pool_sizes` with `pool_counts`, `none` when one of
them is NULL. -/
structure MemConfig where
  heapSize : Nat
  pools : Option (List (Nat × Nat))
  enableGuards : Bool
  enableStats : Bool

/-- `MemStats`, without the figure that `Memory_GetStats` computes. -/
structure MemStats where
  totalAllocated : Nat
  totalFreed : Nat
  currentUsage : Nat
  peakUsage : Nat
  allocationCount : Nat
  freeCount : Nat
  poolAllocations : Nat
  heapAllocations : Nat

structure MemoryPool where
  poolMemory : Nat
  blockSize : Nat
  blockCount : Nat
  freeBlocks : Nat
  freeList : List Nat
  blockUsed : List Bool

/-- The static `mem_mgr`, and the memory. -/
structure MemoryManager where
  config : MemConfig
  heapMemory : Nat
  firstBlock : Nat
  lastBlock : Nat
  pools : List MemoryPool
  stats : MemStats
  initialized : Bool
  mem : Mem

abbrev guardPattern : Nat := 0xDEADBEEF

abbrev walkFuel : Nat := 18446744073709551616

/-! ## Header fields -/

def blkSize (m : Mem) (block : Nat) : Nat := m.rd block 4

def blkFlags (m : Mem) (block : Nat) : Nat := m.rd (block + 4) 4

def blkNext (m : Mem) (block : Nat) : Nat := m.rd (block + 24) 8

def blkPrev (m : Mem) (block : Nat) : Nat := m.rd (block + 32) 8

def blkUsed (m : Mem) (block : Nat) : Bool := decide (blkFlags m block &&& 1 ≠ 0)

def blkPooled (m : Mem) (block : Nat) : Bool := decide (blkFlags m block &&& 2 ≠ 0)

/-- A block: where its header is, how many data bytes it has, and whether it is
used. -/
structure Blk where
  addr : Nat
  size : Nat
  used : Bool
  deriving DecidableEq

def Blk.stop (b : Blk) : Nat := b.addr + 52 + b.size

def MemStats.allocated (st : MemStats) (size : Nat) (fromPool : Bool) : MemStats :=
  let usage := u32 (st.currentUsage + size)
  { st with
    totalAllocated := u32 (st.totalAllocated + size)
    currentUsage := usage
    allocationCount := u32 (st.allocationCount + 1)
    poolAllocations := if fromPool then u32 (st.poolAllocations + 1) else st.poolAllocations
    heapAllocations := if fromPool then st.heapAllocations else u32 (st.heapAllocations + 1)
    peakUsage := if usage > st.peakUsage then usage else st.peakUsage }

def MemStats.freed (st : MemStats) (size : Nat) : MemStats :=
  { st with
    totalFreed := u32 (st.totalFreed + size)
    currentUsage := u32 (st.currentUsage - size)
    freeCount := u32 (st.freeCount + 1) }

/-- `(size + sizeof(void*) - 1) & ALIGNMENT_MASK`, stored in a `uint32_t`. -/
def align (size : Nat) : Nat := u32 ((size + 7) / 8 * 8 : Nat)

/-- `(block_ptr - pool_memory) / block_size`, stored in a `uint32_t`; a pointer
difference is signed, and the division truncates. -/
def MemoryPool.blockIndex (pool : MemoryPool) (block : Nat) : Nat :=
  u32 (((block : Int) - pool.poolMemory).tdiv pool.blockSize)

def MemoryPool.freeToPool (pool : MemoryPool) (ptr : Nat) : Option (Option MemoryPool) :=
  if pool.blockSize = 0 then none
  else
    let blockIndex := pool.blockIndex (ptr - 48)
    if blockIndex ≥ pool.blockCount then some none
    else do
      let used ← pool.blockUsed[blockIndex]?
      if ¬ used then some none
      else if pool.freeBlocks < pool.freeList.length then
        some (some { pool with
          blockUsed := pool.blockUsed.set blockIndex false
          freeList := pool.freeList.set pool.freeBlocks blockIndex
          freeBlocks := pool.freeBlocks + 1 })
      else none

/-- The loop of `Memory_Free` over the pools: the pools afterwards, if one took
the pointer. -/
def freeToPools (ptr : Nat) : List MemoryPool → Option (Option (List MemoryPool))
  | [] => some none
  | pool :: pools => do
    match ← pool.freeToPool ptr with
    | some pool => some (some (pool :: pools))
    | none => (freeToPools ptr pools).map fun r => r.map (pool :: ·)

namespace MemoryManager

/-! ## Guards and validity -/

def isValidBlock (s : MemoryManager) (block : Nat) : Bool :=
  decide (block ≠ 0 ∧ ¬ block < s.heapMemory ∧ ¬ block ≥ s.heapMemory + s.config.heapSize ∧
    blkSize s.mem block ≠ 0 ∧ ¬ blkSize s.mem block > s.config.heapSize - 52)

def setupBlockGuards (s : MemoryManager) (block : Nat) : MemoryManager :=
  if ¬ s.config.enableGuards ∨ block = 0 then s
  else
    let mem := s.mem.wr (block + 40) 4 guardPattern
    { s with mem := mem.wr (block + 48 + blkSize mem block) 4 guardPattern }

def checkBlockGuards (s : MemoryManager) (block : Nat) : Bool :=
  decide (s.config.enableGuards = true ∧ block ≠ 0 ∧ s.mem.rd (block + 40) 4 = guardPattern ∧
    s.mem.rd (block + 48 + blkSize s.mem block) 4 = guardPattern)

/-! ## Pools -/

def findSuitablePool (s : MemoryManager) (size : Nat) : Option Nat :=
  s.pools.findIdx? fun pool => decide (pool.blockSize ≥ size ∧ pool.freeBlocks > 0)

def allocateFromPool (s : MemoryManager) (i file line : Nat) : Option (MemoryManager × Nat) := do
  let pool ← s.pools[i]?
  if pool.freeBlocks = 0 then some (s, 0)
  else do
    let blockIndex ← pool.freeList[pool.freeBlocks - 1]?
    let _ ← pool.blockUsed[blockIndex]?
    let taken := { pool with
      freeBlocks := pool.freeBlocks - 1, blockUsed := pool.blockUsed.set blockIndex true }
    let block := pool.poolMemory + u32 (blockIndex * pool.blockSize : Nat)
    let mem := s.mem.wr block 4 (u32 (pool.blockSize - 52))
    let mem := mem.wr (block + 4) 4 3
    let mem := mem.wr (block + 8) 8 file
    let mem := mem.wr (block + 16) 4 line
    some (setupBlockGuards { s with pools := s.pools.set i taken, mem := mem } block, block + 48)

/-! ## The block list -/

def bestFitFrom (m : Mem) (size : Nat) : Nat → Nat → Nat → Nat → Option Nat
  | 0, _, _, _ => none
  | fuel + 1, block, bestBlock, bestSize =>
    if block = 0 then some bestBlock
    else if ¬ blkUsed m block ∧ blkSize m block ≥ size ∧ blkSize m block < bestSize then
      if blkSize m block = size then some block
      else bestFitFrom m size fuel (blkNext m block) block (blkSize m block)
    else bestFitFrom m size fuel (blkNext m block) bestBlock bestSize

def findBestFit (s : MemoryManager) (size : Nat) : Option Nat :=
  bestFitFrom s.mem size walkFuel s.firstBlock 0 0xFFFFFFFF

/-- `if (next) next->prev = block; else last_block = block;`, the end of every
change of the list. -/
def setBackLink (s : MemoryManager) (next block : Nat) : MemoryManager :=
  if next ≠ 0 then { s with mem := s.mem.wr (next + 32) 8 block }
  else { s with lastBlock := block }

def splitBlock (s : MemoryManager) (block size : Nat) : MemoryManager :=
  let remaining := u32 ((blkSize s.mem block : Int) - size - 52)
  if remaining < 52 then s
  else
    let newBlock := block + 48 + size + 4
    let mem := s.mem.wr newBlock 4 (u32 (remaining - 52))
    let mem := mem.wr (newBlock + 4) 4 0
    let mem := mem.wr (newBlock + 8) 8 0
    let mem := mem.wr (newBlock + 16) 4 0
    let mem := mem.wr (newBlock + 24) 8 (blkNext mem block)
    let mem := mem.wr (newBlock + 32) 8 block
    let s := setBackLink { s with mem := mem } (blkNext mem block) newBlock
    { s with mem := (s.mem.wr (block + 24) 8 newBlock).wr block 4 size }

/-- Make `block` one with the block `other` that comes next on the list: how
`Memory_Free` merges in both directions, and `Memory_Realloc` and
`Memory_Defragment` forwards. -/
def absorb (s : MemoryManager) (block other : Nat) : MemoryManager :=
  let mem := s.mem.wr block 4 (u32 (blkSize s.mem block + (blkSize s.mem other + 52)))
  let mem := mem.wr (block + 24) 8 (blkNext mem other)
  setBackLink { s with mem := mem } (blkNext mem block) block

/-! ## The interface -/

/-- A pool of `Memory_Init`, if its memory and its arrays could be allocated. -/
def initPool (malloc : Nat → Nat × Bool) (entry : (Nat × Nat) × Nat) : Option MemoryPool :=
  let ((blockSize, blockCount), i) := entry
  let (poolMemory, arrays) := malloc i
  if poolMemory = 0 ∨ ¬ arrays then none
  else some {
    poolMemory := poolMemory
    blockSize := blockSize
    blockCount := blockCount
    freeBlocks := blockCount
    freeList := List.range blockCount
    blockUsed := List.replicate blockCount false }

/-- `Memory_Init`, in a memory `mem`. `heap` is the answer of the first `malloc`,
`malloc i` the memory of pool `i` and whether its two arrays were allocated;
`none` when the call answers false. -/
def init (config : MemConfig) (mem : Mem) (heap : Nat) (malloc : Nat → Nat × Bool) :
    Option MemoryManager :=
  if config.heapSize < 52 ∨ heap = 0 then none
  else
    let mem := mem.wr heap 4 (u32 (config.heapSize - 52))
    let mem := mem.wr (heap + 4) 4 0
    let mem := mem.wr (heap + 24) 8 0
    let mem := mem.wr (heap + 32) 8 0
    some {
      config := config
      heapMemory := heap
      firstBlock := heap
      lastBlock := heap
      pools := ((config.pools.getD []).take 16).zipIdx.filterMap (initPool malloc)
      stats := ⟨0, 0, 0, 0, 0, 0, 0, 0⟩
      initialized := true
      mem := mem }

def record (s : MemoryManager) (f : MemStats → MemStats) : MemoryManager :=
  if s.config.enableStats then { s with stats := f s.stats } else s

def setupBlock (s : MemoryManager) (block file line : Nat) : MemoryManager :=
  let mem := s.mem.wr (block + 4) 4 1
  let mem := mem.wr (block + 8) 8 file
  let mem := mem.wr (block + 16) 4 line
  setupBlockGuards { s with mem := mem } block

/-- The heap part of `Memory_Alloc`, from the aligned size on. -/
def allocFromHeap (s : MemoryManager) (size file line : Nat) : Option (MemoryManager × Nat) := do
  let block ← s.findBestFit size
  if block = 0 then some (s, 0)
  else
    some (((s.splitBlock block size).setupBlock block file line).record (·.allocated size false),
      block + 48)

/-- `Memory_Alloc`: the pointer is 0 when there is none. -/
def alloc (s : MemoryManager) (size file line : Nat) : Option (MemoryManager × Nat) :=
  if ¬ s.initialized ∨ size = 0 then some (s, 0)
  else
    match s.findSuitablePool (u32 (size + 52)) with
    | some i => do
      let (s', ptr) ← s.allocateFromPool i file line
      if ptr ≠ 0 then some (s'.record (·.allocated size true), ptr)
      else s'.allocFromHeap (align size) file line
    | none => s.allocFromHeap (align size) file line

/-- `((uintptr_t)raw + sizeof(void*) + alignment - 1) & ~(alignment - 1)`. The
complement is that of a `uint32_t`: the mask has 32 bits and the address has 64. -/
def alignAddress (raw alignment : Nat) : Nat :=
  u64 ((raw : Int) + 8 + alignment - 1) &&& u32 (-1 - ((alignment : Int) - 1))

def allocAligned (s : MemoryManager) (size alignment file line : Nat) :
    Option (MemoryManager × Nat) :=
  if ¬ s.initialized ∨ size = 0 ∨ alignment = 0 then some (s, 0)
  else if alignment &&& (alignment - 1) ≠ 0 then some (s, 0)
  else do
    let (t, raw) ← s.alloc (u32 (size + alignment + 8)) file line
    if raw = 0 then some (t, 0)
    else
      let aligned := alignAddress raw alignment
      -- the word below the answer says where the block begins
      some ({ t with mem := t.mem.wr (u64 ((aligned : Int) - 8)) 8 raw }, aligned)

inductive FreeResult where
  | ignored
  | pooled
  | invalid
  | doubleFree
  | corrupted
  | freed
  deriving DecidableEq

def clearBlock (s : MemoryManager) (block : Nat) : MemoryManager :=
  let mem := s.mem.fill (block + 48) (blkSize s.mem block) 0
  let mem := mem.wr (block + 4) 4 0
  let mem := mem.wr (block + 8) 8 0
  { s with mem := mem.wr (block + 16) 4 0 }

def mergeNext (s : MemoryManager) (block : Nat) : MemoryManager :=
  if blkNext s.mem block ≠ 0 ∧ ¬ blkUsed s.mem (blkNext s.mem block)
  then s.absorb block (blkNext s.mem block) else s

def mergePrev (s : MemoryManager) (block : Nat) : MemoryManager :=
  if blkPrev s.mem block ≠ 0 ∧ ¬ blkUsed s.mem (blkPrev s.mem block)
  then s.absorb (blkPrev s.mem block) block else s

def freeBlock (s : MemoryManager) (block : Nat) : MemoryManager × FreeResult :=
  if ¬ s.isValidBlock block then (s, .invalid)
  else if ¬ blkUsed s.mem block then (s, .doubleFree)
  else if ¬ s.checkBlockGuards block then (s, .corrupted)
  else
    let s := s.record (·.freed (blkSize s.mem block))
    (((s.clearBlock block).mergeNext block).mergePrev block, .freed)

def free (s : MemoryManager) (ptr : Nat) : Option (MemoryManager × FreeResult) :=
  if ¬ s.initialized ∨ ptr = 0 then some (s, .ignored)
  else if blkPooled s.mem (ptr - 48) then do
    match ← freeToPools ptr s.pools with
    | some pools =>
      some (({ s with pools := pools }).record (·.freed (blkSize s.mem (ptr - 48))), .pooled)
    | none => some (s.freeBlock (ptr - 48))
  else some (s.freeBlock (ptr - 48))

/-- Whether `Memory_Realloc` grows a block into the next one. -/
def canMerge (s : MemoryManager) (block size : Nat) : Bool :=
  decide (blkNext s.mem block ≠ 0 ∧ ¬ blkUsed s.mem (blkNext s.mem block) ∧
    u32 (blkSize s.mem block + blkSize s.mem (blkNext s.mem block)) + 52 ≥ size)

/-- `memcpy` to the new block, and `Memory_Free` of the old one. -/
def moveTo (s : MemoryManager) (newPtr ptr length : Nat) : Option (MemoryManager × Nat) :=
  (free { s with mem := s.mem.copy newPtr ptr length } ptr).map fun r => (r.1, newPtr)

/-- `Memory_Realloc` into a new block: allocate, copy `length` bytes, which is
read from the state after the allocation, and free. -/
def reallocMove (s : MemoryManager) (ptr size file line : Nat) (length : MemoryManager → Nat) :
    Option (MemoryManager × Nat) := do
  let (t, newPtr) ← s.alloc size file line
  if newPtr ≠ 0 then t.moveTo newPtr ptr (length t) else some (t, newPtr)

/-- `block->size < size ? block->size : size`. -/
def copyLength (block size : Nat) (s : MemoryManager) : Nat :=
  if blkSize s.mem block < size then blkSize s.mem block else size

/-- `Memory_Realloc` of a heap allocation, from the aligned size on. -/
def reallocHeap (s : MemoryManager) (ptr size file line : Nat) : Option (MemoryManager × Nat) :=
  let block := ptr - 48
  if size ≤ blkSize s.mem block then
    if size < blkSize s.mem block then some (s.splitBlock block size, ptr) else some (s, ptr)
  else if s.canMerge block size then
    some ((s.absorb block (blkNext s.mem block)).splitBlock block size, ptr)
  else s.reallocMove ptr size file line fun t => blkSize t.mem block

def realloc (s : MemoryManager) (ptr size file line : Nat) : Option (MemoryManager × Nat) :=
  if ¬ s.initialized then some (s, 0)
  else if ptr = 0 then s.alloc size file line
  else if size = 0 then (s.free ptr).map fun r => (r.1, 0)
  else if blkPooled s.mem (ptr - 48) then
    s.reallocMove ptr size file line (copyLength (ptr - 48) size)
  else if ¬ s.isValidBlock (ptr - 48) then some (s, 0)
  else if ¬ s.checkBlockGuards (ptr - 48) then some (s, 0)
  else s.reallocHeap ptr (align size) file line

def mergePass : Nat → MemoryManager → Nat → Bool → Option (MemoryManager × Bool)
  | 0, _, _, _ => none
  | fuel + 1, s, block, merged =>
    if block = 0 ∨ blkNext s.mem block = 0 then some (s, merged)
    else if ¬ blkUsed s.mem block ∧ ¬ blkUsed s.mem (blkNext s.mem block) then
      mergePass fuel (s.absorb block (blkNext s.mem block)) block true
    else mergePass fuel s (blkNext s.mem block) merged

def mergePasses : Nat → MemoryManager → Option MemoryManager
  | 0, _ => none
  | fuel + 1, s => do
    let (s, merged) ← mergePass walkFuel s s.firstBlock false
    if merged then mergePasses fuel s else some s

def defragment (s : MemoryManager) : Option MemoryManager :=
  if ¬ s.initialized then some s else mergePasses walkFuel s

/-- The loop of `Memory_CheckIntegrity` over the heap: whether every block passed,
and the total. -/
def checkHeap (s : MemoryManager) : Nat → Nat → Nat → Option (Bool × Nat)
  | 0, _, _ => none
  | fuel + 1, block, total =>
    if block = 0 then some (true, total)
    else if ¬ s.isValidBlock block then some (false, total)
    else if blkUsed s.mem block ∧ ¬ s.checkBlockGuards block then some (false, total)
    else if blkNext s.mem block ≠ 0 ∧ blkPrev s.mem (blkNext s.mem block) ≠ block then
      some (false, total)
    else if blkNext s.mem block = 0 ∧ block ≠ s.lastBlock then some (false, total)
    else s.checkHeap fuel (blkNext s.mem block) (u32 (total + (blkSize s.mem block + 52)))

/-- What `Memory_CheckIntegrity` checks of a pool. -/
def checkPool (s : MemoryManager) (pool : MemoryPool) : Bool :=
  (pool.blockUsed.zipIdx.all fun (used, j) =>
    !used || s.checkBlockGuards (pool.poolMemory + u32 (j * pool.blockSize : Nat))) &&
  (pool.freeList.take pool.freeBlocks).all fun j => decide (j < pool.blockCount)

def checkIntegrity (s : MemoryManager) : Option Bool :=
  if ¬ s.initialized then some false
  else do
    let (ok, total) ← s.checkHeap walkFuel s.firstBlock 0
    some (ok && decide (total ≤ s.config.heapSize) && s.pools.all s.checkPool)

/-- The loop of `Memory_GetStats`: how much is free, and the largest free block. -/
def freeFigures (m : Mem) : Nat → Nat → Nat → Nat → Option (Nat × Nat)
  | 0, _, _, _ => none
  | fuel + 1, block, totalFree, largestFree =>
    if block = 0 then some (totalFree, largestFree)
    else if blkUsed m block then freeFigures m fuel (blkNext m block) totalFree largestFree
    else freeFigures m fuel (blkNext m block) (u32 (totalFree + blkSize m block))
      (if blkSize m block > largestFree then blkSize m block else largestFree)

/-- `Memory_GetStats`: the statistics and the fragmentation, if it writes them. -/
def getStats (s : MemoryManager) : Option (Option (MemStats × Nat)) :=
  if ¬ s.initialized then some none
  else do
    let (totalFree, largestFree) ← freeFigures s.mem walkFuel s.firstBlock 0 0
    let fragmentation :=
      if totalFree > 0 then u32 (100 - (largestFree * 100 / totalFree : Nat)) else 0
    some (some (s.stats, fragmentation))

/-- The block list as a walk along `next` finds it. -/
def blocksFrom (m : Mem) : Nat → Nat → Option (List Blk)
  | 0, _ => none
  | fuel + 1, block =>
    if block = 0 then some []
    else (blocksFrom m fuel (blkNext m block)).map
      (⟨block, blkSize m block, blkUsed m block⟩ :: ·)

def blocks (s : MemoryManager) : Option (List Blk) :=
  blocksFrom s.mem walkFuel s.firstBlock

end MemoryManager

end Cant.Memory
