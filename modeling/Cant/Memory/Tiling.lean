/-
# `Tiling` — the block list and the heap it should tile

`Tiles` says that the blocks found along `next` are the heap cut into pieces, with
nothing between or behind them, and that `next`, `prev` and `last_block` agree.

`Memory_Init` makes one block of the whole heap, and the list tiles it.
`split_block` ends that: it takes `BLOCK_OVERHEAD` off for the new block when it
computes `remaining` and once more when it stores the new block's size, so that
every split leaves 52 bytes in no block (and a block less than 52 bytes larger than
`size` is split as well, since `remaining` borrows). With the first split the tiling
is gone (`alloc_untiles`).
-/
import Cant.Memory.Client

namespace Cant.Memory

open Run Word List Mem

namespace MemoryManager

/-- The blocks tile the heap, and the links agree. -/
structure Tiles (s : MemoryManager) (bs : List Blk) : Prop where
  adjacent : bs.IsChain fun b c => c.addr = b.stop
  inside : ∀ b ∈ bs, s.heapMemory ≤ b.addr ∧ b.stop ≤ s.heapMemory + s.config.heapSize
  total : (bs.map fun b => b.size + 52).sum = s.config.heapSize
  prev : bs.map (fun b => blkPrev s.mem b.addr) = 0 :: (bs.map Blk.addr).dropLast
  last : (bs.map Blk.addr).getLast? = some s.lastBlock

def Tiled (s : MemoryManager) : Prop := ∃ bs, s.blocks = some bs ∧ s.Tiles bs

/-- `split_block(block, size)` gets past its test and splits. -/
def Splits (s : MemoryManager) (block size : Nat) : Prop :=
  52 ≤ u32 ((blkSize s.mem block : Int) - size - 52)

/-- No split in `Memory_Alloc(size)`. -/
def AllocWhole (s : MemoryManager) (size : Nat) : Prop :=
  size ≠ 0 → ∀ block, s.findBestFit (align size) = some block → block ≠ 0 →
    ¬ s.Splits block (align size)

/-- No split in `Memory_Realloc(ptr, size)`: neither when the block is shrunk, nor
after it has taken in the next one, nor in the allocation of a new one. -/
def ReallocWhole (s : MemoryManager) (ptr size : Nat) : Prop :=
  let block := ptr - 48
  if ptr = 0 ∨ blkPooled s.mem block then s.AllocWhole size
  else if size = 0 ∨ ¬ s.isValidBlock block ∨ ¬ s.checkBlockGuards block then True
  else if align size ≤ blkSize s.mem block then
    align size < blkSize s.mem block → ¬ s.Splits block (align size)
  else if s.canMerge block (align size) then
    ¬ (s.absorb block (blkNext s.mem block)).Splits block (align size)
  else s.AllocWhole (align size)

def Whole (s : MemoryManager) : MemOp → Prop
  | .alloc size _ _ => s.AllocWhole size
  | .realloc ptr size _ _ => s.ReallocWhole ptr size
  | _ => True

/-! ## One block -/

structure OneBlock (s : MemoryManager) : Prop where
  heap : s.heapMemory ≠ 0
  fits : 52 ≤ s.config.heapSize
  pools : s.pools = []
  first : s.firstBlock = s.heapMemory
  last : s.lastBlock = s.heapMemory
  size : blkSize s.mem s.heapMemory = s.config.heapSize - 52
  next : blkNext s.mem s.heapMemory = 0
  prev : blkPrev s.mem s.heapMemory = 0

/-- The bytes of the first block's `size`, `next` and `prev`. -/
def ListWord (s : MemoryManager) (x : Nat) : Prop :=
  s.heapMemory ≤ x ∧ (x < s.heapMemory + 4 ∨ s.heapMemory + 24 ≤ x ∧ x < s.heapMemory + 40)

/-- What a call on a heap of one block leaves alone. -/
structure Keeps (s t : MemoryManager) : Prop where
  config : t.config = s.config
  heap : t.heapMemory = s.heapMemory
  first : t.firstBlock = s.firstBlock
  last : t.lastBlock = s.lastBlock
  pools : t.pools = s.pools
  words : ∀ x, s.ListWord x → t.mem x = s.mem x

variable {s t u : MemoryManager}

theorem Keeps.refl (s : MemoryManager) : Keeps s s :=
  ⟨rfl, rfl, rfl, rfl, rfl, fun _ _ => rfl⟩

theorem Keeps.trans (h : Keeps s t) (h' : Keeps t u) : Keeps s u where
  config := h'.config.trans h.config
  heap := h'.heap.trans h.heap
  first := h'.first.trans h.first
  last := h'.last.trans h.last
  pools := h'.pools.trans h.pools
  words x hx := by
    have hx' : t.ListWord x := by rw [ListWord, h.heap]; exact hx
    exact (h'.words x hx').trans (h.words x hx)

theorem Keeps.setMem (s : MemoryManager) {m : Mem} (h : ∀ x, s.ListWord x → m x = s.mem x) :
    Keeps s { s with mem := m } :=
  ⟨rfl, rfl, rfl, rfl, rfl, h⟩

theorem Keeps.record (s : MemoryManager) (f : MemStats → MemStats) : Keeps s (s.record f) := by
  unfold MemoryManager.record
  split
  · exact ⟨rfl, rfl, rfl, rfl, rfl, fun _ _ => rfl⟩
  · exact Keeps.refl s

theorem OneBlock.keeps (h : OneBlock s) (hk : Keeps s t) : OneBlock t where
  heap := by rw [hk.heap]; exact h.heap
  fits := by rw [hk.config]; exact h.fits
  pools := hk.pools.trans h.pools
  first := by rw [hk.first, hk.heap]; exact h.first
  last := by rw [hk.last, hk.heap]; exact h.last
  size := by
    rw [hk.heap, hk.config, ← h.size]
    exact rd_congr fun x _ _ => hk.words x ⟨by omega, by omega⟩
  next := by
    rw [hk.heap, ← h.next]
    exact rd_congr fun x _ _ => hk.words x ⟨by omega, by omega⟩
  prev := by
    rw [hk.heap, ← h.prev]
    exact rd_congr fun x _ _ => hk.words x ⟨by omega, by omega⟩

theorem OneBlock.tiled (h : OneBlock s) : s.Tiled := by
  refine ⟨[⟨s.heapMemory, s.config.heapSize - 52, blkUsed s.mem s.heapMemory⟩], ?_, ?_⟩
  · show blocksFrom s.mem (18446744073709551614 + 1 + 1) s.firstBlock = _
    rw [h.first, blocksFrom, if_neg h.heap, h.next, h.size]
    rfl
  · refine ⟨.singleton _, fun b hb => ?_, ?_, ?_, ?_⟩
    · rw [mem_singleton.mp hb]
      exact ⟨.refl, by have := h.fits; simp only [Blk.stop]; omega⟩
    · have := h.fits
      simp only [map_cons, map_nil, sum_cons, sum_nil]
      omega
    · simp [h.prev]
    · simp [h.last]

theorem OneBlock.findBestFit (h : OneBlock s) (size : Nat) :
    s.findBestFit size = some 0 ∨ s.findBestFit size = some s.heapMemory := by
  show bestFitFrom s.mem size (18446744073709551614 + 1 + 1) s.firstBlock 0 0xFFFFFFFF = some 0 ∨
    bestFitFrom s.mem size (18446744073709551614 + 1 + 1) s.firstBlock 0 0xFFFFFFFF = some _
  rw [h.first, bestFitFrom, if_neg h.heap, h.next]
  split
  · split
    · exact .inr rfl
    · exact .inr rfl
  · exact .inl rfl

theorem splitBlock_of_not (size : Nat) {block : Nat} (h : ¬ s.Splits block size) :
    s.splitBlock block size = s :=
  if_pos (Nat.lt_of_not_le h)

/-! ## The calls -/

theorem Keeps.setupBlockGuards (s : MemoryManager) : Keeps s (s.setupBlockGuards s.heapMemory) := by
  unfold MemoryManager.setupBlockGuards
  split
  · exact Keeps.refl s
  · refine Keeps.setMem s fun x ⟨hx, hx'⟩ => ?_
    rw [wr_of_not (by omega), wr_of_not (by omega)]

theorem Keeps.setupBlock (s : MemoryManager) (file line : Nat) :
    Keeps s (s.setupBlock s.heapMemory file line) := by
  refine (Keeps.setMem s fun x ⟨hx, hx'⟩ => ?_).trans (Keeps.setupBlockGuards _)
  rw [wr_of_not (by omega), wr_of_not (by omega), wr_of_not (by omega)]

theorem OneBlock.allocFromHeap (h : OneBlock s) {size : Nat} (hw : ∀ block,
    s.findBestFit size = some block → block ≠ 0 → ¬ s.Splits block size) (file line : Nat) :
    ∃ t ptr, s.allocFromHeap size file line = some (t, ptr) ∧ Keeps s t ∧
      (ptr ≠ 0 → ptr = s.heapMemory + 48) := by
  unfold MemoryManager.allocFromHeap
  rcases h.findBestFit size with hfit | hfit
  · simp only [some_bind hfit, if_pos]
    exact ⟨s, 0, rfl, Keeps.refl s, fun h0 => absurd rfl h0⟩
  · simp only [some_bind hfit, if_neg h.heap, splitBlock_of_not size (hw _ hfit h.heap)]
    exact ⟨_, _, rfl, (Keeps.setupBlock s file line).trans (Keeps.record _ _), fun _ => rfl⟩

theorem OneBlock.alloc (h : OneBlock s) {size : Nat} (hw : s.AllocWhole size) (file line : Nat) :
    ∃ t ptr, s.alloc size file line = some (t, ptr) ∧ Keeps s t ∧
      (ptr ≠ 0 → ptr = s.heapMemory + 48) := by
  unfold MemoryManager.alloc
  split
  · exact ⟨s, 0, rfl, Keeps.refl s, fun h0 => absurd rfl h0⟩
  · next hsize =>
    have hnone : s.findSuitablePool (u32 (size + 52)) = none := by
      rw [findSuitablePool, h.pools]
      rfl
    rw [hnone]
    exact h.allocFromHeap (hw fun h0 => hsize (.inr h0)) file line

theorem Keeps.clearBlock (s : MemoryManager) : Keeps s (s.clearBlock s.heapMemory) := by
  refine Keeps.setMem s fun x ⟨hx, hx'⟩ => ?_
  rw [wr_of_not (by omega), wr_of_not (by omega), wr_of_not (by omega),
    fill_of_not (by omega)]

section

variable {ptr size : Nat}
variable (h : OneBlock s)
include h

theorem OneBlock.merge : (s.mergeNext s.heapMemory).mergePrev s.heapMemory = s := by
  have hnext : s.mergeNext s.heapMemory = s := if_neg fun hn => hn.1 h.next
  rw [hnext]
  exact if_neg fun hp => hp.1 h.prev

theorem OneBlock.freeBlock : Keeps s (s.freeBlock s.heapMemory).1 := by
  unfold MemoryManager.freeBlock
  split
  · exact Keeps.refl s
  split
  · exact Keeps.refl s
  split
  · exact Keeps.refl s
  have hrec := Keeps.record s (·.freed (blkSize s.mem s.heapMemory))
  have hk := hrec.trans (Keeps.clearBlock _)
  have hmerge := (h.keeps hk).merge
  rw [hk.heap, hrec.heap] at hmerge
  rw [hrec.heap] at hk
  dsimp only
  rw [hmerge]
  exact hk

theorem OneBlock.free (hptr : ptr = 0 ∨ ptr = s.heapMemory + 48) :
    ∃ t r, s.free ptr = some (t, r) ∧ Keeps s t := by
  unfold MemoryManager.free
  split
  · exact ⟨s, _, rfl, Keeps.refl s⟩
  · have hblock : ptr - 48 = s.heapMemory := by omega
    rw [hblock, h.pools]
    split
    all_goals exact ⟨_, _, rfl, h.freeBlock⟩

theorem OneBlock.reallocMove (hw : s.AllocWhole size)
    (file line : Nat) (length : MemoryManager → Nat) :
    ∃ t ptr, s.reallocMove (s.heapMemory + 48) size file line length = some (t, ptr) ∧
      Keeps s t ∧ (ptr ≠ 0 → ptr = s.heapMemory + 48) := by
  obtain ⟨t, ptr, halloc, hk, hptr⟩ := h.alloc hw file line
  simp only [MemoryManager.reallocMove, some_bind halloc]
  split
  · next hne =>
    obtain rfl := hptr hne
    have hcopy : Keeps t
        { t with mem := t.mem.copy (s.heapMemory + 48) (s.heapMemory + 48) (length t) } :=
      Keeps.setMem t fun x ⟨hx, hx'⟩ => copy_of_not (by rw [hk.heap] at hx hx'; omega)
    have hfree := ((h.keeps hk).keeps hcopy).free (.inr (congrArg (· + 48) hk.heap.symm))
    obtain ⟨u, r, hfree, hk'⟩ := hfree
    rw [moveTo, hfree]
    exact ⟨u, _, rfl, hk.trans (hcopy.trans hk'), fun _ => rfl⟩
  · exact ⟨t, ptr, rfl, hk, hptr⟩

theorem OneBlock.realloc
    (hptr : ptr = 0 ∨ ptr = s.heapMemory + 48) (hw : s.ReallocWhole ptr size) (file line : Nat) :
    ∃ t ptr', s.realloc ptr size file line = some (t, ptr') ∧ Keeps s t ∧
      (ptr' ≠ 0 → ptr' = s.heapMemory + 48) := by
  unfold MemoryManager.realloc
  unfold ReallocWhole at hw
  split
  · exact ⟨s, 0, rfl, Keeps.refl s, fun h0 => absurd rfl h0⟩
  split
  · next h0 => exact h.alloc (by rwa [if_pos (.inl h0)] at hw) file line
  next hne =>
  obtain rfl := hptr.resolve_left hne
  rw [Nat.add_sub_cancel] at hw ⊢
  split
  · obtain ⟨t, r, hfree, hk⟩ := h.free (.inr rfl)
    exact ⟨t, 0, by rw [hfree]; rfl, hk, fun h0 => absurd rfl h0⟩
  next hsize =>
  split
  · next hpool =>
    rw [if_pos (.inr hpool)] at hw
    exact h.reallocMove hw file line _
  next hpool =>
  rw [if_neg (by rintro (h0 | h0); exacts [hne h0, hpool h0])] at hw
  split
  · exact ⟨s, 0, rfl, Keeps.refl s, fun h0 => absurd rfl h0⟩
  next hvalid =>
  split
  · exact ⟨s, 0, rfl, Keeps.refl s, fun h0 => absurd rfl h0⟩
  next hguards =>
  rw [if_neg (by rintro (h0 | h0 | h0); exacts [hsize h0, hvalid h0, hguards h0])] at hw
  unfold reallocHeap
  dsimp only
  rw [Nat.add_sub_cancel]
  split
  · next hle =>
    rw [if_pos hle] at hw
    split
    · next hlt =>
      rw [splitBlock_of_not _ (hw hlt)]
      exact ⟨s, _, rfl, Keeps.refl s, fun _ => rfl⟩
    · exact ⟨s, _, rfl, Keeps.refl s, fun _ => rfl⟩
  next hle =>
  have hmerge : s.canMerge s.heapMemory (align size) = false :=
    decide_eq_false fun hm => hm.1 h.next
  rw [if_neg hle, hmerge] at hw
  rw [hmerge, if_neg Bool.false_ne_true]
  exact h.reallocMove hw file line _

theorem OneBlock.defragment : s.defragment = some s := by
  have hpass : mergePass walkFuel s s.firstBlock false = some (s, false) := by
    rw [h.first, mergePass, if_pos (.inr h.next)]
  have hpasses : mergePasses walkFuel s = some s := by
    rw [mergePasses, hpass]
    rfl
  unfold MemoryManager.defragment
  rw [hpasses, ite_self]

end

theorem init_oneBlock {config : MemConfig} {mem : Mem} {heap : Nat} {malloc : Nat → Nat × Bool}
    (hinit : init config mem heap malloc = some s) (hpools : config.pools.getD [] = [])
    (hsize : config.heapSize < 4294967296) : OneBlock s := by
  unfold init at hinit
  split at hinit
  · cases hinit
  · next hok =>
    cases hinit
    have hcut : u32 ((config.heapSize : Int) - 52) = config.heapSize - 52 :=
      u32_sub (b := 52) (by omega) hsize
    constructor
    · exact fun h0 => hok (.inr h0)
    · exact Nat.le_of_not_lt fun h0 => hok (.inl h0)
    · simp [hpools]
    · rfl
    · rfl
    · simp (disch := omega) only [blkSize, rd_wr_of_disjoint, rd_wr_self, hcut]
      omega
    · simp (disch := omega) only [blkNext, rd_wr_of_disjoint, rd_wr_self, Nat.zero_mod]
    · simp (disch := omega) only [blkPrev, rd_wr_self, Nat.zero_mod]

end MemoryManager

namespace World

/-- The heap is one block, and every live pointer points to its data. -/
structure OneBlock (w : World) : Prop where
  manager : w.manager.OneBlock
  live : ∀ l ∈ w.live, l.ptr = w.manager.heapMemory + 48

variable {w : World}

variable (h : w.OneBlock)
include h

theorem OneBlock.given {ptr : Nat} (hp : w.Given ptr) :
    ptr = 0 ∨ ptr = w.manager.heapMemory + 48 := by
  rcases hp with hp | ⟨l, hl, rfl⟩
  · exact .inl hp
  · exact .inr (h.live l hl)

theorem OneBlock.next {s : MemoryManager} (hk : w.manager.Keeps s)
    {live : List Live} (hlive : ∀ l ∈ live, l ∈ w.live ∨ l.ptr = w.manager.heapMemory + 48) :
    OneBlock ⟨s, live⟩ :=
  ⟨h.manager.keeps hk, fun l hl => by
    rw [hk.heap]
    exact (hlive l hl).elim (h.live l) id⟩

theorem OneBlock.step {op : MemOp} (hlegal : w.Legal op)
    (hwhole : w.manager.Whole op) : ∃ w' ptr, w.step op = some (w', ptr) ∧ w'.OneBlock := by
  cases op with
  | alloc size file line =>
    obtain ⟨s, ptr, hs, hk, hptr⟩ := h.manager.alloc hwhole file line
    refine ⟨_, _, by simp only [World.step, hs]; rfl, h.next hk fun l hl => ?_⟩
    split at hl
    · next hne =>
      rcases mem_cons.mp hl with rfl | hl
      · exact .inr (hptr hne)
      · exact .inl hl
    · exact .inl hl
  | free ptr =>
    obtain ⟨s, r, hs, hk⟩ := h.manager.free (h.given hlegal)
    exact ⟨_, _, by simp only [World.step, hs]; rfl, h.next hk fun l hl =>
      .inl (mem_of_mem_filter hl)⟩
  | realloc ptr size file line =>
    obtain ⟨s, ptr', hs, hk, hptr⟩ := h.manager.realloc (h.given hlegal.1) hwhole file line
    refine ⟨_, _, by simp only [World.step, hs]; rfl, h.next hk fun l hl => ?_⟩
    unfold relive at hl
    split at hl
    · next hne =>
      rcases mem_cons.mp hl with rfl | hl
      · exact .inr (hptr hne)
      · exact .inl (mem_of_mem_filter hl)
    · split at hl
      · exact .inl (mem_of_mem_filter hl)
      · exact .inl hl
  | defragment =>
    refine ⟨_, _, by simp only [World.step, h.manager.defragment]; rfl, h⟩
  | write addr byte =>
    obtain ⟨l, hl, hle, -⟩ := hlegal
    have hptr := h.live l hl
    refine ⟨_, _, rfl, h.next (MemoryManager.Keeps.setMem _ fun x ⟨hx, hx'⟩ => ?_)
      fun l hl => .inl hl⟩
    exact fill_of_not (by omega)

end World

/-- **Without a split, the blocks tile the heap**, in every state that a manager without pools
reaches under the contract, with `next`, `prev` and `last_block` in agreement. -/
theorem blocks_tile_heap {config : MemConfig} {mem : Mem} {heap : Nat}
    {malloc : Nat → Nat × Bool} {s : MemoryManager}
    (hinit : MemoryManager.init config mem heap malloc = some s)
    (hpools : config.pools.getD [] = []) (hsize : config.heapSize < 4294967296) (ops : List MemOp)
    (hops : Along World.step (fun w op => w.Legal op ∧ w.manager.Whole op) ⟨s, []⟩ ops) :
    ∃ w outs, run World.step ⟨s, []⟩ ops = some (w, outs) ∧ w.manager.Tiled := by
  have hone : World.OneBlock ⟨s, []⟩ :=
    ⟨MemoryManager.init_oneBlock hinit hpools hsize, fun _ hl => by cases hl⟩
  obtain ⟨w, outs, hrun, hw⟩ := run_along (fun _ w => w.OneBlock)
    (fun _ w op h hop => h.step hop.1 hop.2) ops [] hone hops
  exact ⟨w, outs, hrun, hw.manager.tiled⟩

theorem MemoryManager.OneBlock.allocWhole {s : MemoryManager} (h : s.OneBlock) {size : Nat}
    (hfit : align size + 104 ≤ s.config.heapSize)
    (hspare : s.config.heapSize < align size + 156) : s.AllocWhole size := by
  intro _ block hblock hne
  rcases h.findBestFit (align size) with h0 | h0
  · exact absurd (Option.mem_unique hblock h0) hne
  · obtain rfl := Option.mem_unique hblock h0
    unfold Splits u32
    rw [h.size]
    omega

/-- The whole heap is given out and taken back. -/
theorem blocks_tile_heap_filled :
    ∃ s w outs, MemoryManager.init heap256 (fun _ => 0) 4096 (fun _ => (0, false)) = some s ∧
      run World.step ⟨s, []⟩ [.alloc 152 0 0, .free 4144] = some (w, outs) ∧ w.manager.Tiled := by
  have hinit : MemoryManager.init heap256 (fun _ => 0) 4096 (fun _ => (0, false)) = some _ := rfl
  have hwhole : MemoryManager.AllocWhole _ 152 :=
    (MemoryManager.init_oneBlock hinit rfl (by decide)).allocWhole (by decide) (by decide)
  obtain ⟨w, outs, hrun, htiled⟩ := blocks_tile_heap hinit rfl (by decide)
    [.alloc 152 0 0, .free 4144] ((along_cons_of rfl).mpr ⟨⟨by decide, hwhole⟩,
      (along_cons_of rfl).mpr ⟨⟨.inr ⟨_, .head _, rfl⟩, trivial⟩, trivial⟩⟩)
  exact ⟨_, w, outs, hinit, hrun, htiled⟩

/-- **A split leaves 52 bytes out.** After `Memory_Alloc(8)` on a fresh heap of 256
bytes there is a block of 8 and a block of 92, and 204 of the 256 bytes are
accounted for. -/
theorem alloc_untiles :
    ∃ s w outs, MemoryManager.init heap256 (fun _ => 0) 4096 (fun _ => (0, false)) = some s ∧
      World.Legal ⟨s, []⟩ (.alloc 8 0 0) ∧
      run World.step ⟨s, []⟩ [.alloc 8 0 0] = some (w, outs) ∧
      w.manager.blocks = some [⟨4096, 8, true⟩, ⟨4156, 92, false⟩] ∧ ¬ w.manager.Tiled := by
  refine ⟨_, _, _, rfl, (by decide : 8 < 4294967296), rfl, by decide +kernel, ?_⟩
  rintro ⟨bs, hbs, htiles⟩
  cases hbs
  exact absurd htiles.total (by decide +kernel)

end Cant.Memory
