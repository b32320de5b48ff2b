/-
# `Invariant` — the manager's invariant, call by call

`Good s bs` is the invariant: the heap is the list `bs`, the pools are in order. `Used s bs b` says
that `b` is a block somebody holds, on the heap or in a pool; blocks never overlap (`Good.apart`).

The source does not always keep this, so each call has its condition, `AllocFits`,
`FreeFits` and `ReallocFits`: sizes do not wrap, `split_block` does not borrow, a
slot lies in its pool's memory, and a pool is not asked to take back a block of
another one.
-/
import Cant.Memory.Heap
import Cant.Memory.Pools

namespace Cant.Memory.MemoryManager

open Word List

structure Good (s : MemoryManager) (bs : List Blk) : Prop where
  initialized : s.initialized = true
  rep : Rep s bs
  pools : PoolsOk s

def Used (s : MemoryManager) (bs : List Blk) (b : Blk) : Prop :=
  b ∈ bs ∧ b.used = true ∨ s.InPool b

/-- What a call that works at the block at `a` leaves alone. -/
structure Change (s t : MemoryManager) (bs bs' : List Blk) (a : Nat) : Prop where
  config : t.config = s.config
  heap : t.heapMemory = s.heapMemory
  regions : t.pools.map MemoryPool.region = s.pools.map MemoryPool.region
  keeps : ∀ b, Used s bs b → b.addr ≠ a → Used t bs' b ∧ ∀ x, b.Own x → t.mem x = s.mem x
  only : ∀ b, Used t bs' b → b.addr ≠ a → Used s bs b

def Unclaimed (s : MemoryManager) (block : Nat) : Prop :=
  ∀ i < s.pools.length, ∀ pool ∈ s.pools[i]?, pool.Contains block →
    ∀ q ∈ s.pools.take i, q.Rejects block

instance (s : MemoryManager) (block : Nat) : Decidable (s.Unclaimed block) :=
  inferInstanceAs (Decidable (∀ i < s.pools.length, ∀ pool ∈ s.pools[i]?, _ → ∀ q ∈ _, _))

structure Strict (s : MemoryManager) (bs : List Blk) : Prop where
  guards : ∀ b, Used s bs b → s.config.enableGuards = true
  snug : Snug s.heapMemory bs
  guarded : ∀ b, Used s bs b → b.Guarded s.mem
  unclaimed : ∀ b, Used s bs b → s.Unclaimed b.addr

variable {s t u : MemoryManager} {bs bs' bs'' : List Blk} {b c : Blk} {a : Nat}

theorem Change.trans (h : Change s t bs bs' a) (h' : Change t u bs' bs'' a) :
    Change s u bs bs'' a where
  config := h'.config.trans h.config
  heap := h'.heap.trans h.heap
  regions := h'.regions.trans h.regions
  keeps b hb ha := by
    obtain ⟨hb', hx⟩ := h.keeps b hb ha
    obtain ⟨hb'', hx'⟩ := h'.keeps b hb' ha
    exact ⟨hb'', fun x ho => (hx' x ho).trans (hx x ho)⟩
  only b hb ha := h.only b (h'.only b hb ha) ha

theorem Good.apart (h : Good s bs) (hb : b ∈ bs ∨ s.InPool b) (hc : c ∈ bs ∨ s.InPool c) :
    b = c ∨ b.stop ≤ c.addr ∨ c.stop ≤ b.addr := by
  rcases hb with hb | hb
  · rcases hc with hc | hc
    · exact h.rep.linked.apart hb hc
    · have hin := h.rep.linked.bounds hb
      have hout := h.pools.outside hc
      omega
  · rcases hc with hc | hc
    · have hin := h.rep.linked.bounds hc
      have hout := h.pools.outside hb
      omega
    · exact h.pools.apart hb hc

theorem Used.block (h : Used s bs b) : b ∈ bs ∨ s.InPool b := h.imp And.left id

theorem Good.unique (h : Good s bs) (hb : Used s bs b) (hc : Used s bs c)
    (heq : b.addr = c.addr) : b = c := by
  have hstop := b.stop_eq
  have hstop' := c.stop_eq
  rcases h.apart hb.block hc.block with h' | h'
  · exact h'
  · omega

theorem Good.addr_ne_zero (h : Good s bs) (hb : Used s bs b) : b.addr ≠ 0 := by
  rcases hb with ⟨hb, -⟩ | ⟨i, pool, k, hi, -, rfl⟩
  · exact Nat.ne_of_gt (h.rep.pos hb)
  · exact Nat.ne_of_gt (Nat.add_pos_left (h.pools.placed.pos i pool hi) _)

/-! ## Changes of the heap and of the pools -/

theorem Good.heapStep (h : Good s bs) (hstep : HeapStep s t bs bs' a) (hrep : Rep t bs') :
    Good t bs' ∧ Change s t bs bs' a := by
  refine ⟨⟨hstep.initialized.trans h.initialized, hrep, h.pools.heapStep hstep⟩,
    hstep.config, hstep.heap, by rw [hstep.pools], fun b hb ha => ?_, fun b hb ha => ?_⟩
  · rcases hb with ⟨hb, hu⟩ | hb
    · obtain ⟨hb', hx⟩ := hstep.keeps b hb hu ha
      exact ⟨.inl ⟨hb', hu⟩, hx⟩
    · refine ⟨.inr (by unfold InPool; rw [hstep.pools]; exact hb), fun x hx => hstep.outside x ?_⟩
      have hout := h.pools.outside hb
      have hstop := b.stop_eq
      unfold Blk.Own at hx
      omega
  · rcases hb with ⟨hb, hu⟩ | hb
    · exact .inl ⟨hstep.only b hb hu ha, hu⟩
    · exact .inr (by unfold InPool at hb; rwa [hstep.pools] at hb)

theorem Rep.poolStep (h : Rep s bs) (hstep : PoolStep s t b)
    (hout : b.stop ≤ s.heapMemory ∨ s.heapMemory + s.config.heapSize ≤ b.addr) : Rep t bs := by
  refine h.of_linked hstep.config hstep.heap (hstep.first.trans h.first) (hstep.last.trans h.last)
    (h.linked.frame fun c hc x hx hx' => hstep.bytes x ?_)
  have hin := h.linked.bounds hc
  unfold Blk.stop at hin hout ⊢
  omega

theorem Good.poolStep (h : Good s bs) (hstep : PoolStep s t b) (hpools : PoolsOk t)
    (hout : b.stop ≤ s.heapMemory ∨ s.heapMemory + s.config.heapSize ≤ b.addr)
    (hapart : ∀ c, s.InPool c → c.addr ≠ b.addr → c.stop ≤ b.addr ∨ b.stop ≤ c.addr) :
    Good t bs ∧ Change s t bs bs b.addr := by
  refine ⟨⟨hstep.initialized.trans h.initialized, h.rep.poolStep hstep hout, hpools⟩,
    hstep.config, hstep.heap, hstep.regions, fun c hc ha => ?_, fun c hc ha => ?_⟩
  · have hstop := c.stop_eq
    rcases hc with ⟨hc, hu⟩ | hc
    · refine ⟨.inl ⟨hc, hu⟩, fun x hx => hstep.bytes x ?_⟩
      have hin := h.rep.linked.bounds hc
      unfold Blk.Own at hx
      omega
    · refine ⟨.inr (hstep.keeps c hc ha), fun x hx => hstep.bytes x ?_⟩
      have happart := hapart c hc ha
      unfold Blk.Own at hx
      omega
  · exact hc.imp id fun hc => hstep.only c hc ha

variable {i size size' : Nat} {pool : MemoryPool}

theorem Good.slot_outside (h : Good s bs) {k : Nat} (hi : s.pools[i]? = some pool)
    (hfits : pool.Fits k) :
    (pool.blk k).stop ≤ s.heapMemory ∨ s.heapMemory + s.config.heapSize ≤ (pool.blk k).addr := by
  have hb := hfits.bounds
  have hheap := h.pools.placed.heap i pool hi
  omega

theorem Unclaimed.of_pools {block : Nat} (h : s.Unclaimed block) (hpools : t.pools = s.pools) :
    t.Unclaimed block := by
  unfold Unclaimed
  rw [hpools]
  exact h

theorem Unclaimed.of_set {block : Nat} {pool' : MemoryPool} (h : s.Unclaimed block)
    (hi : s.pools[i]? = some pool) (hpools : t.pools = s.pools.set i pool')
    (hregions : t.pools.map MemoryPool.region = s.pools.map MemoryPool.region)
    (hrejects : ∀ q ∈ s.pools.drop (i + 1), q.Contains block → pool.Rejects block →
      pool'.Rejects block) : t.Unclaimed block := by
  intro j _ p' hj hcontains q hq
  obtain ⟨p, hp, hregion⟩ := pool_of_regions hregions hj
  have hcontains' : p.Contains block := by
    unfold MemoryPool.Contains at hcontains ⊢
    rwa [(region_total hregion).1, (region_total hregion).2] at hcontains
  have hbefore := h j (List.getElem?_eq_some_iff.mp hp).1 p hp hcontains'
  rw [hpools, take_set] at hq
  by_cases hij : i < j
  · rcases mem_or_eq_of_mem_set hq with hq | rfl
    · exact hbefore q hq
    · have hlater : p ∈ s.pools.drop (i + 1) :=
        List.mem_of_getElem? (i := j - (i + 1)) (by
          rw [getElem?_drop, Nat.add_sub_cancel' hij]
          exact hp)
      have hearlier : pool ∈ s.pools.take j :=
        List.mem_of_getElem? ((getElem?_take_of_lt hij).trans hi)
      exact hrejects p hlater hcontains' (hbefore pool hearlier)
  · rw [set_eq_of_length_le (by rw [length_take]; omega)] at hq
    exact hbefore q hq

/-- What is left to show for `Strict` after a change at `a`: the block there, and that
no pool claims a block it did not claim before. -/
theorem Strict.change (h : Strict s bs) (hc : Change s t bs bs' a) (hsnug : Snug s.heapMemory bs')
    (hkept : ∀ b, Used s bs b → s.Unclaimed b.addr → t.Unclaimed b.addr)
    (hnew : ∀ b, Used t bs' b → b.addr = a →
      s.config.enableGuards = true ∧ b.Guarded t.mem ∧ t.Unclaimed b.addr) : Strict t bs' where
  guards b hb := by
    rw [hc.config]
    by_cases ha : b.addr = a
    · exact (hnew b hb ha).1
    · exact h.guards b (hc.only b hb ha)
  snug := by rw [hc.heap]; exact hsnug
  guarded b hb := by
    by_cases ha : b.addr = a
    · exact (hnew b hb ha).2.1
    · have hb' := hc.only b hb ha
      have hstop := b.stop_eq
      exact (h.guarded b hb').congr fun x hx => (hc.keeps b hb' ha).2 x (.inr (by omega))
  unclaimed b hb := by
    by_cases ha : b.addr = a
    · exact (hnew b hb ha).2.2
    · have hb' := hc.only b hb ha
      exact hkept b hb' (h.unclaimed b hb')

theorem Good.not_contains (h : Good s bs) (hb : b ∈ bs) (hpool : pool ∈ s.pools) :
    ¬ pool.Contains b.addr := by
  obtain ⟨i, hi⟩ := mem_iff_getElem?.mp hpool
  have hin := h.rep.linked.bounds hb
  have hheap := h.pools.placed.heap i pool hi
  unfold MemoryPool.Contains
  unfold Blk.stop at hin
  omega

theorem Good.unclaimed_heap (h : Good s bs) (hb : b ∈ bs) : s.Unclaimed b.addr :=
  fun _ _ _ hi hcontains => absurd hcontains (h.not_contains hb (List.mem_of_getElem? hi))

/-! ## `Memory_Alloc` -/

/-- What `Memory_Alloc(size)` needs. From a pool: `size + BLOCK_OVERHEAD` does not
wrap, and the slot on top of the stack lies in the pool's memory. From the heap:
rounding up does not wrap, and `split_block` does not borrow. -/
def AllocFits (s : MemoryManager) (size : Nat) : Prop :=
  size ≠ 0 →
    (∀ i ∈ s.findSuitablePool (u32 (size + 52)), size + 52 < 4294967296 ∧
      ∀ pool ∈ s.pools[i]?, ∀ k ∈ pool.freeList[pool.freeBlocks - 1]?,
        (k + 1) * pool.blockSize ≤ pool.total) ∧
    (s.findSuitablePool (u32 (size + 52)) = none → ∀ block ∈ s.findBestFit (align size),
      block ≠ 0 → size + 7 < 4294967296 ∧ align size + 52 ≤ blkSize s.mem block)
  deriving Decidable

/-- `Memory_Alloc(size)` finds a slot or a block. -/
def Grants (s : MemoryManager) (size : Nat) : Prop :=
  s.findSuitablePool (u32 (size + 52)) ≠ none ∨ s.findBestFit (align size) ≠ some 0
  deriving Decidable

/-- The slot that `Memory_Alloc(size)` takes, if it takes one, is not the one for which
its pool would take the block of a later pool. -/
def Spares (s : MemoryManager) (size block : Nat) : Prop :=
  ∀ i ∈ s.findSuitablePool (u32 (size + 52)), ∀ pool ∈ s.pools[i]?,
    ∀ k ∈ pool.freeList[pool.freeBlocks - 1]?, ∀ q ∈ s.pools.drop (i + 1),
      q.Contains block → pool.blockIndex block ≠ k
  deriving Decidable

/-- What keeps the invariant strict. A block is handed out only with guards enabled.
From a pool: no earlier pool claims the slot, and its pool does not come to claim the
slots of later ones. From the heap: only the last block is split, and not into a
block of size 0. -/
def AllocStrict (s : MemoryManager) (size : Nat) : Prop :=
  size ≠ 0 →
    (∀ i ∈ s.findSuitablePool (u32 (size + 52)), s.config.enableGuards = true ∧
      ∀ pool ∈ s.pools[i]?, ∀ k ∈ pool.freeList[pool.freeBlocks - 1]?,
        s.Unclaimed (pool.blk k).addr) ∧
    (∀ pool ∈ s.pools, ∀ k < pool.blockUsed.length, pool.blockUsed[k]? = some true →
      s.Spares size (pool.blk k).addr) ∧
    (s.findSuitablePool (u32 (size + 52)) = none → s.HeapStrict (align size))

instance (s : MemoryManager) (size : Nat) : Decidable (s.AllocStrict size) :=
  inferInstanceAs (Decidable (_ → _ ∧ _ ∧ _))

/-- `b` has been handed out for `size` bytes. -/
structure Handed (s t : MemoryManager) (bs bs' : List Blk) (b : Blk) (size : Nat) : Prop where
  good : Good t bs'
  change : Change s t bs bs' b.addr
  used : Used t bs' b
  fits : size ≤ b.size
  fresh : ∀ c, Used s bs c → c.addr ≠ b.addr

theorem align_of_lt (h : size + 7 < 4294967296) :
    size ≤ align size ∧ align size < 4294967296 ∧ (0 < size → 0 < align size) := by
  unfold align u32
  omega

theorem findSuitablePool_some (h : s.findSuitablePool size = some i) :
    ∃ pool, s.pools[i]? = some pool ∧ size ≤ pool.blockSize ∧ 0 < pool.freeBlocks := by
  obtain ⟨hlt, hp, -⟩ := findIdx?_eq_some_iff_getElem.mp h
  obtain ⟨hsize, hfree⟩ := of_decide_eq_true hp
  exact ⟨s.pools[i], getElem?_eq_getElem hlt, hsize, hfree⟩

/-- `Memory_Alloc(size)` has handed out `b`. -/
structure Allocated (s t : MemoryManager) (bs bs' : List Blk) (b : Blk) (size : Nat) : Prop
    extends Handed s t bs bs' b size where
  grants : s.Grants size
  unclaimed : ∀ block, s.Spares size block → s.Unclaimed block → t.Unclaimed block
  strict : s.AllocStrict size → Strict s bs → Strict t bs'

/-- Where `b` comes from: `Memory_Alloc(size)` has taken the slot on top of a pool, or a block of
the heap. -/
inductive Origin (s t : MemoryManager) (b : Blk) (size : Nat) : Prop
  | pool {i k : Nat} {pool : MemoryPool} (hfind : s.findSuitablePool (u32 (size + 52)) = some i)
      (hi : s.pools[i]? = some pool) (hpos : 0 < pool.freeBlocks) (hfits : pool.Fits k)
      (hb : b = pool.blk k) (hpools : t.pools = s.pools.set i (pool.take k))
  | heap (hfind : s.findSuitablePool (u32 (size + 52)) = none)
      (hbest : s.findBestFit (align size) = some b.addr)
      (hsize : b.size = splitSize (blkSize s.mem b.addr) (align size))
      (hguarded : s.config.enableGuards = true → b.Guarded t.mem) (hpools : t.pools = s.pools)

theorem Good.spares_heap (h : Good s bs) (hb : b ∈ bs) (size : Nat) : s.Spares size b.addr :=
  fun _ _ _ _ _ _ _ hq hcontains =>
    absurd hcontains (h.not_contains hb (mem_of_mem_drop hq))

theorem AllocStrict.spares (hstrict : s.AllocStrict size) (hsize : size ≠ 0) (h : Good s bs)
    (hb : Used s bs b) : s.Spares size b.addr := by
  rcases hb with ⟨hb, -⟩ | ⟨i, pool, k, hi, hk, rfl⟩
  · exact h.spares_heap hb size
  · exact (hstrict hsize).2.1 pool (List.mem_of_getElem? hi) k
      (List.getElem?_eq_some_iff.mp hk).1 hk

theorem Handed.mono (h : Handed s t bs bs' b size) (hle : size' ≤ size) :
    Handed s t bs bs' b size' :=
  { h with fits := hle.trans h.fits }

theorem Good.allocFromHeap (h : Good s bs) (hok : s.HeapFits size) (file line : Nat) :
    ∃ t ptr, s.allocFromHeap size file line = some (t, ptr) ∧
      (ptr = 0 ∧ t = s ∨ ∃ bs' b, Handed s t bs bs' b size ∧ ptr = b.addr + 48 ∧
        (s.findBestFit size = some b.addr ∧ b.size = splitSize (blkSize s.mem b.addr) size ∧
          (s.config.enableGuards = true → b.Guarded t.mem)) ∧
        t.pools = s.pools ∧ (0 < size → s.HeapStrict size → Strict s bs → Strict t bs')) := by
  obtain ⟨t, ptr, heq, hcase⟩ := h.rep.allocFromHeap hok file line s.heapMemory
  refine ⟨t, ptr, heq, hcase.imp id ?_⟩
  rintro ⟨bs', b, htook, hptr, ⟨hbest, hsize⟩, hsnug⟩
  obtain ⟨hgood, hchange⟩ := h.heapStep htook.step htook.rep
  have hused : Used t bs' b := .inl ⟨htook.mem, htook.used⟩
  refine ⟨bs', b, ⟨hgood, hchange, hused, htook.fits, fun c hc => ?_⟩, hptr,
    ⟨hbest, hsize, htook.guarded⟩, htook.step.pools, fun hpos hstrict hs => ?_⟩
  · rcases hc with ⟨hc, hu⟩ | hc
    · exact htook.fresh c hc hu
    · have hin := hgood.rep.linked.bounds htook.mem
      have hout := h.pools.outside hc
      rw [hchange.heap, hchange.config] at hin
      unfold Blk.stop at hin hout
      omega
  · obtain ⟨hguards, hsnug⟩ := hsnug hpos hstrict
    refine hs.change hchange (hsnug hs.snug) (fun _ _ hc => hc.of_pools htook.step.pools)
      fun c hc ha => ?_
    rw [hgood.unique hc hused ha]
    exact ⟨hguards, htook.guarded hguards, hgood.unclaimed_heap htook.mem⟩

theorem Good.allocateFromPool (h : Good s bs) (hi : s.pools[i]? = some pool)
    (hpos : 0 < pool.freeBlocks)
    (hfits : ∀ k, pool.freeList[pool.freeBlocks - 1]? = some k → pool.Fits k) (file line : Nat) :
    ∃ t b, s.allocateFromPool i file line = some (t, b.addr + 48) ∧
      Handed s t bs bs b (pool.blockSize - 52) ∧
      ∃ k, pool.freeList[pool.freeBlocks - 1]? = some k ∧
        (b = pool.blk k ∧ t.pools = s.pools.set i (pool.take k)) ∧
        (∀ block, (∀ q ∈ s.pools.drop (i + 1), q.Contains block → pool.blockIndex block ≠ k) →
          s.Unclaimed block → t.Unclaimed block) ∧
        (s.config.enableGuards = true → s.Unclaimed (pool.blk k).addr →
          (∀ c, Used s bs c → s.Unclaimed c.addr → t.Unclaimed c.addr) →
          Strict s bs → Strict t bs) := by
  obtain ⟨t, k, heq, ⟨htop, hfree⟩, hset, hpools, hstep, hin, hguard⟩ :=
    h.pools.allocateFromPool hi hpos hfits file line
  have hfit := hfits k htop
  have hfresh := fun c hc => h.pools.fresh (c := c) hi hfit hfree hc
  obtain ⟨hgood, hchange⟩ := h.poolStep hstep hpools (h.slot_outside hi hfit)
    fun c hc _ => hfresh c hc
  have hused : Used t bs (pool.blk k) := .inr hin
  have hkept : ∀ block, (∀ q ∈ s.pools.drop (i + 1), q.Contains block →
      pool.blockIndex block ≠ k) → s.Unclaimed block → t.Unclaimed block :=
    fun block hspares hun => hun.of_set hi hset hstep.regions fun q hq hcontains hrejects =>
      hrejects.take (hspares q hq hcontains)
  refine ⟨t, pool.blk k, heq, ⟨hgood, hchange, hused, .refl, fun c hc heq => ?_⟩,
    k, htop, ⟨rfl, hset⟩, hkept,
    fun hg hun hothers hs => hs.change hchange hs.snug hothers fun c hc ha => ?_⟩
  · have hstop := c.stop_eq
    have hstop' : (pool.blk k).stop = (pool.blk k).addr + 52 + (pool.blk k).size := rfl
    rcases hc with ⟨hc, hu⟩ | hc
    · have hin := h.rep.linked.bounds hc
      have hout := h.slot_outside hi hfit
      omega
    · have hapart := hfresh c hc
      omega
  · rw [hgood.unique hc hused ha]
    refine ⟨hg, hguard hg, hkept _ (fun q hq hcontains => ?_) hun⟩
    -- a later pool does not contain this slot
    obtain ⟨j, hj⟩ := mem_iff_getElem?.mp hq
    rw [getElem?_drop] at hj
    exact absurd (h.pools.placed.contains_unique hi hj hfit.contains hcontains) (by omega)

theorem Handed.record (h : Handed s t bs bs' b size) (f : MemStats → MemStats) :
    Handed s (t.record f) bs bs' b size := by
  obtain ⟨hgood, hchange⟩ :=
    h.good.heapStep (HeapStep.record t f bs' b.addr) (h.good.rep.record f)
  refine ⟨hgood, h.change.trans hchange, ?_, h.fits, h.fresh⟩
  unfold Used InPool
  rw [(record_static t f).1.pools]
  exact h.used

theorem Strict.record (h : Strict s bs) (f : MemStats → MemStats) : Strict (s.record f) bs := by
  unfold MemoryManager.record
  split
  · exact ⟨h.guards, h.snug, h.guarded, h.unclaimed⟩
  · exact h

theorem Good.alloc (h : Good s bs) (hok : s.AllocFits size) (file line : Nat) :
    ∃ t ptr, s.alloc size file line = some (t, ptr) ∧
      (ptr = 0 ∧ t = s ∨
        ∃ bs' b, Allocated s t bs bs' b size ∧ ptr = b.addr + 48 ∧ Origin s t b size) := by
  unfold MemoryManager.alloc
  split
  · exact ⟨s, 0, rfl, .inl ⟨rfl, rfl⟩⟩
  next hcall =>
  have hsize : size ≠ 0 := fun h0 => hcall (.inr h0)
  obtain ⟨hpool, hheap⟩ := hok hsize
  split
  · next i hfind =>
    obtain ⟨hwrap, hslot⟩ := hpool i hfind
    obtain ⟨pool, hi, hle, hpos⟩ := findSuitablePool_some hfind
    have hcut : u32 (size + 52) = size + 52 := u32_of_lt (n := size + 52) hwrap
    have hfits : ∀ k, pool.freeList[pool.freeBlocks - 1]? = some k → pool.Fits k :=
      fun k hk => ⟨by omega, hslot pool hi k hk⟩
    obtain ⟨t, b, heq, hhanded, k, htop, ⟨hb, hset⟩, hkept, hstrict⟩ :=
      h.allocateFromPool hi hpos hfits file line
    simp only [heq, Option.bind_eq_bind, Option.bind_some, if_pos (Nat.succ_ne_zero (b.addr + 47))]
    have hkept' : ∀ block, s.Spares size block → s.Unclaimed block → t.Unclaimed block :=
      fun block hspares => hkept block (hspares i hfind pool hi k htop)
    refine ⟨_, _, rfl, .inr ⟨bs, b, ⟨(hhanded.mono (by omega)).record _, ?_,
      fun block hspares hun => (hkept' block hspares hun).of_pools (record_static _ _).1.pools,
      fun hs hstr => ?_⟩, rfl,
      .pool hfind hi hpos (hfits k htop) hb ((record_static _ _).1.pools.trans hset)⟩⟩
    · exact .inl (by rw [hfind]; exact Option.some_ne_none i)
    · obtain ⟨hg, hun⟩ := (hs hsize).1 i hfind
      refine (hstrict hg (hun pool hi k htop) (fun c hc => ?_) hstr).record _
      exact hkept' c.addr (hs.spares hsize h hc)
  · next hfind =>
    have hheap := hheap hfind
    obtain ⟨block, hblock, -⟩ := h.rep.findBestFit (align size)
    by_cases hne : block = 0
    · refine ⟨s, 0, ?_, .inl ⟨rfl, rfl⟩⟩
      unfold MemoryManager.allocFromHeap
      rw [hblock, hne]
      rfl
    have hwrap := align_of_lt (hheap block hblock hne).1
    obtain ⟨t, ptr, heq, hcase⟩ := h.allocFromHeap
      (fun block hb hne => (hheap block hb hne).2) file line
    refine ⟨t, ptr, heq, hcase.imp id ?_⟩
    rintro ⟨bs', b, hhanded, hptr, ⟨hbest, hsplit, hguarded⟩, hpools, hstrict⟩
    refine ⟨bs', b, ⟨hhanded.mono hwrap.1, .inr ?_, fun _ _ hun => hun.of_pools hpools,
      fun hs hstr => ?_⟩, hptr, .heap hfind hbest hsplit hguarded hpools⟩
    · rw [hblock]
      exact fun h0 => hne (Option.some.inj h0)
    · exact hstrict (hwrap.2.2 (Nat.pos_of_ne_zero hsize)) ((hs hsize).2.2 hfind) hstr

/-! ## Writing into a block -/

theorem Good.data_apart (h : Good s bs) (hb : Used s bs b) {m : Mem}
    (hm : ∀ x, (x < b.addr + 48 ∨ b.addr + 48 + b.size ≤ x) → m x = s.mem x)
    (hc : c ∈ bs ∨ s.InPool c) (x : Nat) (hx : c.addr ≤ x)
    (hx' : x < c.addr + 48 ∨ c.addr + 48 + c.size ≤ x ∧ x < c.stop) : m x = s.mem x := by
  have hstop := b.stop_eq
  have hstop' := c.stop_eq
  rcases h.apart hc hb.block with rfl | hapart
  · exact hm x (by omega)
  · exact hm x (by omega)

theorem Good.setMem (h : Good s bs) (hb : Used s bs b) {m : Mem}
    (hm : ∀ x, (x < b.addr + 48 ∨ b.addr + 48 + b.size ≤ x) → m x = s.mem x) :
    Good { s with mem := m } bs ∧ (Strict s bs → Strict { s with mem := m } bs) := by
  have hother := fun c hc => h.data_apart hb hm (c := c) hc
  refine ⟨⟨h.initialized, ⟨h.rep.heap, h.rep.bound, h.rep.size, h.rep.first, h.rep.last,
    h.rep.linked.frame fun c hc x hx hx' => hother c (.inl hc) x hx (.inl (by omega))⟩,
    ⟨fun i pool hi => (h.pools.pool i pool hi).congr fun k hk x hx hx' =>
      hother _ (.inr ⟨i, pool, k, hi, hk, rfl⟩) x hx (.inl (by omega)),
      h.pools.placed.of_regions rfl rfl rfl⟩⟩,
    fun hs => ⟨hs.guards, hs.snug, fun c hc => ?_, hs.unclaimed⟩⟩
  exact (hs.guarded c hc).congr fun x hx => hother c hc.block x (by omega) (by omega)

/-! ## `Memory_Free` -/

/-- What `Memory_Free(ptr)` needs: of a slot, that no pool before its own claims it. -/
def FreeFits (s : MemoryManager) (ptr : Nat) : Prop :=
  blkPooled s.mem (ptr - 48) = true → s.Unclaimed (ptr - 48)
  deriving Decidable

/-- All of `b` is available again: in a free block of the heap, or on the stack of
its pool. -/
def Available (s : MemoryManager) (bs : List Blk) (b : Blk) : Prop :=
  Covered bs b ∨ ∃ (i : Nat) (pool : MemoryPool) (k : Nat), s.pools[i]? = some pool ∧
    b = pool.blk k ∧ pool.blockUsed[k]? = some false ∧ k ∈ pool.freeList.take pool.freeBlocks

section

variable (h : Good s bs)
include h

theorem Good.pooled_iff (hb : Used s bs b) : blkPooled s.mem b.addr = true ↔ s.InPool b := by
  constructor
  · intro hpooled
    refine hb.resolve_left fun hheap => ?_
    obtain ⟨_, _, hat⟩ := h.rep.blockAt hheap.1
    cases hat.not_pooled.symm.trans hpooled
  · rintro ⟨i, pool, k, hi, hk, rfl⟩
    unfold blkPooled
    rw [((h.pools.pool i pool hi).header k hk).2]
    rfl

theorem Good.freeHeap (hb : b ∈ bs) (hu : b.used = true) :
    ∃ t r bs', s.free (b.addr + 48) = some (t, r) ∧ Good t bs' ∧ Change s t bs bs' b.addr ∧
      (Strict s bs → r = .freed ∧ Strict t bs' ∧ Available t bs' b) := by
  obtain ⟨bs', hrep, hstep, hfreed⟩ := h.rep.freeBlock hb s.heapMemory
  obtain ⟨hgood, hchange⟩ := h.heapStep hstep hrep
  obtain ⟨_, _, hat⟩ := h.rep.blockAt hb
  refine ⟨(s.freeBlock b.addr).1, (s.freeBlock b.addr).2, bs', ?_, hgood, hchange, fun hs => ?_⟩
  · unfold MemoryManager.free
    rw [if_neg (by rintro (h' | h'); exacts [h' h.initialized, by omega]), Nat.add_sub_cancel,
      if_neg (by rw [hat.not_pooled]; exact Bool.false_ne_true)]
  · obtain ⟨hr, hsnug, hcovered⟩ := hfreed hu (hs.guards b (.inl ⟨hb, hu⟩))
      (hs.guarded b (.inl ⟨hb, hu⟩)) hs.snug
    have hgone : ∀ c, Used (s.freeBlock b.addr).1 bs' c → c.addr ≠ b.addr := by
      intro c hc ha
      obtain ⟨d, hd, hfree, hda, hds⟩ := hcovered
      have hstop := b.stop_eq
      have hstop' := c.stop_eq
      rcases hgood.apart hc.block (.inl hd) with rfl | hapart
      · rcases hc with hc | hc
        · cases hfree.symm.trans hc.2
        · have hin := hgood.rep.linked.bounds hd
          have hout := hgood.pools.outside hc
          omega
      · omega
    exact ⟨hr, hs.change hchange hsnug (fun _ _ hun => hun.of_pools hstep.pools)
      fun c hc ha => absurd ha (hgone c hc), .inl hcovered⟩

theorem Good.takeBack {k a : Nat} (hi : s.pools[i]? = some pool)
    (hk : pool.blockUsed[k]? = some true) (ha : pool.Within k a)
    (hpooled : blkPooled s.mem a = true) (hrejects : ∀ q ∈ s.pools.take i, q.Rejects a) :
    s.free (a + 48) = some (s.takeBack i pool k a, .pooled) ∧ Good (s.takeBack i pool k a) bs ∧
      Change s (s.takeBack i pool k a) bs bs (pool.blk k).addr ∧
      (∀ c, Used (s.takeBack i pool k a) bs c → c.addr ≠ (pool.blk k).addr) ∧
      Available (s.takeBack i pool k a) bs (pool.blk k) := by
  have hfits := h.pools.fits hi hk
  obtain ⟨heq, hpools, hstep⟩ := h.pools.free h.initialized hi hk ha hpooled hrejects
  obtain ⟨hgood, hchange⟩ := h.poolStep hstep hpools (h.slot_outside hi hfits)
    fun c hc hne => (h.pools.apart hc ⟨i, pool, k, hi, hk, rfl⟩).resolve_left
      fun heq => hne (by rw [heq])
  have hput : (s.takeBack i pool k a).pools[i]? = some (pool.putBack k) := by
    rw [takeBack_pools]
    exact List.getElem?_set_self (List.getElem?_eq_some_iff.mp hi).1
  have hfree : (pool.putBack k).blockUsed[k]? = some false :=
    List.getElem?_set_self (List.getElem?_eq_some_iff.mp hk).1
  refine ⟨heq, hgood, hchange, fun c hc haddr => ?_, .inr ?_⟩
  · have hstop := c.stop_eq
    have hstop' : (pool.blk k).stop = (pool.blk k).addr + 52 + (pool.blk k).size := rfl
    rcases hc with ⟨hc, -⟩ | hc
    · have hin := h.rep.linked.bounds hc
      have hout := h.slot_outside hi hfits
      omega
    · have hapart := hpools.fresh (k := k) hput hfits hfree hc
      change c.stop ≤ (pool.blk k).addr ∨ (pool.blk k).stop ≤ c.addr at hapart
      omega
  · exact ⟨i, _, k, hput, rfl, hfree, ((hpools.pool i _ hput).stack.mem_iff k).mpr hfree⟩

theorem Good.freeSlot (hb : s.InPool b) (hun : s.Unclaimed b.addr) :
    ∃ t r bs', s.free (b.addr + 48) = some (t, r) ∧ Good t bs' ∧ Change s t bs bs' b.addr ∧
      (Strict s bs → r = .pooled ∧ Strict t bs' ∧ Available t bs' b) := by
  have hpooled := (h.pooled_iff (.inr hb)).mpr hb
  obtain ⟨i, pool, k, hi, hk, rfl⟩ := hb
  have hfits := h.pools.fits hi hk
  obtain ⟨heq, hgood, hchange, hgone, havailable⟩ := h.takeBack hi hk hfits.within hpooled
    (hun i (List.getElem?_eq_some_iff.mp hi).1 pool hi hfits.contains)
  have hset := takeBack_pools s i pool k (pool.blk k).addr
  exact ⟨_, _, bs, heq, hgood, hchange, fun hs => ⟨rfl, hs.change hchange hs.snug
    (fun _ _ hun => hun.of_set hi hset hchange.regions fun _ _ _ hrejects => hrejects.putBack k)
    fun c hc ha => absurd ha (hgone c hc), havailable⟩⟩

theorem Good.free (hb : Used s bs b) (hok : s.FreeFits (b.addr + 48)) :
    ∃ t r bs', s.free (b.addr + 48) = some (t, r) ∧ Good t bs' ∧ Change s t bs bs' b.addr ∧
      (Strict s bs → (r = .freed ∨ r = .pooled) ∧ Strict t bs' ∧ Available t bs' b) := by
  rcases id hb with ⟨hmem, hu⟩ | hin
  · obtain ⟨t, r, bs', heq, hgood, hchange, hstrict⟩ := h.freeHeap hmem hu
    exact ⟨t, r, bs', heq, hgood, hchange, fun hs => ⟨.inl (hstrict hs).1, (hstrict hs).2⟩⟩
  · have hun := hok ((h.pooled_iff hb).mpr hin)
    obtain ⟨t, r, bs', heq, hgood, hchange, hstrict⟩ := h.freeSlot hin hun
    exact ⟨t, r, bs', heq, hgood, hchange, fun hs => ⟨.inr (hstrict hs).1, (hstrict hs).2⟩⟩

end

/-! ## `Memory_Realloc` -/

/-- What `Memory_Realloc` of the heap block at `block` needs, from the aligned size
on: in place, that `split_block` does not borrow. -/
def HeapReallocFits (s : MemoryManager) (block size : Nat) : Prop :=
  if size ≤ blkSize s.mem block then
    size < blkSize s.mem block → size + 52 ≤ blkSize s.mem block
  else if s.canMerge block size then
    size ≤ blkSize s.mem block + blkSize s.mem (blkNext s.mem block)
  else s.AllocFits size
  deriving Decidable

/-- What `Memory_Realloc(ptr, size)` needs: what `Memory_Alloc` and `Memory_Free` need
where it calls them, and for a heap block that rounding up does not wrap. The call
of `Memory_Free` comes after the new block has been taken. -/
def ReallocFits (s : MemoryManager) (ptr size : Nat) : Prop :=
  let block := ptr - 48
  if ptr = 0 then s.AllocFits size
  else if size = 0 then s.FreeFits ptr
  else if blkPooled s.mem block then
    s.AllocFits size ∧ (s.Grants size → s.Unclaimed block ∧ s.Spares size block)
  else if ¬ s.isValidBlock block ∨ ¬ s.checkBlockGuards block then True
  else size + 7 < 4294967296 ∧ s.HeapReallocFits block (align size)
  deriving Decidable

/-- A block of `bsize` bytes at `block`, followed by `next`, can be resized to `size`
bytes without losing track: it is split only at the end of the list, and not into
a block of size 0, and the word that becomes its footer is the guard pattern. -/
def ResizeStrict (s : MemoryManager) (block bsize size next : Nat) : Prop :=
  (size + 104 ≤ bsize → next = 0 ∧ size + 104 < bsize) ∧
    s.mem.rd (block + 48 + splitSize bsize size) 4 = guardPattern
  deriving Decidable

def HeapReallocStrict (s : MemoryManager) (block size : Nat) : Prop :=
  let next := blkNext s.mem block
  if size ≤ blkSize s.mem block then
    size < blkSize s.mem block → s.ResizeStrict block (blkSize s.mem block) size next
  else if s.canMerge block size then
    s.ResizeStrict block (blkSize s.mem block + (blkSize s.mem next + 52)) size
      (blkNext s.mem next)
  else s.AllocStrict size
  deriving Decidable

/-- What keeps the invariant strict in `Memory_Realloc(ptr, size)`. -/
def ReallocStrict (s : MemoryManager) (ptr size : Nat) : Prop :=
  let block := ptr - 48
  if ptr = 0 then s.AllocStrict size
  else if size = 0 then True
  else if blkPooled s.mem block then s.AllocStrict size
  else s.HeapReallocStrict block (align size)
  deriving Decidable

/-- `Memory_Realloc` of `b` to `size` bytes has answered `ptr`. -/
structure Realloced (s t : MemoryManager) (bs bs' : List Blk) (b : Blk) (ptr size : Nat) :
    Prop where
  good : Good t bs'
  others : ∀ c, Used s bs c → c.addr ≠ b.addr → Used t bs' c
  null : ptr = 0 → size ≠ 0 → Used t bs' b
  result : ptr ≠ 0 → ∃ b', Used t bs' b' ∧ ptr = b'.addr + 48 ∧ size ≤ b'.size ∧
    ∀ c, Used s bs c → c.addr ≠ b.addr → c.addr ≠ b'.addr

/-- And nobody has lost a byte: the data comes along as far as both sizes reach, and
without an answer the block has its data still. -/
structure Carried (s t : MemoryManager) (bs bs' : List Blk) (b : Blk) (ptr size : Nat) : Prop
    extends Realloced s t bs bs' b ptr size where
  kept : ∀ c, Used s bs c → c.addr ≠ b.addr → ∀ x, c.Own x → t.mem x = s.mem x
  refused : ptr = 0 → size ≠ 0 → ∀ x, b.Own x → t.mem x = s.mem x
  moved : ptr ≠ 0 → ∀ i < b.size, i < size → t.mem (ptr + i) = s.mem (b.addr + 48 + i)

theorem Carried.unchanged (h : Good s bs) (hb : Used s bs b) (size : Nat) :
    Carried s s bs bs b 0 size where
  good := h
  others _ hc _ := hc
  null _ _ := hb
  result h0 := absurd rfl h0
  kept _ _ _ _ _ := rfl
  refused _ _ _ _ := rfl
  moved h0 := absurd rfl h0

theorem Carried.mono {ptr : Nat} (h : Carried s t bs bs' b ptr size) (hle : size' ≤ size)
    (hpos : size ≠ 0) : Carried s t bs bs' b ptr size' where
  good := h.good
  others := h.others
  null h0 _ := h.null h0 hpos
  result h0 := by
    obtain ⟨b', hb', hptr, hfits, hfresh⟩ := h.result h0
    exact ⟨b', hb', hptr, hle.trans hfits, hfresh⟩
  kept := h.kept
  refused h0 _ := h.refused h0 hpos
  moved h0 i hi hi' := h.moved h0 i hi (hi'.trans_le hle)

theorem own_data (h : i < b.size) : b.Own (b.addr + 48 + i) := by
  unfold Blk.Own Blk.stop
  omega

section

variable (h : Good s bs)
include h

theorem Good.own_apart (hb : Used s bs b) (hc : Used s bs c)
    (hne : b.addr ≠ c.addr) {x : Nat} (hx : b.Own x) :
    x < c.addr + 48 ∨ c.addr + 48 + c.size ≤ x := by
  unfold Blk.Own at hx
  have hstop := b.stop_eq
  have hstop' := c.stop_eq
  rcases h.apart hb.block hc.block with rfl | hapart
  · exact absurd rfl hne
  · omega

theorem Good.blkSize_eq (hb : Used s bs b) : blkSize s.mem b.addr = b.size := by
  rcases hb with ⟨hb, -⟩ | ⟨i, pool, k, hi, hk, rfl⟩
  · obtain ⟨_, _, hat⟩ := h.rep.blockAt hb
    exact hat.size
  · exact ((h.pools.pool i pool hi).header k hk).1

theorem Good.reallocMove (hb : Used s bs b) (hok : s.AllocFits size)
    (hun : s.Grants size → s.Unclaimed b.addr ∧ s.Spares size b.addr) {length : MemoryManager → Nat}
    (hlength : ∀ t, blkSize t.mem b.addr = b.size → length t = min b.size size) (file line : Nat) :
    ∃ t ptr bs', s.reallocMove (b.addr + 48) size file line length = some (t, ptr) ∧
      Carried s t bs bs' b ptr size ∧ (s.AllocStrict size → Strict s bs → Strict t bs') := by
  obtain ⟨t, ptr, halloc, hcase⟩ := h.alloc hok file line
  unfold MemoryManager.reallocMove
  simp only [halloc, Option.bind_eq_bind, Option.bind_some]
  rcases hcase with ⟨rfl, rfl⟩ | ⟨bs₁, b', hnew, rfl, -⟩
  · exact ⟨t, 0, bs, rfl, Carried.unchanged h hb size, fun _ hs => hs⟩
  have hne : b.addr ≠ b'.addr := hnew.fresh b hb
  obtain ⟨hb₁, hown⟩ := hnew.change.keeps b hb hne
  have hlen := hlength t (hnew.good.blkSize_eq hb₁)
  have hfits := hnew.fits
  -- the copy stays within the data of the new block
  have hcopy : ∀ x, x < b'.addr + 48 ∨ b'.addr + 48 + b'.size ≤ x →
      t.mem.copy (b'.addr + 48) (b.addr + 48) (length t) x = t.mem x :=
    fun x hx => Mem.copy_of_not (by omega)
  obtain ⟨hgood₂, hstrict₂⟩ := hnew.good.setMem (m := t.mem.copy (b'.addr + 48) (b.addr + 48)
    (length t)) hnew.used fun x hx => hcopy x (by omega)
  have hun₂ : Unclaimed { t with mem := t.mem.copy (b'.addr + 48) (b.addr + 48) (length t) }
      b.addr := by
    obtain ⟨hun, hspares⟩ := hun hnew.grants
    exact (hnew.unclaimed b.addr hspares hun).of_pools rfl
  obtain ⟨u, r, bs₃, hfree, hgood₃, hchange₃, hstrict₃⟩ := hgood₂.free hb₁
    (fun _ => hun₂)
  rw [moveTo, hfree]
  obtain ⟨hb₃, hown₃⟩ := hchange₃.keeps b' hnew.used (Ne.symm hne)
  have hothers : ∀ c, Used s bs c → c.addr ≠ b.addr →
      Used u bs₃ c ∧ ∀ x, c.Own x → u.mem x = s.mem x := by
    intro c hc hcb
    obtain ⟨hc₁, hx₁⟩ := hnew.change.keeps c hc (hnew.fresh c hc)
    obtain ⟨hc₃, hx₃⟩ := hchange₃.keeps c hc₁ hcb
    refine ⟨hc₃, fun x hx => ((hx₃ x hx).trans (hcopy x ?_)).trans (hx₁ x hx)⟩
    exact hnew.good.own_apart hc₁ hnew.used (hnew.fresh c hc) hx
  refine ⟨u, b'.addr + 48, bs₃, rfl, ⟨⟨hgood₃, fun c hc hcb => (hothers c hc hcb).1,
    fun h0 => absurd h0 (by omega), fun _ => ⟨b', hb₃, rfl, hfits, fun c hc _ => hnew.fresh c hc⟩⟩,
    fun c hc hcb => (hothers c hc hcb).2, fun h0 => absurd h0 (by omega),
    fun _ i hi hi' => ?_⟩, fun ha hs => (hstrict₃ (hstrict₂ (hnew.strict ha hs))).2.1⟩
  calc u.mem (b'.addr + 48 + i)
      = t.mem.copy (b'.addr + 48) (b.addr + 48) (length t) (b'.addr + 48 + i) :=
        hown₃ _ (own_data (by omega))
    _ = t.mem (b.addr + 48 + i) := Mem.copy_at (by omega)
    _ = s.mem (b.addr + 48 + i) := hown _ (own_data hi)

theorem Good.resized (hb : b ∈ bs) (hu : b.used = true)
    (hr : Resized s t bs bs' b size) (hle : size' ≤ size) :
    Carried s t bs bs' b (b.addr + 48) size' ∧
      (Snug s.heapMemory bs' → s.mem.rd (b.addr + 48 + size) 4 = guardPattern →
        Strict s bs → Strict t bs') := by
  obtain ⟨hgood, hchange⟩ := h.heapStep hr.step hr.rep
  have hused : Used t bs' { b with size := size } := .inl ⟨hr.mem, hu⟩
  refine ⟨⟨⟨hgood, fun c hc hne => (hchange.keeps c hc hne).1, fun h0 => absurd h0 (by omega),
    fun _ => ⟨_, hused, rfl, hle, fun c _ hne => hne⟩⟩,
    fun c hc hne => (hchange.keeps c hc hne).2, fun h0 => absurd h0 (by omega),
    fun _ i _ hi => hr.bytes _ (by omega) (by omega)⟩, fun hsnug hend hs => ?_⟩
  refine hs.change hchange hsnug (fun _ _ hun => hun.of_pools hr.step.pools) fun c hc ha => ?_
  rw [hgood.unique hc hused ha]
  exact ⟨hs.guards b (.inl ⟨hb, hu⟩), hr.guarded (hs.guarded b (.inl ⟨hb, hu⟩)) hend,
    hgood.unclaimed_heap hr.mem⟩

theorem Good.reallocHeap (hb : b ∈ bs) (hu : b.used = true) (hpos : 0 < size)
    (hok : s.HeapReallocFits b.addr size) (file line : Nat) :
    ∃ t ptr bs', s.reallocHeap (b.addr + 48) size file line = some (t, ptr) ∧
      Carried s t bs bs' b ptr size ∧
      (s.HeapReallocStrict b.addr size → Strict s bs → Strict t bs') := by
  obtain ⟨pre, post, rfl⟩ := append_of_mem hb
  obtain ⟨-, hat, hrest⟩ := h.rep.linked.drop
  unfold MemoryManager.reallocHeap HeapReallocStrict
  unfold HeapReallocFits at hok
  dsimp only
  rw [Nat.add_sub_cancel]
  rw [hat.size, hat.next] at hok ⊢
  split
  · next hle =>
    rw [if_pos hle] at hok
    split
    · next hlt =>
      obtain ⟨bs', hr, hsnug⟩ := h.rep.shrink (hok hlt) s.heapMemory
      obtain ⟨hres, hstrict⟩ := h.resized hb hu hr (splitSize_bounds hle).1
      refine ⟨_, _, bs', rfl, hres, fun hcond hs => ?_⟩
      obtain ⟨hlast, hend⟩ := hcond hlt
      exact hstrict (hsnug hpos (fun hroom => ⟨headAddr_eq_zero h.rep (hlast hroom).1,
        (hlast hroom).2⟩) hs.snug) hend hs
    · refine ⟨s, _, _, rfl, ⟨⟨h, fun _ hc _ => hc, fun h0 => absurd h0 (by omega),
        fun _ => ⟨b, .inl ⟨hb, hu⟩, rfl, hle, fun _ _ hne => hne⟩⟩, fun _ _ _ _ _ => rfl,
        fun h0 => absurd h0 (by omega), fun _ _ _ _ => rfl⟩, fun _ hs => hs⟩
  next hle =>
  rw [if_neg hle] at hok
  split
  · next hmerge =>
    rw [if_pos hmerge] at hok
    obtain ⟨hne, hfree, -⟩ := of_decide_eq_true hmerge
    rw [hat.next] at hne hfree
    cases post with
    | nil => exact absurd rfl hne
    | cons c post =>
      have hatc := hrest.2.1
      have hc : c.used = false := by
        rw [headAddr, hatc.used_eq] at hfree
        exact Bool.eq_false_of_not_eq_true hfree
      rw [headAddr, hatc.size] at hok
      rw [headAddr, hatc.size, hatc.next]
      obtain ⟨bs', hr, hsnug⟩ := h.rep.grow hc hok s.heapMemory
      obtain ⟨hres, hstrict⟩ := h.resized hb hu hr (splitSize_bounds (by omega)).1
      refine ⟨_, _, bs', rfl, hres, fun hcond hs => ?_⟩
      obtain ⟨hlast, hend⟩ := hcond
      refine hstrict (hsnug hpos (fun hroom => ⟨?_, (hlast hroom).2⟩) hs.snug) hend hs
      exact Classical.byContradiction fun hne => (h.rep.behind [c]).2.1 hne (hlast hroom).1
  · next hmerge =>
    rw [if_neg hmerge] at hok
    refine h.reallocMove (.inl ⟨hb, hu⟩) hok
      (fun _ => ⟨h.unclaimed_heap hb, h.spares_heap hb size⟩) (fun t ht => ?_) file line
    rw [ht]
    exact (Nat.min_eq_left (Nat.le_of_not_le hle)).symm

theorem Good.realloc (hb : Used s bs b) (hok : s.ReallocFits (b.addr + 48) size) (file line : Nat) :
    ∃ t ptr bs', s.realloc (b.addr + 48) size file line = some (t, ptr) ∧
      Carried s t bs bs' b ptr size ∧
      (s.ReallocStrict (b.addr + 48) size → Strict s bs → Strict t bs') := by
  unfold MemoryManager.realloc ReallocStrict
  unfold ReallocFits at hok
  dsimp only at hok ⊢
  rw [if_neg (Nat.succ_ne_zero (b.addr + 47)), Nat.add_sub_cancel] at hok
  rw [if_neg (by rw [h.initialized]; exact fun hf => hf rfl),
    if_neg (Nat.succ_ne_zero (b.addr + 47)), Nat.add_sub_cancel]
  split
  · next h0 =>
    rw [if_pos h0] at hok
    obtain ⟨t, r, bs', hfree, hgood, hchange, hstrict⟩ := h.free hb hok
    rw [hfree]
    exact ⟨t, 0, bs', rfl, ⟨⟨hgood, fun c hc hne => (hchange.keeps c hc hne).1,
      fun _ hne => absurd h0 hne, fun hne => absurd rfl hne⟩,
      fun c hc hne => (hchange.keeps c hc hne).2, fun _ hne => absurd h0 hne,
      fun hne => absurd rfl hne⟩, fun _ hs => (hstrict hs).2.1⟩
  next h0 =>
  rw [if_neg h0] at hok
  split
  · next hpool =>
    rw [if_pos hpool] at hok
    refine h.reallocMove hb hok.1 hok.2 (fun t ht => ?_) file line
    rw [copyLength, ht]
    split
    · next hlt => exact (Nat.min_eq_left hlt.le).symm
    · next hlt => exact (Nat.min_eq_right (Nat.le_of_not_lt hlt)).symm
  next hpool =>
  rw [if_neg hpool] at hok
  have hrefused : ∃ t ptr bs', some (s, 0) = some (t, ptr) ∧ Carried s t bs bs' b ptr size ∧
      (s.HeapReallocStrict b.addr (align size) → Strict s bs → Strict t bs') :=
    ⟨s, 0, bs, rfl, Carried.unchanged h hb size, fun _ hs => hs⟩
  split
  · exact hrefused
  next hvalid =>
  split
  · exact hrefused
  next hguards =>
  rw [if_neg (by rintro (h' | h'); exacts [hvalid h', hguards h'])] at hok
  obtain ⟨hmem, hu⟩ := hb.resolve_right fun hin => hpool ((h.pooled_iff hb).mpr hin)
  obtain ⟨hsize, -, hpos⟩ := align_of_lt hok.1
  have hpos := hpos (Nat.pos_of_ne_zero h0)
  obtain ⟨t, ptr, bs', heq, hres, hstrict⟩ := h.reallocHeap hmem hu hpos hok.2 file line
  exact ⟨t, ptr, bs', heq, hres.mono hsize hpos.ne', hstrict⟩

end

end Cant.Memory.MemoryManager
