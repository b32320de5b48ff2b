/-
# `Pools` — the pools

A pool hands out the slots of one array: `free_list` is a stack of the free
indices and `block_used` flags the others (`FreeStack`). A slot that is handed
out gets the header and the guards of a heap block, so it is a `Blk` of
`block_size - BLOCK_OVERHEAD` data bytes (`MemoryPool.blk`).

`PoolsOk` is what the pools keep.

Two tests of the source do not check what they should, and appear as hypotheses:

    Fits       the slot lies in the allocated memory: `pool_sizes[i] * pool_counts[i]`
               can wrap, and a slot needs room for a header and a footer
    Rejects    `free_to_pool` answers false for a block of another pool: it computes an
               index from the address without asking whether the address is in the pool,
               and takes the block if the slot at that index is in use
-/
import Cant.Lib.FreeStack
import Cant.Memory.Blocks

namespace Cant.Memory

open Word List Option Mem

namespace MemoryPool

variable {a block : Nat}

def total (pool : MemoryPool) : Nat := u32 (pool.blockSize * pool.blockCount : Nat)

/-- Slot `k`, handed out. -/
def blk (pool : MemoryPool) (k : Nat) : Blk :=
  ⟨pool.poolMemory + k * pool.blockSize, pool.blockSize - 52, true⟩

/-- Slot `k` has room for a block and lies in the pool's memory. -/
def Fits (pool : MemoryPool) (k : Nat) : Prop :=
  52 ≤ pool.blockSize ∧ (k + 1) * pool.blockSize ≤ pool.total

def Contains (pool : MemoryPool) (block : Nat) : Prop :=
  pool.poolMemory ≤ block ∧ block < pool.poolMemory + pool.total
  deriving Decidable

/-- The index that `free_to_pool` computes for the block is out of range, or the slot
there is not in use. -/
def Rejects (pool : MemoryPool) (block : Nat) : Prop :=
  pool.blockSize ≠ 0 ∧ (pool.blockCount ≤ pool.blockIndex block ∨
    pool.blockUsed[pool.blockIndex block]? = some false)
  deriving Decidable

def region (pool : MemoryPool) : Nat × Nat × Nat :=
  (pool.poolMemory, pool.blockSize, pool.blockCount)

structure Ok (pool : MemoryPool) (m : Mem) : Prop where
  stack : FreeStack pool.freeList pool.freeBlocks pool.blockUsed
  count : pool.blockUsed.length = pool.blockCount
  fits : ∀ k : Nat, pool.blockUsed[k]? = some true → pool.Fits k
  header : ∀ k : Nat, pool.blockUsed[k]? = some true →
    blkSize m (pool.blk k).addr = pool.blockSize - 52 ∧ blkFlags m (pool.blk k).addr = 3

variable {pool pool' : MemoryPool} {m m' : Mem} {k j : Nat}

theorem Fits.bounds (h : pool.Fits k) :
    pool.poolMemory ≤ (pool.blk k).addr ∧ (pool.blk k).stop = (pool.blk k).addr + pool.blockSize ∧
      (pool.blk k).stop ≤ pool.poolMemory + pool.total := by
  obtain ⟨hsize, hend⟩ := h
  have hmul : (k + 1) * pool.blockSize = k * pool.blockSize + pool.blockSize := Nat.succ_mul _ _
  unfold Blk.stop blk
  dsimp only
  omega

theorem Fits.contains (h : pool.Fits k) : pool.Contains (pool.blk k).addr := by
  obtain ⟨hlo, hstop, hhi⟩ := h.bounds
  have hsize := h.1
  exact ⟨hlo, by omega⟩

theorem Fits.cut (h : pool.Fits k) :
    pool.poolMemory + u32 (k * pool.blockSize : Nat) = (pool.blk k).addr ∧
      u32 ((pool.blockSize : Int) - 52) = pool.blockSize - 52 ∧ pool.blockSize < 4294967296 := by
  have htotal : pool.total < 4294967296 := u32_lt _
  obtain ⟨hlo, hstop, hhi⟩ := h.bounds
  have haddr : (pool.blk k).addr = pool.poolMemory + k * pool.blockSize := rfl
  refine ⟨?_, ?_, by omega⟩
  · rw [u32_of_lt (by omega)]
    rfl
  · have := h.1
    unfold u32
    omega

theorem blk_apart (hk : pool.Fits k) (hj : pool.Fits j) (hne : k ≠ j) :
    (pool.blk k).stop ≤ (pool.blk j).addr ∨ (pool.blk j).stop ≤ (pool.blk k).addr := by
  have key : ∀ {k j : Nat}, pool.Fits k → k < j → (pool.blk k).stop ≤ (pool.blk j).addr :=
    fun {k j} hk hlt => by
      have hmul : (k + 1) * pool.blockSize ≤ j * pool.blockSize := Nat.mul_le_mul_right _ hlt
      have hsucc : (k + 1) * pool.blockSize = k * pool.blockSize + pool.blockSize :=
        Nat.succ_mul _ _
      rw [hk.bounds.2.1]
      unfold blk
      dsimp only
      omega
  rcases Nat.lt_or_gt_of_ne hne with hlt | hlt
  · exact .inl (key hk hlt)
  · exact .inr (key hj hlt)

theorem Ok.congr (h : pool.Ok m) (hm : ∀ k : Nat, pool.blockUsed[k]? = some true →
    ∀ x, (pool.blk k).addr ≤ x → x < (pool.blk k).addr + 24 → m' x = m x) : pool.Ok m' where
  stack := h.stack
  count := h.count
  fits := h.fits
  header k hk :=
    ⟨(rd_congr fun x _ _ => hm k hk x (by omega) (by omega)).trans (h.header k hk).1,
      (rd_congr fun x _ _ => hm k hk x (by omega) (by omega)).trans (h.header k hk).2⟩

def Within (pool : MemoryPool) (k a : Nat) : Prop :=
  (pool.blk k).addr ≤ a ∧ a < (pool.blk k).addr + pool.blockSize

theorem Fits.within (h : pool.Fits k) : pool.Within k (pool.blk k).addr := by
  have := h.1
  exact ⟨.refl, by omega⟩

theorem blockIndex_of_within (h : pool.Fits k) (ha : pool.Within k a) : pool.blockIndex a = k := by
  obtain ⟨hlo, hhi⟩ := ha
  have hpos : 0 < pool.blockSize := Nat.lt_of_lt_of_le (by decide) h.1
  have haddr : (pool.blk k).addr = pool.poolMemory + k * pool.blockSize := rfl
  have hdiff : (a : Int) - pool.poolMemory = ((a - pool.poolMemory : Nat) : Int) := by omega
  have hdiv : (a - pool.poolMemory) / pool.blockSize = k := by
    rw [Nat.div_eq_iff hpos]
    omega
  have hlt : k < 4294967296 := by
    have htotal : pool.total < 4294967296 := u32_lt _
    have hle : (k + 1) * 1 ≤ (k + 1) * pool.blockSize :=
      Nat.mul_le_mul_left _ (Nat.le_trans (by decide) h.1)
    have := h.2
    omega
  unfold blockIndex
  rw [hdiff, ← Int.ofNat_tdiv, hdiv]
  exact u32_of_lt hlt

theorem freeToPool_none_iff : pool.freeToPool (block + 48) = some none ↔ pool.Rejects block := by
  unfold freeToPool Rejects
  dsimp only
  rw [Nat.add_sub_cancel]
  split
  · next h0 => exact ⟨nofun, fun h => absurd h0 h.1⟩
  next h0 =>
  split
  · next hge => exact ⟨fun _ => ⟨h0, .inl hge⟩, fun _ => rfl⟩
  next hlt =>
  cases hused : pool.blockUsed[pool.blockIndex block]? with
  | none => exact ⟨nofun, fun h => h.2.elim (fun hge => absurd hge hlt) nofun⟩
  | some used =>
    cases used with
    | false => exact ⟨fun _ => ⟨h0, .inr rfl⟩, fun _ => rfl⟩
    | true =>
      refine ⟨fun h => ?_, fun h => h.2.elim (fun hge => absurd hge hlt) nofun⟩
      split at h <;> cases h

def putBack (pool : MemoryPool) (k : Nat) : MemoryPool :=
  { pool with
    blockUsed := pool.blockUsed.set k false
    freeList := pool.freeList.set pool.freeBlocks k
    freeBlocks := pool.freeBlocks + 1 }

theorem Rejects.putBack (h : pool.Rejects block) (k : Nat) : (pool.putBack k).Rejects block := by
  refine ⟨h.1, h.2.imp id fun hfree => ?_⟩
  show (pool.blockUsed.set k false)[pool.blockIndex block]? = some false
  rw [getElem?_set]
  split
  · next heq => rw [if_pos (heq ▸ (List.getElem?_eq_some_iff.mp hfree).1)]
  · exact hfree

theorem Ok.freeToPool (h : pool.Ok m) (hk : pool.blockUsed[k]? = some true)
    (ha : pool.Within k a) : pool.freeToPool (a + 48) = some (some (pool.putBack k)) := by
  have hfits := h.fits k hk
  have hlt : k < pool.blockCount := h.count ▸ (List.getElem?_eq_some_iff.mp hk).1
  unfold MemoryPool.freeToPool
  rw [if_neg (by have := hfits.1; omega), Nat.add_sub_cancel, blockIndex_of_within hfits ha]
  simp only [ge_iff_le, Nat.not_le.mpr hlt, if_false, hk, bind_eq_bind, bind_some,
    not_true, if_pos (h.stack.push hk).1]
  rfl

theorem Ok.putBack (h : pool.Ok m) (hk : pool.blockUsed[k]? = some true) :
    (pool.putBack k).Ok m := by
  have hused : ∀ j : Nat, (pool.putBack k).blockUsed[j]? = some true →
    pool.blockUsed[j]? = some true := fun j hj => by
      simp only [MemoryPool.putBack, getElem?_set] at hj
      split at hj
      · split at hj <;> cases hj
      · exact hj
  refine ⟨(h.stack.push hk).2, ?_, fun j hj => h.fits j (hused j hj),
    fun j hj => h.header j (hused j hj)⟩
  exact length_set.trans h.count

def take (pool : MemoryPool) (k : Nat) : MemoryPool :=
  { pool with freeBlocks := pool.freeBlocks - 1, blockUsed := pool.blockUsed.set k true }

theorem Rejects.take (h : pool.Rejects block) (hne : pool.blockIndex block ≠ k) :
    (pool.take k).Rejects block :=
  ⟨h.1, h.2.imp id fun hfree => (getElem?_set_ne (Ne.symm hne)).trans hfree⟩

/-- The slot on top of the stack is not in use, and can be handed out once its
header is written. -/
theorem Ok.take (h : pool.Ok m) (hpos : 0 < pool.freeBlocks) :
    ∃ k, pool.freeList[pool.freeBlocks - 1]? = some k ∧ pool.blockUsed[k]? = some false ∧
      ∀ m' : Mem, (∀ j : Nat, pool.blockUsed[j]? = some true →
          ∀ x, (pool.blk j).addr ≤ x → x < (pool.blk j).addr + 24 → m' x = m x) →
        pool.Fits k → blkSize m' (pool.blk k).addr = pool.blockSize - 52 →
        blkFlags m' (pool.blk k).addr = 3 → (pool.take k).Ok m' := by
  have hstack := h.stack
  rw [← Nat.sub_add_cancel hpos] at hstack
  obtain ⟨k, htop, hfree, hpop⟩ := hstack.pop
  refine ⟨k, htop, hfree, fun m' hm hfits hsize hflags => ?_⟩
  have hused : ∀ j : Nat, (pool.take k).blockUsed[j]? = some true →
      j = k ∨ pool.blockUsed[j]? = some true := by
    intro j hj
    simp only [MemoryPool.take, getElem?_set] at hj
    split at hj
    · next heq => exact .inl heq.symm
    · exact .inr hj
  refine ⟨hpop, length_set.trans h.count, fun j hj => ?_, fun j hj => ?_⟩
  · rcases hused j hj with rfl | hj
    · exact hfits
    · exact h.fits j hj
  · rcases hused j hj with rfl | hj
    · exact ⟨hsize, hflags⟩
    · exact (h.congr hm).header j hj

end MemoryPool

namespace MemoryManager

/-- `b` is a slot in use. -/
def InPool (s : MemoryManager) (b : Blk) : Prop :=
  ∃ (i : Nat) (pool : MemoryPool) (k : Nat),
    s.pools[i]? = some pool ∧ pool.blockUsed[k]? = some true ∧ b = pool.blk k

/-- The memory of the heap and of the pools does not overlap. -/
structure Placed (s : MemoryManager) : Prop where
  pos : ∀ (i : Nat) (pool : MemoryPool), s.pools[i]? = some pool → 0 < pool.poolMemory
  heap : ∀ (i : Nat) (pool : MemoryPool), s.pools[i]? = some pool →
    pool.poolMemory + pool.total ≤ s.heapMemory ∨
      s.heapMemory + s.config.heapSize ≤ pool.poolMemory
  apart : ∀ (i j : Nat) (p q : MemoryPool), i ≠ j → s.pools[i]? = some p → s.pools[j]? = some q →
    p.poolMemory + p.total ≤ q.poolMemory ∨ q.poolMemory + q.total ≤ p.poolMemory

/-- All pools are in order and in their places. -/
structure PoolsOk (s : MemoryManager) : Prop where
  pool : ∀ (i : Nat) (pool : MemoryPool), s.pools[i]? = some pool → pool.Ok s.mem
  placed : Placed s

/-- What a change at the slot `b` leaves alone. -/
structure PoolStep (s t : MemoryManager) (b : Blk) : Prop where
  config : t.config = s.config
  heap : t.heapMemory = s.heapMemory
  first : t.firstBlock = s.firstBlock
  last : t.lastBlock = s.lastBlock
  initialized : t.initialized = s.initialized
  regions : t.pools.map MemoryPool.region = s.pools.map MemoryPool.region
  bytes : ∀ x, (x < b.addr ∨ b.stop ≤ x) → t.mem x = s.mem x
  keeps : ∀ c, InPool s c → c.addr ≠ b.addr → InPool t c
  only : ∀ c, InPool t c → c.addr ≠ b.addr → InPool s c

variable {s t u : MemoryManager} {b c : Blk} {pool pool' : MemoryPool} {i k : Nat}

theorem region_total (h : pool'.region = pool.region) :
    pool'.poolMemory = pool.poolMemory ∧ pool'.total = pool.total := by
  obtain ⟨hmem, hrest⟩ := Prod.mk.inj h
  obtain ⟨hsize, hcount⟩ := Prod.mk.inj hrest
  exact ⟨hmem, by unfold MemoryPool.total; rw [hsize, hcount]⟩

theorem region_blk (h : pool'.region = pool.region) (k : Nat) : pool'.blk k = pool.blk k := by
  obtain ⟨hmem, hrest⟩ := Prod.mk.inj h
  obtain ⟨hsize, -⟩ := Prod.mk.inj hrest
  unfold MemoryPool.blk
  rw [hmem, hsize]

theorem pool_of_regions (h : t.pools.map MemoryPool.region = s.pools.map MemoryPool.region)
    (hi : t.pools[i]? = some pool') :
    ∃ pool : MemoryPool, s.pools[i]? = some pool ∧ pool'.region = pool.region := by
  have hmap := congrArg (·[i]?) h
  simp only [getElem?_map, hi, map_some] at hmap
  obtain ⟨pool, hpool, heq⟩ := map_eq_some_iff.mp hmap.symm
  exact ⟨pool, hpool, heq.symm⟩

theorem Placed.of_regions (h : Placed s) (hconfig : t.config = s.config)
    (hheap : t.heapMemory = s.heapMemory)
    (hregions : t.pools.map MemoryPool.region = s.pools.map MemoryPool.region) : Placed t where
  pos i pool hi := by
    obtain ⟨p, hp, hregion⟩ := pool_of_regions hregions hi
    rw [(region_total hregion).1]
    exact h.pos i p hp
  heap i pool hi := by
    obtain ⟨p, hp, hregion⟩ := pool_of_regions hregions hi
    rw [hconfig, hheap, (region_total hregion).1, (region_total hregion).2]
    exact h.heap i p hp
  apart i j p q hne hi hj := by
    obtain ⟨p', hp, hregion⟩ := pool_of_regions hregions hi
    obtain ⟨q', hq, hregion'⟩ := pool_of_regions hregions hj
    rw [(region_total hregion).1, (region_total hregion).2, (region_total hregion').1,
      (region_total hregion').2]
    exact h.apart i j p' q' hne hp hq

theorem Placed.contains_unique {j block : Nat} (h : Placed s) (hi : s.pools[i]? = some pool)
    (hj : s.pools[j]? = some pool') (hp : pool.Contains block) (hq : pool'.Contains block) :
    i = j := by
  by_contra hne
  have hapart := h.apart i j pool pool' hne hi hj
  unfold MemoryPool.Contains at hp hq
  omega

section

variable (h : PoolsOk s)
include h

theorem PoolsOk.fits (hi : s.pools[i]? = some pool)
    (hk : pool.blockUsed[k]? = some true) : pool.Fits k :=
  (h.pool i pool hi).fits k hk

theorem PoolsOk.apart (hb : InPool s b) (hc : InPool s c) :
    b = c ∨ b.stop ≤ c.addr ∨ c.stop ≤ b.addr := by
  obtain ⟨i, p, k, hi, hk, rfl⟩ := hb
  obtain ⟨j, q, l, hj, hl, rfl⟩ := hc
  have hb := h.fits hi hk
  have hc := h.fits hj hl
  by_cases hij : i = j
  · subst hij
    obtain rfl := mem_unique hi hj
    by_cases hkl : k = l
    · exact .inl (by rw [hkl])
    · exact .inr (MemoryPool.blk_apart hb hc hkl)
  · have hregions := h.placed.apart i j p q hij hi hj
    have hb := hb.bounds
    have hc := hc.bounds
    omega

theorem PoolsOk.outside (hb : InPool s b) :
    b.stop ≤ s.heapMemory ∨ s.heapMemory + s.config.heapSize ≤ b.addr := by
  obtain ⟨i, p, k, hi, hk, rfl⟩ := hb
  have hb := (h.fits hi hk).bounds
  have hheap := h.placed.heap i p hi
  omega

theorem PoolsOk.heapStep {bs bs' : List Blk} {a : Nat}
    (hstep : HeapStep s t bs bs' a) : PoolsOk t where
  pool i pool hi := by
    rw [hstep.pools] at hi
    refine (h.pool i pool hi).congr fun k hk x hx hx' => hstep.outside x ?_
    have hout := h.outside ⟨i, pool, k, hi, hk, rfl⟩
    have hb := (h.fits hi hk).bounds
    have hsize := (h.fits hi hk).1
    omega
  placed := h.placed.of_regions hstep.config hstep.heap (by rw [hstep.pools])

end

theorem PoolStep.of_set {v : Bool} (hi : s.pools[i]? = some pool)
    (hpools : t.pools = s.pools.set i pool') (hregion : pool'.region = pool.region)
    (hused : pool'.blockUsed = pool.blockUsed.set k v) (hconfig : t.config = s.config)
    (hheap : t.heapMemory = s.heapMemory) (hfirst : t.firstBlock = s.firstBlock)
    (hlast : t.lastBlock = s.lastBlock) (hinit : t.initialized = s.initialized)
    (hbytes : ∀ x, (x < (pool.blk k).addr ∨ (pool.blk k).stop ≤ x) → t.mem x = s.mem x) :
    PoolStep s t (pool.blk k) := by
  have hlt : i < s.pools.length := (List.getElem?_eq_some_iff.mp hi).1
  have hset : t.pools[i]? = some pool' := by rw [hpools, getElem?_set_self hlt]
  have hother : ∀ j : Nat, i ≠ j → t.pools[j]? = s.pools[j]? := by
    intro j hne
    rw [hpools, getElem?_set_ne hne]
  have hflag : ∀ l : Nat, l ≠ k → pool'.blockUsed[l]? = pool.blockUsed[l]? := by
    intro l hne
    rw [hused, getElem?_set_ne (Ne.symm hne)]
  refine ⟨hconfig, hheap, hfirst, hlast, hinit, ?_, hbytes, ?_, ?_⟩
  · rw [hpools, map_set, hregion]
    have hget : (s.pools.map MemoryPool.region)[i]? = some pool.region := by
      rw [getElem?_map, hi]
      rfl
    obtain ⟨hlt', heq⟩ := List.getElem?_eq_some_iff.mp hget
    rw [← heq]
    exact set_getElem_self hlt'
  · rintro c ⟨j, q, l, hj, hl, rfl⟩ hne
    by_cases hij : i = j
    · subst hij
      obtain rfl := mem_unique hi hj
      have hlk : l ≠ k := fun heq => hne (by rw [heq])
      exact ⟨i, pool', l, hset, (hflag l hlk).trans hl, (region_blk hregion l).symm⟩
    · exact ⟨j, q, l, (hother j hij).trans hj, hl, rfl⟩
  · rintro c ⟨j, q, l, hj, hl, rfl⟩ hne
    by_cases hij : i = j
    · subst hij
      obtain rfl := mem_unique hset hj
      rw [region_blk hregion] at hne ⊢
      have hlk : l ≠ k := fun heq => hne (by rw [heq])
      exact ⟨i, pool, l, hi, (hflag l hlk).symm.trans hl, rfl⟩
    · exact ⟨j, q, l, (hother j hij).symm.trans hj, hl, rfl⟩

theorem PoolsOk.of_set (h : PoolsOk s) (hi : s.pools[i]? = some pool) (hfits : pool.Fits k)
    (hstep : PoolStep s t (pool.blk k)) (hpools : t.pools = s.pools.set i pool')
    (hok : pool'.Ok t.mem) : PoolsOk t where
  pool j q hj := by
    rw [hpools, getElem?_set] at hj
    split at hj
    · split at hj
      · cases hj
        exact hok
      · cases hj
    · next hij =>
      refine (h.pool j q hj).congr fun l hl x hx hx' => hstep.bytes x ?_
      have happart := h.placed.apart i j pool q hij hi hj
      have hb := hfits.bounds
      have hc := (h.fits hj hl).bounds
      have hsize := (h.fits hj hl).1
      omega
  placed := h.placed.of_regions hstep.config hstep.heap hstep.regions

/-! ## Handing out -/

theorem PoolsOk.fresh (h : PoolsOk s) (hi : s.pools[i]? = some pool) (hfits : pool.Fits k)
    (hfree : pool.blockUsed[k]? = some false) (hc : InPool s c) :
    c.stop ≤ (pool.blk k).addr ∨ (pool.blk k).stop ≤ c.addr := by
  obtain ⟨j, q, l, hj, hl, rfl⟩ := hc
  have hc := h.fits hj hl
  by_cases hij : i = j
  · subst hij
    obtain rfl := mem_unique hi hj
    have hlk : l ≠ k := by
      intro heq
      rw [heq, hfree] at hl
      cases hl
    exact MemoryPool.blk_apart hc hfits hlk
  · have hregions := h.placed.apart i j pool q hij hi hj
    have hb := hfits.bounds
    have hc := hc.bounds
    omega

/-- The header `allocate_from_pool` writes. -/
def slotHeader (m : Mem) (block size file line : Nat) : Mem :=
  (((m.wr block 4 size).wr (block + 4) 4 3).wr (block + 8) 8 file).wr (block + 16) 4 line

/-- The manager with slot `k` of pool `i` handed out. -/
def handOut (s : MemoryManager) (i : Nat) (pool : MemoryPool) (k file line : Nat) : MemoryManager :=
  let mem := slotHeader s.mem (pool.blk k).addr (pool.blockSize - 52) file line
  setupBlockGuards { s with pools := s.pools.set i (pool.take k), mem := mem } (pool.blk k).addr

theorem allocateFromPool_eq (hi : s.pools[i]? = some pool) (hpos : 0 < pool.freeBlocks)
    (htop : pool.freeList[pool.freeBlocks - 1]? = some k)
    (hfree : pool.blockUsed[k]? = some false) (hfits : pool.Fits k) (file line : Nat) :
    s.allocateFromPool i file line =
      some (s.handOut i pool k file line, (pool.blk k).addr + 48) := by
  obtain ⟨hblock, hcut, -⟩ := hfits.cut
  unfold allocateFromPool
  simp only [hi, bind_eq_bind, bind_some, if_neg hpos.ne', htop, hfree, hblock, hcut]
  rfl

theorem handOut_static (s : MemoryManager) (i : Nat) (pool : MemoryPool) (k file line : Nat) :
    (s.handOut i pool k file line).pools = s.pools.set i (pool.take k) ∧
      (s.handOut i pool k file line).config = s.config ∧
      (s.handOut i pool k file line).heapMemory = s.heapMemory ∧
      (s.handOut i pool k file line).firstBlock = s.firstBlock ∧
      (s.handOut i pool k file line).lastBlock = s.lastBlock ∧
      (s.handOut i pool k file line).initialized = s.initialized := by
  unfold handOut setupBlockGuards
  dsimp only
  split
  all_goals exact ⟨rfl, rfl, rfl, rfl, rfl, rfl⟩

theorem slotHeader_size (m : Mem) (block : Nat) {size : Nat} (hsize : size < 4294967296)
    (file line : Nat) : blkSize (slotHeader m block size file line) block = size := by
  simp (disch := omega) only [blkSize, slotHeader, rd_wr_of_disjoint, rd_wr_of_lt]

theorem handOut_mem (s : MemoryManager) (i : Nat) (hfits : pool.Fits k) (file line : Nat) {x : Nat}
    (hf : x < (pool.blk k).addr + 40 ∨ (pool.blk k).addr + 44 ≤ x)
    (hb : x < (pool.blk k).addr + 48 ∨ (pool.blk k).stop ≤ x) :
    (s.handOut i pool k file line).mem x =
      slotHeader s.mem (pool.blk k).addr (pool.blockSize - 52) file line x := by
  have hsize := hfits.1
  have hstop := hfits.bounds.2.1
  have hlt := hfits.cut.2.2
  have hlen := slotHeader_size s.mem (pool.blk k).addr
    (by omega : pool.blockSize - 52 < 4294967296) file line
  exact setupBlockGuards_mem _ hf (by dsimp only; omega)

/-- **`allocate_from_pool`** hands out the slot on top of the stack. -/
theorem PoolsOk.allocateFromPool (h : PoolsOk s) (hi : s.pools[i]? = some pool)
    (hpos : 0 < pool.freeBlocks)
    (hfits : ∀ k, pool.freeList[pool.freeBlocks - 1]? = some k → pool.Fits k) (file line : Nat) :
    ∃ t k, s.allocateFromPool i file line = some (t, (pool.blk k).addr + 48) ∧
      (pool.freeList[pool.freeBlocks - 1]? = some k ∧ pool.blockUsed[k]? = some false) ∧
      t.pools = s.pools.set i (pool.take k) ∧
      PoolsOk t ∧ PoolStep s t (pool.blk k) ∧ InPool t (pool.blk k) ∧
      (s.config.enableGuards = true → (pool.blk k).Guarded t.mem) := by
  obtain ⟨k, htop, hfree, hok⟩ := (h.pool i pool hi).take hpos
  have hfit := hfits k htop
  obtain ⟨hlo, hstop, hhi⟩ := hfit.bounds
  have hsize := hfit.1
  have hlt := hfit.cut.2.2
  have hmem := fun {x} => handOut_mem s i hfit file line (x := x)
  obtain ⟨hpools, hconfig, hheap, hfirst, hlast, hinit⟩ := handOut_static s i pool k file line
  have hbytes : ∀ x, (x < (pool.blk k).addr ∨ (pool.blk k).stop ≤ x) →
      (s.handOut i pool k file line).mem x = s.mem x := by
    intro x hx
    rw [hmem (by omega) (by omega)]
    simp (disch := omega) only [slotHeader, wr_of_not]
  have hstep : PoolStep s (s.handOut i pool k file line) (pool.blk k) :=
    PoolStep.of_set hi hpools rfl rfl hconfig hheap hfirst hlast hinit hbytes
  have htaken : (pool.take k).Ok (s.handOut i pool k file line).mem := by
    refine hok _ (fun j hj x hx hx' => hbytes x ?_) hfit ?_ ?_
    · have hapart := h.fresh hi hfit hfree ⟨i, pool, j, hi, hj, rfl⟩
      have hj' := (h.fits hi hj).bounds
      omega
    · refine (rd_congr fun x _ _ => hmem (by omega) (by omega)).trans ?_
      exact slotHeader_size s.mem _ (by omega) file line
    · refine (rd_congr fun x _ _ => hmem (by omega) (by omega)).trans ?_
      simp (disch := omega) only [slotHeader, rd_wr_of_disjoint, rd_wr_of_lt]
  have hilt : i < s.pools.length := (List.getElem?_eq_some_iff.mp hi).1
  have hklt : k < pool.blockUsed.length := (List.getElem?_eq_some_iff.mp hfree).1
  refine ⟨_, k, allocateFromPool_eq hi hpos htop hfree hfit file line, ⟨htop, hfree⟩, hpools,
    h.of_set hi hfit hstep hpools htaken, hstep, ⟨i, pool.take k, k, ?_, ?_, rfl⟩, fun hg => ?_⟩
  · rw [hpools, getElem?_set_self hilt]
  · exact getElem?_set_self hklt
  · have haddr : 0 < pool.poolMemory := h.placed.pos i pool hi
    refine setupBlockGuards_guarded hg (by omega) ?_
    exact slotHeader_size s.mem _ (by omega) file line

/-! ## Taking back -/

theorem freeToPools_eq : ∀ {pools : List MemoryPool} {i : Nat} {pool pool' : MemoryPool}
    {block : Nat}, pools[i]? = some pool → (∀ q ∈ pools.take i, q.Rejects block) →
    pool.freeToPool (block + 48) = some (some pool') →
    freeToPools (block + 48) pools = some (some (pools.set i pool'))
  | p :: pools, 0, pool, pool', block, hi, _, hfree => by
    cases hi
    simp [freeToPools, hfree]
  | p :: pools, i + 1, pool, pool', block, hi, hrejects, hfree => by
    have hrest : freeToPools (block + 48) pools = some (some (pools.set i pool')) :=
      freeToPools_eq hi (fun q hq => hrejects q (mem_cons_of_mem p hq)) hfree
    have hp := MemoryPool.freeToPool_none_iff.mpr (hrejects p mem_cons_self)
    simp [freeToPools, hp, hrest]

theorem freeToPools_none_iff {block : Nat} : ∀ {pools : List MemoryPool},
    freeToPools (block + 48) pools = some none ↔ ∀ q ∈ pools, q.Rejects block
  | [] => ⟨fun _ _ => nofun, fun _ => rfl⟩
  | p :: pools => by
    rw [forall_mem_cons, ← MemoryPool.freeToPool_none_iff, ← freeToPools_none_iff, freeToPools]
    cases p.freeToPool (block + 48) with
    | none => exact ⟨nofun, fun h => nomatch h.1⟩
    | some taker =>
      cases taker with
      | none =>
        cases freeToPools (block + 48) pools with
        | none => exact ⟨nofun, fun h => nomatch h.2⟩
        | some rest =>
          cases rest with
          | none => exact ⟨fun _ => ⟨rfl, rfl⟩, fun _ => rfl⟩
          | some _ => exact ⟨nofun, fun h => nomatch h.2⟩
      | some _ => exact ⟨nofun, fun h => nomatch h.1⟩

theorem freeToPools_some {block : Nat} : ∀ {pools pools' : List MemoryPool},
    freeToPools (block + 48) pools = some (some pools') →
    ∃ i pool pool', pools[i]? = some pool ∧ (∀ q ∈ pools.take i, q.Rejects block) ∧
      pool.freeToPool (block + 48) = some (some pool') ∧ pools' = pools.set i pool'
  | p :: pools, pools', h => by
    rw [freeToPools] at h
    cases htaker : p.freeToPool (block + 48) with
    | none =>
      rw [htaker] at h
      cases h
    | some taker =>
      rw [htaker] at h
      cases taker with
      | some p' =>
        cases h
        exact ⟨0, p, p', rfl, fun _ => nofun, htaker, rfl⟩
      | none =>
        obtain ⟨rest, hrest, hmap⟩ := map_eq_some_iff.mp h
        obtain ⟨pools'', rfl, rfl⟩ := map_eq_some_iff.mp hmap
        obtain ⟨i, pool, pool', hi, hrejects, hfree, rfl⟩ := freeToPools_some hrest
        refine ⟨i + 1, pool, pool', hi, ?_, hfree, rfl⟩
        exact forall_mem_cons.mpr ⟨MemoryPool.freeToPool_none_iff.mp htaker, hrejects⟩

/-- The manager with slot `k` of pool `i` put back on a header at `a`. -/
def takeBack (s : MemoryManager) (i : Nat) (pool : MemoryPool) (k a : Nat) : MemoryManager :=
  record { s with pools := s.pools.set i (pool.putBack k) } (·.freed (blkSize s.mem a))

theorem takeBack_pools (s : MemoryManager) (i : Nat) (pool : MemoryPool) (k a : Nat) :
    (s.takeBack i pool k a).pools = s.pools.set i (pool.putBack k) :=
  (record_static _ _).1.pools

theorem takeBack_mem (s : MemoryManager) (i : Nat) (pool : MemoryPool) (k a : Nat) :
    (s.takeBack i pool k a).mem = s.mem :=
  (record_static _ _).2.2.2

/-- **`Memory_Free` of a pointer into a slot** puts the slot back on the stack of its pool,
if what stands there passes for a pool's header and the pools before that one
reject it. -/
theorem PoolsOk.free {a : Nat} (h : PoolsOk s) (hinit : s.initialized = true)
    (hi : s.pools[i]? = some pool) (hk : pool.blockUsed[k]? = some true)
    (ha : pool.Within k a) (hpooled : blkPooled s.mem a = true)
    (hrejects : ∀ q ∈ s.pools.take i, q.Rejects a) :
    s.free (a + 48) = some (s.takeBack i pool k a, .pooled) ∧ PoolsOk (s.takeBack i pool k a) ∧
      PoolStep s (s.takeBack i pool k a) (pool.blk k) := by
  have hok := h.pool i pool hi
  have hloop := freeToPools_eq hi hrejects (hok.freeToPool hk ha)
  obtain ⟨hstatic, hfirst, hlast, -⟩ := record_static
    { s with pools := s.pools.set i (pool.putBack k) } (·.freed (blkSize s.mem a))
  have hset := takeBack_pools s i pool k a
  have hstep : PoolStep s (s.takeBack i pool k a) (pool.blk k) :=
    PoolStep.of_set hi hset rfl rfl hstatic.config hstatic.heap hfirst hlast
      hstatic.initialized fun _ _ => by rw [takeBack_mem]
  refine ⟨?_, h.of_set hi (hok.fits k hk) hstep hset ?_, hstep⟩
  · unfold MemoryManager.free
    rw [if_neg (by rintro (h' | h'); exacts [h' hinit, by omega]), Nat.add_sub_cancel,
      if_pos hpooled, hloop]
    rfl
  · rw [takeBack_mem]
    exact hok.putBack hk

end MemoryManager

end Cant.Memory
