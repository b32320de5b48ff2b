/-
# `PoolUsage` — the pools and the usage over runs

Over runs of `Memory_Alloc` and `Memory_Free` with live pointers:

    the free list of a pool has the indices whose slot is not in use, each once    `FreeStack`
    what is taken from a pool is given back to it                                  `Home`
    `current_usage` is 0 when nothing is live                                      `Tally`

The first holds wherever the manager's invariant does. The third needs more, because an allocation
is counted with the size that was asked for (rounded up on the heap) and a free with the size
of the block: the two agree if the slot is filled and the heap's block is cut to size (`Exact`).
And `Memory_Free` gives a block of the heap back only with guards enabled.
-/
import Cant.Lib.Past
import Cant.Memory.Integrity
import Cant.Memory.Usage

namespace Cant.Memory

open Past Run Word List Option

namespace MemoryManager

variable {s t : MemoryManager} {bs bs' : List Blk} {b c : Blk} {a size ptr file line : Nat}

/-- `Memory_Free` will count what `Memory_Alloc` counts: the slot is as large as the request,
or the block of the heap is cut to size and gets its guards. -/
def Exact (s : MemoryManager) : MemOp → Prop
  | .alloc size _ _ => size ≠ 0 →
      (∀ i ∈ s.findSuitablePool (u32 (size + 52)), ∀ pool ∈ s.pools[i]?,
        pool.blockSize = size + 52) ∧
      (s.findSuitablePool (u32 (size + 52)) = none → ∀ block ∈ s.findBestFit (align size),
        block ≠ 0 → s.config.enableGuards = true ∧ align size + 104 ≤ blkSize s.mem block)
  | _ => True

instance (s : MemoryManager) : ∀ op, Decidable (s.Exact op)
  | .alloc .. | .free _ | .realloc .. | .defragment | .write .. => by
    unfold MemoryManager.Exact
    infer_instance

/-! ## Blocks that can be given back -/

/-- A used block that `Memory_Free` does not refuse. -/
def Sure (s : MemoryManager) (bs : List Blk) (b : Blk) : Prop :=
  Used s bs b ∧ (s.InPool b ∨ s.config.enableGuards = true ∧ b.Guarded s.mem ∧ 0 < b.size)

theorem Sure.change (h : Sure s bs b) (hgood : Good s bs) (hgood' : Good t bs')
    (hc : Change s t bs bs' a) (hne : b.addr ≠ a) : Sure t bs' b := by
  obtain ⟨hused, hsure⟩ := h
  obtain ⟨hused', hown⟩ := hc.keeps b hused hne
  have hstop := b.stop_eq
  refine ⟨hused', hsure.imp (fun hin => ?_) fun ⟨hguards, hguarded, hpos⟩ => ?_⟩
  · have hflags : blkPooled t.mem b.addr = blkPooled s.mem b.addr := by
      have hread : blkFlags t.mem b.addr = blkFlags s.mem b.addr :=
        Mem.rd_congr fun x _ _ => hown x (.inl (by omega))
      unfold blkPooled
      rw [hread]
    exact (hgood'.pooled_iff hused').mp (hflags.trans ((hgood.pooled_iff hused).mpr hin))
  · refine ⟨hc.config ▸ hguards, hguarded.congr fun x hx => hown x (.inr ?_), hpos⟩
    omega

theorem Sure.setMem (h : Sure s bs c) (hgood : Good s bs) (hb : Used s bs b) {m : Mem}
    (hm : ∀ x, (x < b.addr + 48 ∨ b.addr + 48 + b.size ≤ x) → m x = s.mem x) :
    Sure { s with mem := m } bs c := by
  refine ⟨h.1, h.2.imp id fun ⟨hguards, hguarded, hpos⟩ => ⟨hguards, ?_, hpos⟩⟩
  refine hguarded.congr fun x hx => hgood.data_apart hb hm h.1.block x ?_ ?_
  · omega
  · omega

/-! ## What the calls count -/

theorem Allocated.ne (h : Allocated s t bs bs' b size) (hgood : Good s bs) : t ≠ s := by
  rintro rfl
  have hsame : bs = bs' := mem_unique hgood.rep.blocks h.good.rep.blocks
  exact h.fresh b (hsame ▸ h.used) rfl

theorem take_pools_ne {i k : Nat} {pool : MemoryPool} (hi : s.pools[i]? = some pool)
    (hpos : 0 < pool.freeBlocks) (hpools : t.pools = s.pools.set i (pool.take k)) :
    t.pools ≠ s.pools := by
  intro hsame
  rw [hsame] at hpools
  have hget : s.pools[i]? = some (pool.take k) := by
    rw [hpools]
    exact List.getElem?_set_self (List.getElem?_eq_some_iff.mp hi).1
  have hcount := congrArg MemoryPool.freeBlocks (mem_unique hi hget)
  have hless : (pool.take k).freeBlocks = pool.freeBlocks - 1 := rfl
  omega

theorem alloc_counts (hgood : Good s bs)
    (heq : s.alloc size file line = some (t, b.addr + 48)) (hall : Allocated s t bs bs' b size)
    (horigin : Origin s t b size) (hexact : s.Exact (.alloc size file line)) :
    (∃ fromPool, t.stats = (s.record (·.allocated b.size fromPool)).stats) ∧ Sure t bs' b := by
  have hsize : size ≠ 0 := by
    rintro rfl
    have hnull : s.alloc 0 file line = some (s, 0) := if_pos (.inr rfl)
    exact absurd (congrArg Prod.snd (mem_unique hnull heq))
      (Nat.succ_ne_zero _).symm
  obtain ⟨hslot, hheap⟩ := hexact hsize
  cases horigin with
  | @pool i k pool hfind hi hpos hfits hb hpools =>
    have hfilled : b.size = size := by
      rw [hb]
      show pool.blockSize - 52 = size
      rw [hslot i hfind pool hi]
      rfl
    constructor
    · rcases alloc_stats heq with hsame | ⟨-, hstats⟩ | ⟨-, hsame⟩
      · exact absurd hsame (hall.ne hgood)
      · exact ⟨true, hfilled ▸ hstats⟩
      · exact absurd hsame (take_pools_ne hi hpos hpools)
    · refine ⟨hall.used, .inl (hall.used.resolve_left ?_)⟩
      rintro ⟨hmem, -⟩
      have htaken : pool.take k ∈ t.pools := by
        rw [hpools]
        exact mem_of_getElem?
          (List.getElem?_set_self (List.getElem?_eq_some_iff.mp hi).1)
      exact hall.good.not_contains hmem htaken (hb ▸ hfits.contains)
  | heap hfind hbest hcut hguarded hpools =>
    obtain ⟨hguards, hroom⟩ := hheap hfind b.addr hbest (hall.good.addr_ne_zero hall.used)
    have hfilled : b.size = align size := by
      rw [hcut, splitSize, if_pos hroom]
    constructor
    · rcases alloc_stats heq with hsame | ⟨hfound, -⟩ | ⟨hstats, -⟩
      · exact absurd hsame (hall.ne hgood)
      · exact absurd hfind hfound
      · exact ⟨false, hfilled ▸ hstats⟩
    · refine ⟨hall.used, .inr ⟨hall.change.config ▸ hguards, hguarded hguards, ?_⟩⟩
      exact (Nat.pos_of_ne_zero hsize).trans_le hall.fits

theorem Good.free_home {i k : Nat} {pool : MemoryPool} (h : Good s bs)
    (hi : s.pools[i]? = some pool) (hk : pool.blockUsed[k]? = some true)
    (hok : s.FreeFits ((pool.blk k).addr + 48)) :
    s.free ((pool.blk k).addr + 48) = some (s.takeBack i pool k (pool.blk k).addr, .pooled) := by
  have hin : s.InPool (pool.blk k) := ⟨i, pool, k, hi, hk, rfl⟩
  have hpooled := (h.pooled_iff (.inr hin)).mpr hin
  have hfits := h.pools.fits hi hk
  have hun : s.Unclaimed (pool.blk k).addr := by
    have hun := hok (by rwa [Nat.add_sub_cancel])
    rwa [Nat.add_sub_cancel] at hun
  exact (h.takeBack hi hk hfits.within hpooled
    (hun i (List.getElem?_eq_some_iff.mp hi).1 pool hi hfits.contains)).1

theorem free_counts {r : FreeResult} (hgood : Good s bs) (hsure : Sure s bs b)
    (hok : s.FreeFits (b.addr + 48)) (heq : s.free (b.addr + 48) = some (t, r)) :
    t.stats = (s.record (·.freed b.size)).stats := by
  have hsize := hgood.blkSize_eq hsure.1
  obtain ⟨hused, hsure⟩ := hsure
  by_cases hin : s.InPool b
  · obtain ⟨i, pool, k, hi, hk, rfl⟩ := hin
    cases (hgood.free_home hi hk hok).symm.trans heq
    rw [takeBack, record_stats, record_stats, hsize]
  · obtain ⟨hmem, hu⟩ := hused.resolve_right hin
    obtain ⟨hguards, hguarded, hpos⟩ := hsure.resolve_left hin
    obtain ⟨_, _, hat⟩ := hgood.rep.blockAt hmem
    rcases free_cases heq with ⟨hignored, -⟩ | ⟨hpooled, -⟩ | ⟨-, hblock⟩
    · rw [hgood.initialized] at hignored
      rcases hignored with hoff | hnull
      · cases hoff
      · cases hnull
    · rw [Nat.add_sub_cancel, hat.not_pooled] at hpooled
      cases hpooled
    · rw [Nat.add_sub_cancel, freeBlock_accepted (hgood.rep.isValidBlock hmem hpos)
        (hat.used_eq.trans hu) (hgood.rep.checkBlockGuards hmem hguards hguarded)] at hblock
      obtain ⟨rfl, -⟩ := Prod.mk.inj hblock
      simp [clearBlock, hsize]

section

variable (h : s.config.enableStats = false)
include h

theorem record_off (f : MemStats → MemStats) : (s.record f).stats = s.stats := by
  rw [record_stats, h]
  rfl

theorem alloc_stats_off
    (heq : s.alloc size file line = some (t, ptr)) : t.stats = s.stats := by
  rcases alloc_stats heq with rfl | ⟨-, hstats⟩ | ⟨hstats, -⟩
  · rfl
  all_goals rw [hstats, record_off h]

theorem free_stats_off {r : FreeResult} (heq : s.free ptr = some (t, r)) : t.stats = s.stats := by
  rcases free_stats heq with hstats | ⟨n, hstats⟩
  · exact hstats
  · rw [hstats, record_off h]

end

end MemoryManager

/-! ## What a log shows -/

abbrev PoolEntry := Taken World MemOp Nat

def MemOp.Plain : MemOp → Prop
  | .realloc _ _ _ _ | .defragment => False
  | _ => True

instance : ∀ op : MemOp, Decidable op.Plain
  | .alloc .. | .free _ | .realloc .. | .defragment | .write .. => by
    unfold MemOp.Plain
    infer_instance

/-- `Memory_Alloc` has answered `ptr`, and pool `i` has one slot fewer. -/
def TookFrom (i ptr : Nat) (e : PoolEntry) : Prop :=
  (∃ size file line, e.input = .alloc size file line) ∧ e.output = ptr ∧
    ∃ pool pool', e.pre.manager.pools[i]? = some pool ∧ e.post.manager.pools[i]? = some pool' ∧
      pool'.freeBlocks + 1 = pool.freeBlocks

/-- The slot of `ptr` is put back on the stack of pool `i`, and the other pools stay. -/
def GaveTo (i ptr : Nat) (e : PoolEntry) : Prop :=
  ∃ pool k, e.pre.manager.pools[i]? = some pool ∧ pool.blockUsed[k]? = some true ∧
    ptr = (pool.blk k).addr + 48 ∧ e.post.manager.pools = e.pre.manager.pools.set i (pool.putBack k)

def Home (e : PoolEntry) (past : List PoolEntry) : Prop :=
  ∀ ptr i, e.input = .free ptr → (∃ e' ∈ past, TookFrom i ptr e') → GaveTo i ptr e

/-- The free lists have the slots that are not in use, each once, and as many as they say; every
pointer went back to its pool; and nothing is in use if nothing is live. -/
structure PoolsKept (x : List PoolEntry × World) : Prop where
  lists : ∀ pool ∈ x.2.manager.pools, (pool.freeList.take pool.freeBlocks).Nodup ∧
    (∀ k, k ∈ pool.freeList.take pool.freeBlocks ↔ pool.blockUsed[k]? = some false) ∧
    pool.freeBlocks = pool.blockUsed.count false
  home : Historically Home x.1
  usage : x.2.live = [] → ∃ stats fragmentation,
    x.2.manager.getStats = some (some (stats, fragmentation)) ∧ stats.currentUsage = 0

/-! ## What is live -/

def held (m : Mem) : List Live → Nat
  | [] => 0
  | l :: live => blkSize m (l.ptr - 48) + held m live

theorem held_congr {m m' : Mem} : ∀ {live : List Live},
    (∀ l ∈ live, blkSize m' (l.ptr - 48) = blkSize m (l.ptr - 48)) → held m' live = held m live
  | [], _ => rfl
  | l :: _, h => by
    rw [held, held, h l mem_cons_self, held_congr fun l' hl' => h l' (mem_cons_of_mem l hl')]

theorem held_without {m : Mem} {l : Live} : ∀ {live : List Live}, (live.map Live.ptr).Nodup →
    l ∈ live → held m live = blkSize m (l.ptr - 48) + held m (World.without live l.ptr)
  | l' :: live, hnodup, hl => by
    obtain ⟨hfresh, hrest⟩ := nodup_cons.mp hnodup
    rcases mem_cons.mp hl with rfl | hl
    · have hsame : World.without live l.ptr = live := by
        refine filter_eq_self.mpr fun k hk => decide_eq_true fun heq => ?_
        exact hfresh (mem_map.mpr ⟨k, hk, heq⟩)
      have hhead : World.without (l :: live) l.ptr = World.without live l.ptr :=
        filter_cons_of_neg (by simp)
      rw [hhead, hsame, held]
    · have hne : l'.ptr ≠ l.ptr := fun heq => hfresh (mem_map.mpr ⟨l, hl, heq.symm⟩)
      have hkeep : World.without (l' :: live) l.ptr = l' :: World.without live l.ptr :=
        filter_cons_of_pos (decide_eq_true hne)
      rw [hkeep, held, held, held_without hrest hl, Nat.add_left_comm]

namespace World

open MemoryManager

variable {w : World} {bs bs' : List Blk} {t : MemoryManager} {live : List Live}

theorem Sound.held_eq (h : w.Sound bs) (hgood : Good t bs') (hsub : live.Sublist w.live)
    (hkeep : ∀ l ∈ live, ∀ b, Used w.manager bs b → l.ptr = b.addr + 48 → Used t bs' b) :
    held t.mem live = held w.manager.mem live := by
  refine held_congr fun l hl => ?_
  obtain ⟨b, hb, hptr, -⟩ := h.backed l (hsub.subset hl)
  rw [hptr, Nat.add_sub_cancel, hgood.blkSize_eq (hkeep l hl b hb hptr), h.good.blkSize_eq hb]

/-- With statistics, the usage is the size of the live blocks, and all of them can be given back;
without, it is 0. -/
structure Tally (w : World) (bs : List Blk) : Prop where
  off : w.manager.config.enableStats = false → w.manager.stats.currentUsage = 0
  sure : w.manager.config.enableStats = true →
    ∀ l ∈ w.live, ∃ b, Sure w.manager bs b ∧ l.ptr = b.addr + 48
  usage : w.manager.config.enableStats = true →
    w.manager.stats.currentUsage = held w.manager.mem w.live % 4294967296

section

variable (h : w.Tally bs)
include h

theorem Tally.zero (hlive : w.live = []) : w.manager.stats.currentUsage = 0 := by
  cases hstats : w.manager.config.enableStats with
  | false => exact h.off hstats
  | true =>
    have husage := h.usage hstats
    rwa [hlive] at husage

theorem Tally.alloc {size file line : Nat} {b : Blk} (hsound : w.Sound bs)
    (heq : w.manager.alloc size file line = some (t, b.addr + 48))
    (hall : Allocated w.manager t bs bs' b size) (horigin : Origin w.manager t b size)
    (hexact : w.manager.config.enableStats = true → w.manager.Exact (.alloc size file line)) :
    Tally ⟨t, ⟨b.addr + 48, size⟩ :: w.live⟩ bs' := by
  have hconfig := hall.change.config
  refine ⟨fun hoff => ?_, fun hon => ?_, fun hon => ?_⟩
  · rw [hconfig] at hoff
    rw [alloc_stats_off hoff heq]
    exact h.off hoff
  · rw [hconfig] at hon
    intro l hl
    rcases mem_cons.mp hl with rfl | hl
    · exact ⟨b, (alloc_counts hsound.good heq hall horigin (hexact hon)).2, rfl⟩
    · obtain ⟨c, hc, hptr⟩ := h.sure hon l hl
      exact ⟨c, hc.change hsound.good hall.good hall.change (hall.fresh c hc.1), hptr⟩
  · rw [hconfig] at hon
    obtain ⟨⟨fromPool, hstats⟩, -⟩ := alloc_counts hsound.good heq hall horigin (hexact hon)
    have hold : held t.mem w.live = held w.manager.mem w.live :=
      hsound.held_eq hall.good (List.Sublist.refl _)
        fun _ _ c hc _ => (hall.change.keeps c hc (hall.fresh c hc)).1
    show t.stats.currentUsage = (blkSize t.mem (b.addr + 48 - 48) + held t.mem w.live) % 4294967296
    rw [hstats, record_stats, hon, Nat.add_sub_cancel, hall.good.blkSize_eq hall.used]
    show u32 ((w.manager.stats.currentUsage : Int) + b.size) = _
    rw [h.usage hon]
    unfold u32
    omega

theorem Tally.free {b : Blk} {l : Live} {r : FreeResult} (hsound : w.Sound bs)
    (hl : l ∈ w.live) (hptr : l.ptr = b.addr + 48) (hb : Used w.manager bs b)
    (hok : w.manager.FreeFits (b.addr + 48))
    (heq : w.manager.free (b.addr + 48) = some (t, r)) (hgood : Good t bs')
    (hchange : Change w.manager t bs bs' b.addr) :
    Tally ⟨t, without w.live (b.addr + 48)⟩ bs' := by
  have hconfig := hchange.config
  refine ⟨fun hoff => ?_, fun hon => ?_, fun hon => ?_⟩
  · rw [hconfig] at hoff
    rw [free_stats_off hoff heq]
    exact h.off hoff
  · rw [hconfig] at hon
    intro l' hl'
    obtain ⟨c, hc, hptr'⟩ := h.sure hon l' ((without_sublist _ _).subset hl')
    have hne := ptr_ne_of_mem_without hl'
    exact ⟨c, hc.change hsound.good hgood hchange (by omega), hptr'⟩
  · rw [hconfig] at hon
    have hsure : Sure w.manager bs b := by
      obtain ⟨c, hc, hptr'⟩ := h.sure hon l hl
      exact hsound.good.unique hb hc.1 (by omega) ▸ hc
    have hstats := free_counts hsound.good hsure hok heq
    have hold : held t.mem (without w.live (b.addr + 48)) =
        held w.manager.mem (without w.live (b.addr + 48)) := by
      refine hsound.held_eq hgood (without_sublist _ _) fun l' hl' c hc hptr' => ?_
      have hne := ptr_ne_of_mem_without hl'
      exact (hchange.keeps c hc (by omega)).1
    have hall := held_without (m := w.manager.mem) hsound.distinct hl
    rw [hptr, Nat.add_sub_cancel, hsound.good.blkSize_eq hb] at hall
    show t.stats.currentUsage = held t.mem (without w.live (b.addr + 48)) % 4294967296
    rw [hstats, record_stats, hon]
    show u32 ((w.manager.stats.currentUsage : Int) - b.size) = _
    rw [h.usage hon]
    unfold u32
    omega

theorem Tally.write {b : Blk} {m : Mem} (hsound : w.Sound bs) (hb : Used w.manager bs b)
    (hm : ∀ x, (x < b.addr + 48 ∨ b.addr + 48 + b.size ≤ x) → m x = w.manager.mem x) :
    Tally ⟨{ w.manager with mem := m }, w.live⟩ bs := by
  have hgood := (hsound.good.setMem hb hm).1
  refine ⟨h.off, fun hon l hl => ?_, fun hon => ?_⟩
  · obtain ⟨c, hc, hptr⟩ := h.sure hon l hl
    exact ⟨c, hc.setMem hsound.good hb hm, hptr⟩
  · have hold : held m w.live = held w.manager.mem w.live :=
      hsound.held_eq hgood (List.Sublist.refl _) fun _ _ _ hc _ => hc
    rw [hold]
    exact h.usage hon

end

end World

open MemoryManager World

/-- The invariant of the runs. What was taken from a pool lies in it. -/
structure PoolInv (config : MemConfig) (x : List PoolEntry × World) (bs : List Blk) : Prop where
  config : x.2.manager.config = config
  sound : x.2.Sound bs
  tally : x.2.Tally bs
  home : Historically Home x.1
  marks : ∀ e ∈ x.1, ∀ i ptr, TookFrom i ptr e →
    ∃ pool, x.2.manager.pools[i]? = some pool ∧ pool.Contains (ptr - 48)

namespace PoolInv

variable {config : MemConfig} {x : List PoolEntry × World} {bs bs' : List Blk} {w : World}
  {op : MemOp} {out : Nat}

variable (h : PoolInv config x bs)
include h

theorem kept : PoolsKept x := by
  refine ⟨fun pool hpool => ?_, h.home, fun hlive => ?_⟩
  · obtain ⟨i, hi⟩ := mem_iff_getElem?.mp hpool
    have hstack := (h.sound.good.pools.pool i pool hi).stack
    exact ⟨hstack.nodup, hstack.mem_iff, hstack.eq_count⟩
  · obtain ⟨fragmentation, hstats⟩ := h.sound.good.rep.getStats h.sound.good.initialized
    exact ⟨_, fragmentation, hstats, h.tally.zero hlive⟩

theorem next (hsound : w.Sound bs') (htally : w.Tally bs')
    (hconfig : w.manager.config = x.2.manager.config)
    (hregions : w.manager.pools.map MemoryPool.region = x.2.manager.pools.map MemoryPool.region)
    (hhome : Home ⟨x.2, op, out, w⟩ x.1) (hmark : ∀ i ptr, TookFrom i ptr ⟨x.2, op, out, w⟩ →
      ∃ pool, w.manager.pools[i]? = some pool ∧ pool.Contains (ptr - 48)) :
    PoolInv config (⟨x.2, op, out, w⟩ :: x.1, w) bs' := by
  refine ⟨hconfig.trans h.config, hsound, htally, ⟨hhome, h.home⟩, fun e he i ptr htook => ?_⟩
  rcases mem_cons.mp he with rfl | he
  · exact hmark i ptr htook
  · obtain ⟨pool, hi, hcontains⟩ := h.marks e he i ptr htook
    obtain ⟨pool', hi', hregion⟩ := pool_of_regions hregions.symm hi
    refine ⟨pool', hi', ?_⟩
    rw [MemoryPool.Contains, ← (region_total hregion).1, ← (region_total hregion).2]
    exact hcontains

theorem alloc {size file line : Nat} (hfits : x.2.manager.AllocFits size)
    (hexact : config.enableStats = true → x.2.manager.Exact (.alloc size file line)) :
    ∃ w out bs', x.2.step (.alloc size file line) = some (w, out) ∧
      PoolInv config (⟨x.2, .alloc size file line, out, w⟩ :: x.1, w) bs' := by
  have hhome : ∀ w out, Home ⟨x.2, .alloc size file line, out, w⟩ x.1 := by
    rintro w out ptr i ⟨⟩
  obtain ⟨t, ptr, heq, hcase⟩ := h.sound.good.alloc hfits file line
  rcases hcase with ⟨rfl, rfl⟩ | ⟨bs', b, hall, rfl, horigin⟩
  · refine ⟨x.2, 0, bs, by simp only [World.step, heq]; rfl,
      h.next h.sound h.tally rfl rfl (hhome _ _) ?_⟩
    rintro i ptr ⟨-, -, pool, pool', hi, hi', hcount⟩
    obtain rfl := mem_unique hi hi'
    exact absurd hcount (Nat.succ_ne_self _)
  · refine ⟨⟨t, ⟨b.addr + 48, size⟩ :: x.2.live⟩, b.addr + 48, bs',
      by simp only [World.step, heq]; rfl, h.next (h.sound.handed hall.toHanded)
        (h.tally.alloc h.sound heq hall horigin (h.config ▸ hexact)) hall.change.config
        hall.change.regions (hhome _ _) ?_⟩
    rintro i ptr ⟨-, rfl, pool, pool', hi, hi', hcount⟩
    -- only the pool that served the request has a slot fewer
    cases horigin with
    | @pool j k q hfind hj hpos hfit hb hpools =>
      obtain rfl : j = i := by
        by_contra hne
        have hsame : t.pools[i]? = x.2.manager.pools[i]? := by
          rw [hpools, getElem?_set_ne hne]
        obtain rfl := mem_unique hi (hsame.symm.trans hi')
        exact Nat.succ_ne_self _ hcount
      refine ⟨pool', hi', ?_⟩
      have htaken : t.pools[j]? = some (q.take k) := by
        rw [hpools, List.getElem?_set_self (List.getElem?_eq_some_iff.mp hj).1]
      obtain rfl := mem_unique hi' htaken
      rw [hb]
      exact hfit.contains
    | heap hfind hbest hcut hguarded hpools =>
      rw [hpools] at hi'
      obtain rfl := mem_unique hi hi'
      exact absurd hcount (Nat.succ_ne_self _)

theorem free {ptr : Nat} (hgiven : x.2.Given ptr) (hfits : ptr ≠ 0 → x.2.manager.FreeFits ptr) :
    ∃ w out bs', x.2.step (.free ptr) = some (w, out) ∧
      PoolInv config (⟨x.2, .free ptr, out, w⟩ :: x.1, w) bs' := by
  have hmark : ∀ w out i p, ¬ TookFrom i p ⟨x.2, .free ptr, out, w⟩ := by
    rintro w out i p ⟨⟨size, file, line, ⟨⟩⟩, -⟩
  rcases hgiven with rfl | ⟨l, hl, rfl⟩
  · have heq : x.2.manager.free 0 = some (x.2.manager, .ignored) := if_pos (.inr rfl)
    have hsame := h.sound.without_null
    refine ⟨x.2, 0, bs, by simp only [World.step, heq, hsame]; rfl,
      h.next h.sound h.tally rfl rfl ?_ fun i p htook => absurd htook (hmark _ _ i p)⟩
    rintro ptr i ⟨⟩ ⟨e, he, htook⟩
    obtain ⟨pool, hi, hlow, -⟩ := h.marks e he i 0 htook
    exact absurd (h.sound.good.pools.placed.pos i pool hi) (Nat.not_lt.mpr hlow)
  · obtain ⟨b, hb, hptr, -⟩ := h.sound.backed l hl
    have hok := hptr ▸ hfits (by omega)
    obtain ⟨t, r, bs', heq, hgood, hchange, -⟩ := h.sound.good.free hb hok
    refine ⟨⟨t, without x.2.live l.ptr⟩, 0, bs', by simp only [World.step, hptr, heq]; rfl, ?_⟩
    rw [hptr] at hmark ⊢
    refine h.next (h.sound.givenBack hgood hchange)
      (h.tally.free h.sound hl hptr hb hok heq hgood hchange) hchange.config hchange.regions ?_
      fun i p htook => absurd htook (hmark _ _ i p)
    rintro ptr i ⟨⟩ ⟨e, he, htook⟩
    obtain ⟨pool, hi, hcontains⟩ := h.marks e he i _ htook
    rw [Nat.add_sub_cancel] at hcontains
    -- the address is in pool `i`, so the block is one of its slots
    obtain ⟨j, q, k, hj, hk, rfl⟩ := hb.resolve_left fun hheap =>
      h.sound.good.not_contains hheap.1 (mem_of_getElem? hi) hcontains
    have hfit := h.sound.good.pools.fits hj hk
    obtain rfl := h.sound.good.pools.placed.contains_unique hj hi hfit.contains hcontains
    cases (h.sound.good.free_home hj hk hok).symm.trans heq
    exact ⟨q, k, hj, hk, rfl, takeBack_pools ..⟩

theorem write {addr : Nat} {byte : UInt8} (hlegal : x.2.Legal (.write addr byte)) :
    ∃ w out bs', x.2.step (.write addr byte) = some (w, out) ∧
      PoolInv config (⟨x.2, .write addr byte, out, w⟩ :: x.1, w) bs' := by
  obtain ⟨l, hl, hle, hlt⟩ := hlegal
  obtain ⟨b, hb, hptr, hsize⟩ := h.sound.backed l hl
  have hm : ∀ x', (x' < b.addr + 48 ∨ b.addr + 48 + b.size ≤ x') →
      x.2.manager.mem.fill addr 1 byte x' = x.2.manager.mem x' :=
    fun x' hx' => Mem.fill_of_not (by omega)
  have hgood := (h.sound.good.setMem hb hm).1
  refine ⟨_, _, bs, rfl, h.next ⟨hgood, h.sound.backed, h.sound.distinct⟩
    (h.tally.write h.sound hb hm) rfl rfl ?_ ?_⟩
  · rintro ptr i ⟨⟩
  · rintro i p ⟨⟨size, file, line, ⟨⟩⟩, -⟩

theorem step (hlegal : x.2.Legal op) (hplain : op.Plain) (hfits : x.2.manager.Fits op)
    (hexact : config.enableStats = true → x.2.manager.Exact op) :
    ∃ w out bs', x.2.step op = some (w, out) ∧
      PoolInv config (⟨x.2, op, out, w⟩ :: x.1, w) bs' := by
  cases op with
  | alloc size file line => exact h.alloc hfits hexact
  | free ptr => exact h.free hlegal hfits
  | write addr byte => exact h.write hlegal
  | realloc ptr size file line | defragment => exact hplain.elim

end PoolInv

/-- **The pools and the usage.** In every run in which every call meets its condition, and with
statistics counts what will be given back: the pools' lists are right, every pointer goes back to
its pool, and the usage is 0 when nothing is live. -/
theorem pools_kept {config : MemConfig} {mem : Mem} {heap : Nat} {malloc : Nat → Nat × Bool}
    {s : MemoryManager} (hinit : MemoryManager.init config mem heap malloc = some s)
    (hsize : config.heapSize < 4294967296)
    (hend : heap + config.heapSize ≤ 18446744073709551616) (hplaced : s.Placed) (ops : List MemOp)
    (hops : Along World.step (fun w op => w.Legal op ∧ op.Plain ∧ w.manager.Fits op ∧
      (config.enableStats = true → w.manager.Exact op)) ⟨s, []⟩ ops) :
    Throughout (logged World.step) PoolsKept ([], ⟨s, []⟩) ops := by
  obtain ⟨hgood, -, hconfig, -⟩ := MemoryManager.init_good hinit hsize hend hplaced
  have husage : s.stats.currentUsage = 0 := by
    unfold MemoryManager.init at hinit
    split at hinit
    · cases hinit
    · cases hinit
      rfl
  have hstart : PoolInv config ([], ⟨s, []⟩) [⟨heap, config.heapSize - 52, false⟩] := by
    refine ⟨hconfig, ⟨hgood, fun _ => nofun, nodup_nil⟩,
      ⟨fun _ => husage, fun _ _ => nofun, fun _ => husage⟩, trivial, fun _ => nofun⟩
  refine throughout_of_along (fun x => ∃ bs, PoolInv config x bs) (fun _ ⟨_, h⟩ => h.kept) ?_ ops
    ⟨_, hstart⟩ (along_logged (x := (([], ⟨s, []⟩) : List PoolEntry × World)) hops)
  rintro x op ⟨bs, h⟩ ⟨hlegal, hplain, hfits, hexact⟩
  obtain ⟨w, out, bs', hstep, hnext⟩ := h.step hlegal hplain hfits hexact
  exact ⟨_, out, logged_eq hstep, bs', hnext⟩

/-- A slot that is filled and a block that is cut to size. -/
theorem pools_kept_exact : ∃ s,
    MemoryManager.init { heapAndPool with enableStats := true } (fun _ => 0) 4096
      (fun _ => (8192, true)) = some s ∧
    Throughout (logged World.step) PoolsKept ([], ⟨s, []⟩)
      [.alloc 48 0 0, .write 8340 7, .alloc 60 0 0, .free 8340, .free 4144] := by
  have hinit : MemoryManager.init { heapAndPool with enableStats := true } (fun _ => 0) 4096
    (fun _ => (8192, true)) = some _ := rfl
  exact ⟨_, hinit, pools_kept hinit (by decide) (by decide) (heapAndPool_placed hinit) _
    (by decide +kernel)⟩

/-! ## What goes wrong -/

def freeCounts (w : World) : List Nat := w.manager.pools.map MemoryPool.freeBlocks

/-- A pool of one slot of 120 bytes, and below it in memory another, of one slot of 100 bytes. -/
def twoPools : MemConfig := ⟨256, some [(120, 1), (100, 1)], true, true⟩

def twoPoolsMalloc (i : Nat) : Nat × Bool := if i = 0 then (8192, true) else (8080, true)

/-- **The usage wraps, and a slot goes back to another pool.** A request of 8 bytes is counted as
8, and as 48 when it is given back. A slot just below the memory of the first pool has index 0
there, since the division truncates. -/
theorem usage_wraps_and_slot_misplaced :
    (∃ s, MemoryManager.init { heapAndPool with enableStats := true } (fun _ => 0) 4096
        (fun _ => (8192, true)) = some s ∧
      (run World.step ⟨s, []⟩ [.alloc 8 0 0, .free 8340]).map
        (fun r => (r.1.live, r.1.manager.stats.currentUsage)) = some ([], 4294967256) ∧
      ¬ Throughout (logged World.step) PoolsKept ([], ⟨s, []⟩) [.alloc 8 0 0, .free 8340]) ∧
    (∃ s, MemoryManager.init twoPools (fun _ => 0) 4096 twoPoolsMalloc = some s ∧
      (run World.step ⟨s, []⟩ [.alloc 8 0 0, .alloc 8 0 0, .free 8128]).map
        (fun r => (r.2, freeCounts r.1)) = some ([8240, 8128, 0], [1, 0]) ∧
      ¬ Throughout (logged World.step) PoolsKept ([], ⟨s, []⟩)
        [.alloc 8 0 0, .alloc 8 0 0, .free 8128]) := by
  constructor
  · refine ⟨_, rfl, by decide +kernel, fun h => ?_⟩
    obtain ⟨stats, fragmentation, hreport, hzero⟩ := (h.last rfl).usage rfl
    cases hreport
    exact absurd hzero (by decide +kernel)
  · refine ⟨_, rfl, by decide +kernel, fun h => ?_⟩
    obtain ⟨pool, k, hi, -, -, hpools⟩ := (h.last rfl).home.1 8128 1 rfl
      ⟨_, .head _, ⟨8, 0, 0, rfl⟩, rfl, _, _, rfl, rfl, rfl⟩
    cases hi
    have hcounts : [1, 0] = [0, 1] := congrArg (List.map MemoryPool.freeBlocks) hpools
    cases hcounts

end Cant.Memory
