/-
# `Aligned` — `Memory_AllocAligned`, and giving it back

`Memory_AllocAligned` asks `Memory_Alloc` for `alignment + 8` bytes more than it needs and
answers an address further up, with a pointer to the block's data just below it.

The answer is a multiple of the alignment, and while addresses stay below 2^32 it has
its bytes inside the block (`alignAddress_bounds`). Above, it never has: the mask is a
`uint32_t` and cuts the address to 32 bits (`alignAddress_lt`).

`Memory_Free` does not look at the pointer below. When they pass for one is said by
`PassesForSlot`: the block is a slot of a pool, the word that is read as the flags has the pool bit,
the one that is read as the size is the size counted, and no other pool claims the address. Then,
and apart from blocks at an address that ends in the guard pattern only then, the pointer can be
given back (`allocAligned_served_iff`).
-/
import Cant.Memory.Allocation
import Cant.Memory.Usage

namespace Cant.Memory

open Run Word List Mem

namespace MemoryManager

variable {s t u v : MemoryManager} {bs : List Blk} {b : Blk} {pool : MemoryPool}
  {i k n raw a : Nat}

/-! ## The address -/

theorem alignAddress_eq (raw : Nat) (hn : n < 32) :
    alignAddress raw (2 ^ n) = u64 (raw + 2 ^ n + 7 : Nat) % 2 ^ 32 / 2 ^ n * 2 ^ n := by
  have hpos : 0 < 2 ^ n := Nat.two_pow_pos n
  have hlt : 2 ^ n < 2 ^ 32 := Nat.pow_lt_pow_right (by decide) hn
  have hsum : ((raw : Int) + 8 + (2 ^ n : Nat) - 1) = ((raw + 2 ^ n + 7 : Nat) : Int) := by omega
  have hmask : u32 (-1 - (((2 ^ n : Nat) : Int) - 1)) = 2 ^ 32 - 2 ^ n := by
    unfold u32
    omega
  rw [alignAddress, hsum, hmask, and_mask _ hn.le]

theorem dvd_alignAddress (raw : Nat) (hn : n < 32) : 2 ^ n ∣ alignAddress raw (2 ^ n) := by
  rw [alignAddress_eq raw hn]
  exact Nat.dvd_mul_left _ _

/-- Below 2^32 there is room for the pointer below the answer, and the answer is at most
`alignment + 7` bytes up. -/
theorem alignAddress_bounds (hn : n < 32) (hlow : raw + 2 ^ n + 7 < 4294967296) :
    raw + 8 ≤ alignAddress raw (2 ^ n) ∧ alignAddress raw (2 ^ n) ≤ raw + 2 ^ n + 7 := by
  have hcut : u64 (raw + 2 ^ n + 7 : Nat) % 2 ^ 32 = raw + 2 ^ n + 7 := by
    rw [u64_of_lt (by omega)]
    exact Nat.mod_eq_of_lt hlow
  have hle := Nat.div_mul_le_self (raw + 2 ^ n + 7) (2 ^ n)
  have hlt := Nat.lt_div_mul_add (a := raw + 2 ^ n + 7) (Nat.two_pow_pos n)
  rw [alignAddress_eq raw hn, hcut]
  omega

theorem alignAddress_lt (hn : n < 32) (hhigh : 4294967296 ≤ raw + 2 ^ n + 7) :
    alignAddress raw (2 ^ n) < raw := by
  have hpow : 2 ^ n ≤ 2 ^ 31 := Nat.pow_le_pow_right (by decide) (Nat.le_of_lt_succ hn)
  have hle := Nat.div_mul_le_self (u64 (raw + 2 ^ n + 7 : Nat) % 2 ^ 32) (2 ^ n)
  have hcut : u64 (raw + 2 ^ n + 7 : Nat) % 2 ^ 32 < raw := by
    unfold u64
    omega
  rw [alignAddress_eq raw hn]
  exact hle.trans_lt hcut

/-! ## What `Memory_Free` makes of it -/

def FreeResult.Accepted (r : FreeResult) : Prop := r = .freed ∨ r = .pooled

theorem freeBlock_refused (h : ¬ (s.isValidBlock a = true ∧ s.checkBlockGuards a = true)) :
    ¬ (s.freeBlock a).2.Accepted := by
  unfold freeBlock
  split
  · exact nofun
  next hvalid =>
  split
  · exact nofun
  split
  · exact nofun
  next hguards =>
  exact absurd ⟨not_not.mp hvalid, not_not.mp hguards⟩ h

theorem free_accepted {r : FreeResult} (hrefused : ¬ (s.freeBlock a).2.Accepted)
    (h : s.free (a + 48) = some (t, r)) (hr : r.Accepted) :
    blkPooled s.mem a = true ∧ ∃ pools, freeToPools (a + 48) s.pools = some (some pools) ∧
      t = ({ s with pools := pools }).record (·.freed (blkSize s.mem a)) := by
  have hcases := free_cases h
  rw [Nat.add_sub_cancel] at hcases
  rcases hcases with ⟨-, -, rfl⟩ | ⟨hpooled, -, hpools⟩ | ⟨-, hblock⟩
  · exact absurd hr nofun
  · exact ⟨hpooled, hpools⟩
  · rw [hblock] at hrefused
    exact absurd hr hrefused

theorem free_refused {r : FreeResult} (hinit : s.initialized = true)
    (hpooled : blkPooled s.mem a = true) (h : s.free (a + 48) = some (t, r)) (hr : ¬ r.Accepted) :
    ∀ q ∈ s.pools, q.Rejects a := by
  have hcases := free_cases h
  rcases hcases with ⟨hignored, -⟩ | ⟨-, rfl, -⟩ | ⟨hloop, -⟩
  · rcases hignored with hf | h0
    · cases hf.symm.trans hinit
    · exact absurd h0 (Nat.succ_ne_zero _)
  · exact absurd (.inr rfl) hr
  · exact freeToPools_none_iff.mp (hloop hpooled)

theorem Good.not_valid (h : Good s bs) (hi : s.pools[i]? = some pool) (hfits : pool.Fits k)
    (ha : pool.Within k a) : ¬ s.isValidBlock a = true := by
  intro hvalid
  obtain ⟨-, hlo, hhi, -⟩ := of_decide_eq_true hvalid
  have hout := h.slot_outside hi hfits
  have hstop := hfits.bounds.2.1
  obtain ⟨ha, ha'⟩ := ha
  omega

/-! ## Given back once -/

/-- `Memory_Free(ptr)` takes `b` back: nobody holds it any more, all of it is available,
and the usage is what it was in `s`. A second `Memory_Free(ptr)` is refused. -/
def GivenBackOnce (s t : MemoryManager) (b : Blk) (ptr : Nat) : Prop :=
  ∃ u r bs v r', t.free ptr = some (u, r) ∧ r.Accepted ∧ u.blocks = some bs ∧ ¬ u.Used bs b ∧
    u.Available bs b ∧ u.stats.currentUsage = s.stats.currentUsage ∧
    u.free ptr = some (v, r') ∧ ¬ r'.Accepted

/-- What stands at `a` passes for the header of the slot `b` with `size` bytes, and no other
pool claims it. -/
def PassesForSlot (t : MemoryManager) (b : Blk) (a size : Nat) : Prop :=
  blkPooled t.mem a = true ∧ (t.config.enableStats = true → blkSize t.mem a = size) ∧
    ∃ (i : Nat) (pool : MemoryPool) (k : Nat), t.pools[i]? = some pool ∧
      pool.blockUsed[k]? = some true ∧ b = pool.blk k ∧
      ∀ (j : Nat) (q : MemoryPool), t.pools[j]? = some q → j ≠ i → q.Rejects a

theorem usage_back_iff {size m : Nat} {pools : List MemoryPool} (hs : Counted s)
    (hconfig : t.config = s.config) (hstats : t.stats = (s.record (·.allocated size true)).stats)
    (hsize : size < 4294967296) (hm : m < 4294967296) :
    (({ t with pools := pools }).record (·.freed m)).stats.currentUsage = s.stats.currentUsage ↔
      (t.config.enableStats = true → m = size) := by
  rw [record_stats, hstats, record_stats, hconfig]
  unfold Counted at hs
  cases s.config.enableStats with
  | false => exact ⟨fun _ => nofun, fun _ => rfl⟩
  | true =>
    show u32 ((u32 (s.stats.currentUsage + size) : Int) - m) = s.stats.currentUsage ↔ _
    unfold u32
    constructor
    · omega
    · intro hm
      have := hm rfl
      omega

section Slot

variable {size : Nat} (h : Good t bs) (hi : t.pools[i]? = some pool)
  (hk : pool.blockUsed[k]? = some true) (ha : pool.Within k a) (hs : Counted s)
  (hconfig : t.config = s.config) (hstats : t.stats = (s.record (·.allocated size true)).stats)
  (hsize : size < 4294967296)

include h hi hk ha hs hconfig hstats hsize

theorem Good.givenBackOnce (hpooled : blkPooled t.mem a = true)
    (hcount : t.config.enableStats = true → blkSize t.mem a = size)
    (hrejects : ∀ (j : Nat) (q : MemoryPool), t.pools[j]? = some q → j ≠ i → q.Rejects a) :
    GivenBackOnce s t (pool.blk k) (a + 48) := by
  have hfits := h.pools.fits hi hk
  obtain ⟨hfree, hgood, -, hgone, havailable⟩ := h.takeBack hi hk ha hpooled fun q hq => by
    obtain ⟨j, hj⟩ := mem_iff_getElem?.mp hq
    rw [getElem?_take] at hj
    split at hj
    · next hlt => exact hrejects j q hj hlt.ne
    · cases hj
  have hput : (t.takeBack i pool k a).pools[i]? = some (pool.putBack k) := by
    rw [takeBack_pools]
    exact List.getElem?_set_self (List.getElem?_eq_some_iff.mp hi).1
  -- no pool takes it a second time, its own because the slot is not in use any more
  have hagain : freeToPools (a + 48) (t.takeBack i pool k a).pools = some none := by
    refine freeToPools_none_iff.mpr fun q hq => ?_
    rw [takeBack_pools] at hq
    obtain ⟨j, hj⟩ := mem_iff_getElem?.mp hq
    by_cases hji : j = i
    · rw [hji, List.getElem?_set_self (List.getElem?_eq_some_iff.mp hi).1] at hj
      cases hj
      have hindex : (pool.putBack k).blockIndex a = k := MemoryPool.blockIndex_of_within hfits ha
      refine ⟨Nat.ne_of_gt (Nat.lt_of_lt_of_le (by decide) hfits.1), .inr ?_⟩
      rw [hindex]
      exact List.getElem?_set_self (List.getElem?_eq_some_iff.mp hk).1
    · rw [getElem?_set_ne (Ne.symm hji)] at hj
      exact hrejects j q hj hji
  have hinvalid := hgood.not_valid (k := k) hput hfits ha
  have hpooled' : blkPooled (t.takeBack i pool k a).mem a = true := by
    rw [takeBack_mem]
    exact hpooled
  have hsecond : (t.takeBack i pool k a).free (a + 48) =
      some (((t.takeBack i pool k a).freeBlock a).1, ((t.takeBack i pool k a).freeBlock a).2) := by
    unfold MemoryManager.free
    rw [if_neg (by rintro (h' | h'); exacts [h' hgood.initialized, by omega]), Nat.add_sub_cancel,
      if_pos hpooled', hagain]
    rfl
  exact ⟨_, _, bs, _, _, hfree, .inr rfl, hgood.rep.blocks, fun hb => hgone _ hb rfl, havailable,
    (usage_back_iff hs hconfig hstats hsize (rd_lt _ _ 4)).mpr hcount, hsecond,
    freeBlock_refused fun hb => hinvalid hb.1⟩

theorem Good.passesForSlot (hback : GivenBackOnce s t (pool.blk k) (a + 48)) :
    PassesForSlot t (pool.blk k) a size := by
  have hfits := h.pools.fits hi hk
  obtain ⟨u, r, bs', v, r', hfree, hr, hblocks, hgone, -, husage, hagain, hr'⟩ := hback
  obtain ⟨hpooled, pools, hloop, rfl⟩ :=
    free_accepted (freeBlock_refused fun hb => h.not_valid hi hfits ha hb.1) hfree hr
  obtain ⟨hstatic, -, -, hmem⟩ :=
    record_static { t with pools := pools } (·.freed (blkSize t.mem a))
  obtain ⟨j, taker, taker', hj, -, -, rfl⟩ := freeToPools_some hloop
  -- the pool that took it is the slot's own, or the slot would still be in use
  have hji : j = i := by
    by_contra hne
    refine hgone (.inr ⟨i, pool, k, ?_, hk, rfl⟩)
    rw [hstatic.pools, getElem?_set_ne hne]
    exact hi
  refine ⟨hpooled, (usage_back_iff hs hconfig hstats hsize (rd_lt _ _ 4)).mp husage,
    i, pool, k, hi, hk, rfl, fun l q hl hne => ?_⟩
  refine free_refused (hstatic.initialized.trans h.initialized) ?_ hagain hr' q ?_
  · rw [hmem]
    exact hpooled
  · rw [hstatic.pools, hji]
    exact mem_of_getElem? ((getElem?_set_ne (Ne.symm hne)).trans hl)

end Slot

theorem Good.not_givenBackOnce (h : Good t bs) (hb : b ∈ bs) (hu : b.used = true)
    (hguard : t.mem.rd (a + 40) 4 ≠ guardPattern) : ¬ GivenBackOnce s t b (a + 48) := by
  rintro ⟨u, r, bs', v, r', hfree, hr, hblocks, hgone, -⟩
  obtain ⟨-, pools, -, rfl⟩ := free_accepted
    (freeBlock_refused fun hb => hguard (of_decide_eq_true hb.2).2.2.1) hfree hr
  obtain ⟨-, hfirst, -, hmem⟩ := record_static { t with pools := pools } (·.freed (blkSize t.mem a))
  have hsame : bs' = bs := by
    rw [MemoryManager.blocks, hfirst, hmem] at hblocks
    exact Option.mem_unique hblocks h.rep.blocks
  rw [hsame] at hgone
  exact hgone (.inl ⟨hb, hu⟩)

theorem Allocated.stats {bs' : List Blk} {size file line ptr : Nat}
    (h : Allocated s t bs bs' b size) (heq : s.alloc size file line = some (t, ptr))
    (hin : t.InPool b) : t.stats = (s.record (·.allocated size true)).stats := by
  have hsame : t.pools = s.pools → False := fun hpools => by
    unfold InPool at hin
    rw [hpools] at hin
    exact h.fresh b (.inr hin) rfl
  rcases alloc_stats heq with rfl | ⟨-, hstats⟩ | ⟨-, hpools⟩
  · exact absurd rfl hsame
  · exact hstats
  · exact absurd hpools hsame

end MemoryManager

open MemoryManager

/-! ## What `Memory_AllocAligned` answers -/

/-- The answer `ptr` of `Memory_AllocAligned` is what was asked for: `s` is the manager
before the call, `t` the one after it, and `b` the block that `Memory_Alloc` found. -/
structure Served (s t : MemoryManager) (b : Blk) (ptr size alignment : Nat) : Prop where
  multiple : alignment ∣ ptr
  inside : b.addr + 48 ≤ ptr ∧ ptr + size ≤ b.addr + 48 + b.size
  once : GivenBackOnce s t b ptr

/-- When it is: addresses stay below 2^32, and `Memory_Free` finds a header where it looks
for one. -/
def FindsHeader (t : MemoryManager) (b : Blk) (ptr size alignment : Nat) : Prop :=
  b.addr + 48 + alignment + 7 < 4294967296 ∧
    PassesForSlot t b (ptr - 48) (size + alignment + 8)

theorem rd_guard (m : Mem) (a raw : Nat) : (m.wr a 8 raw).rd a 4 = raw % 4294967296 := by
  have hsame : (m.wr a 8 raw).rd a 4 = (m.wr a 4 raw).rd a 4 := rd_congr fun x hx hx' => by
    rw [Mem.wr, Mem.wr, if_pos ⟨hx, by omega⟩, if_pos ⟨hx, hx'⟩]
  exact hsame.trans (rd_wr_self m a 4 raw)

/-- The manager after `Memory_AllocAligned` has answered an address in the block whose data
begins at `raw`. -/
def noted (t : MemoryManager) (raw ptr : Nat) : MemoryManager :=
  { t with mem := t.mem.wr (u64 ((ptr : Int) - 8)) 8 raw }

theorem allocAligned_eq {s t : MemoryManager} {size n raw file line : Nat}
    (hinit : s.initialized = true) (hsize : size ≠ 0) (htotal : size + 2 ^ n + 8 < 4294967296)
    (halloc : s.alloc (size + 2 ^ n + 8) file line = some (t, raw)) :
    s.allocAligned size (2 ^ n) file line = some (if raw = 0 then (t, 0) else
      (noted t raw (alignAddress raw (2 ^ n)), alignAddress raw (2 ^ n))) := by
  have hpos : 2 ^ n ≠ 0 := Nat.ne_of_gt (Nat.two_pow_pos n)
  have hpower : 2 ^ n &&& (2 ^ n - 1) = 0 := by
    rw [Nat.and_two_pow_sub_one_eq_mod, Nat.mod_self]
  have hcut : u32 ((size : Int) + (2 ^ n : Nat) + 8) = size + 2 ^ n + 8 :=
    u32_of_lt (n := size + 2 ^ n + 8) htotal
  unfold allocAligned
  rw [if_neg (by rintro (h | h | h); exacts [h hinit, hsize h, hpos h]),
    if_neg (not_not.mpr hpower), hcut, halloc]
  simp only [Option.bind_eq_bind, Option.bind_some]
  split
  · rfl
  · rfl

section Call

variable {s t : MemoryManager} {bs bs' : List Blk} {b : Blk} {size n file line ptr : Nat}

theorem alignAddress_inside (hn : n < 32) (hfits : size + 2 ^ n + 8 ≤ b.size)
    (hlow : b.addr + 48 + 2 ^ n + 7 < 4294967296)
    (hptr : ptr = alignAddress (b.addr + 48) (2 ^ n)) :
    b.addr + 56 ≤ ptr ∧ ptr + size ≤ b.addr + 48 + b.size := by
  have hbounds := alignAddress_bounds hn hlow
  omega

theorem MemoryManager.Good.noted (h : Good t bs) (hb : t.Used bs b) (hlo : b.addr + 56 ≤ ptr)
    (hhi : ptr + size ≤ b.addr + 48 + b.size) (hlow : ptr < 4294967296) :
    Good (noted t (b.addr + 48) ptr) bs ∧
      (noted t (b.addr + 48) ptr).mem.rd (ptr - 8) 4 = (b.addr + 48) % 4294967296 := by
  have hword : u64 ((ptr : Int) - 8) = ptr - 8 := by
    unfold u64
    omega
  unfold Cant.Memory.noted
  rw [hword]
  refine ⟨(h.setMem hb fun x hx => wr_of_not (by omega)).1, rd_guard _ _ _⟩

theorem within_slot {pool : MemoryPool} {k : Nat} (hfits : pool.Fits k)
    (hlo : (pool.blk k).addr + 56 ≤ ptr)
    (hhi : ptr + size ≤ (pool.blk k).addr + 48 + (pool.blk k).size) :
    pool.Within k (ptr - 48) := by
  have hstop : (pool.blk k).stop = (pool.blk k).addr + 52 + (pool.blk k).size := rfl
  have hbounds := hfits.bounds.2.1
  constructor
  · omega
  · omega

variable (hs : s.Counted) (hn : n < 32) (htotal : size + 2 ^ n + 8 < 4294967296)
  (halloc : s.alloc (size + 2 ^ n + 8) file line = some (t, b.addr + 48))
  (hnew : Allocated s t bs bs' b (size + 2 ^ n + 8))
  (hptr : ptr = alignAddress (b.addr + 48) (2 ^ n))

include hs hn htotal halloc hnew hptr

theorem served_of_findsHeader
    (hfinds : FindsHeader (noted t (b.addr + 48) ptr) b ptr size (2 ^ n)) :
    Served s (noted t (b.addr + 48) ptr) b ptr size (2 ^ n) := by
  obtain ⟨hlow, hpooled, hcount, i, pool, k, hi, hk, rfl, hrejects⟩ := hfinds
  obtain ⟨hlo, hhi⟩ := alignAddress_inside hn hnew.fits hlow hptr
  obtain ⟨hgood, -⟩ := hnew.good.noted hnew.used hlo hhi
    (by have := alignAddress_bounds hn hlow; omega)
  refine ⟨hptr ▸ dvd_alignAddress _ hn, ⟨by omega, hhi⟩, ?_⟩
  have hback := hgood.givenBackOnce hi hk (within_slot (hgood.pools.fits hi hk) hlo hhi) hs
    hnew.change.config (hnew.stats halloc ⟨i, pool, k, hi, hk, rfl⟩) htotal hpooled hcount hrejects
  rwa [Nat.sub_add_cancel (by omega)] at hback

theorem findsHeader_of_served (hguard : (b.addr + 48) % 4294967296 ≠ guardPattern)
    (hserved : Served s (noted t (b.addr + 48) ptr) b ptr size (2 ^ n)) :
    FindsHeader (noted t (b.addr + 48) ptr) b ptr size (2 ^ n) := by
  have hlow : b.addr + 48 + 2 ^ n + 7 < 4294967296 := by
    by_contra hhigh
    have hbelow := alignAddress_lt hn (Nat.le_of_not_lt hhigh)
    have habove := hserved.inside.1
    omega
  obtain ⟨hlo, hhi⟩ := alignAddress_inside hn hnew.fits hlow hptr
  obtain ⟨hgood, hword⟩ := hnew.good.noted hnew.used hlo hhi
    (by have := alignAddress_bounds hn hlow; omega)
  have hback : GivenBackOnce s (noted t (b.addr + 48) ptr) b (ptr - 48 + 48) := by
    rw [Nat.sub_add_cancel (by omega)]
    exact hserved.once
  refine ⟨hlow, ?_⟩
  rcases hnew.used with ⟨hb, hu⟩ | ⟨i, pool, k, hi, hk, rfl⟩
  · refine absurd hback (hgood.not_givenBackOnce hb hu fun hfront => hguard ?_)
    rw [← hword, ← hfront, show ptr - 48 + 40 = ptr - 8 by omega]
  · exact hgood.passesForSlot hi hk (within_slot (hgood.pools.fits hi hk) hlo hhi) hs
      hnew.change.config (hnew.stats halloc ⟨i, pool, k, hi, hk, rfl⟩) htotal hback

end Call

/-- **`Memory_AllocAligned`, and when its answer can be given back.** Under the contract, and for a
power of two and a size whose sum does not wrap, a non-NULL answer is a multiple of the alignment,
and below 2^32 has its bytes inside the block. It is given back exactly once if a header happens to
stand below it (`FindsHeader`), and unless the address of the block's data ends in the guard
pattern, only then. -/
theorem allocAligned_served_iff {config : MemConfig} {mem : Mem} {heap : Nat}
    {malloc : Nat → Nat × Bool} {s : MemoryManager}
    (hinit : MemoryManager.init config mem heap malloc = some s)
    (hheap : config.heapSize < 4294967296)
    (hend : heap + config.heapSize ≤ 18446744073709551616) (hplaced : s.Placed) (ops : List MemOp)
    (hops : Along World.step (fun w op => w.Legal op ∧ w.manager.Fits op) ⟨s, []⟩ ops) :
    ∃ w outs, run World.step ⟨s, []⟩ ops = some (w, outs) ∧
      ∀ size n file line, size + 2 ^ n + 8 < 4294967296 →
        w.manager.AllocFits (size + 2 ^ n + 8) →
        ∃ t ptr, w.manager.allocAligned size (2 ^ n) file line = some (t, ptr) ∧
          (ptr ≠ 0 → ∃ t₀ bs b,
            w.manager.alloc (size + 2 ^ n + 8) file line = some (t₀, b.addr + 48) ∧
            t₀.blocks = some bs ∧ t₀.Used bs b ∧ 2 ^ n ∣ ptr ∧
            (b.addr + 48 + 2 ^ n + 7 < 4294967296 →
              b.addr + 48 ≤ ptr ∧ ptr + size ≤ b.addr + 48 + b.size) ∧
            (FindsHeader t b ptr size (2 ^ n) → Served w.manager t b ptr size (2 ^ n)) ∧
            ((b.addr + 48) % 4294967296 ≠ guardPattern →
              Served w.manager t b ptr size (2 ^ n) → FindsHeader t b ptr size (2 ^ n))) := by
  obtain ⟨w, outs, hrun, bs, hw⟩ := sound_of_run hinit hheap hend hplaced ops hops
  have hs := counted_of_run hinit hrun
  refine ⟨w, outs, hrun, fun size n file line htotal hfits => ?_⟩
  by_cases hsize : size = 0
  · exact ⟨w.manager, 0, if_pos (.inr (.inl hsize)), fun h0 => absurd rfl h0⟩
  have hn : n < 32 := by
    by_contra hge
    have hpow : 2 ^ 32 ≤ 2 ^ n := Nat.pow_le_pow_right (by decide) (Nat.le_of_not_lt hge)
    omega
  obtain ⟨t, raw, halloc, hcase⟩ := hw.good.alloc hfits file line
  rw [allocAligned_eq hw.good.initialized hsize htotal halloc]
  rcases hcase with ⟨rfl, -⟩ | ⟨bs', b, hnew, rfl, -⟩
  · exact ⟨t, 0, by rw [if_pos rfl], fun h0 => absurd rfl h0⟩
  · refine ⟨_, _, by rw [if_neg (Nat.succ_ne_zero (b.addr + 47))], fun _ => ?_⟩
    refine ⟨t, bs', b, halloc, hnew.good.rep.blocks, hnew.used, dvd_alignAddress _ hn,
      fun hlow => ?_, served_of_findsHeader hs hn htotal halloc hnew rfl,
      findsHeader_of_served hs hn htotal halloc hnew rfl⟩
    obtain ⟨hlo, hhi⟩ := alignAddress_inside hn hnew.fits hlow rfl
    exact ⟨by omega, hhi⟩

def countedHeapAndPool : MemConfig := { heapAndPool with enableStats := true }

def secondTaken : MemoryPool := ⟨8192, 100, 2, 1, [0, 1], [false, true]⟩

/-- The pointer to the file's name is 0x200000014: the header of the slot is
misread eight bytes further up, as one of a pool with 20 bytes. -/
theorem allocAligned_served_slot : ∃ s w outs t b,
    MemoryManager.init countedHeapAndPool (fun _ => 0) 4096 (fun _ => (8192, true)) = some s ∧
    run World.step ⟨s, []⟩ [.alloc 60 0 0] = some (w, outs) ∧
    w.manager.allocAligned 8 4 8589934612 0 = some (t, 8348) ∧
    Served w.manager t b 8348 8 4 := by
  have hinit : MemoryManager.init countedHeapAndPool (fun _ => 0) 4096
      (fun _ => (8192, true)) = some _ := rfl
  obtain ⟨w, outs, hrun, hcall⟩ := allocAligned_served_iff hinit (by decide) (by decide)
    (heapAndPool_placed hinit) [.alloc 60 0 0] (by decide +kernel)
  cases hrun
  obtain ⟨t, ptr, heq, hanswer⟩ := hcall 8 2 8589934612 0 (by decide) (by decide +kernel)
  cases heq
  obtain ⟨t₀, bs, b, halloc, hblocks, hused, -, -, hserved, -⟩ := hanswer (by decide)
  obtain ⟨rfl, haddr⟩ := Prod.mk.inj (Option.some.inj halloc)
  have hraw : 8340 = b.addr + 48 := haddr
  cases hblocks
  have hb : b = secondTaken.blk 1 := by
    rcases hused with ⟨hmem, -⟩ | ⟨i, pool, k, hi, hk, rfl⟩
    · rcases mem_pair.mp hmem with rfl | rfl
      · cases hraw
      · cases hraw
    · match i, hi with
      | 0, rfl =>
        match k, hk with
        | 1, _ => rfl
  refine ⟨_, _, _, _, b, hinit, rfl, rfl, hserved ⟨by rw [← hraw]; decide, by decide +kernel,
    fun _ => by decide +kernel, 0, secondTaken, 1, rfl, rfl, hb, fun j q hj hne => ?_⟩⟩
  cases j with
  | zero => exact absurd rfl hne
  | succ j => cases hj

/-- **The answer of `Memory_AllocAligned` cannot be given back.** From a fresh heap 8 bytes are
answered with 4152, where the block's data begins at 4144; `Memory_Free(4152)` reads a NULL `file`
as the size and the flags of a block, and refuses it. -/
theorem aligned_never_given_back : ∃ s t,
    MemoryManager.init { heap256 with enableStats := true } (fun _ => 0) 4096
      (fun _ => (0, false)) = some s ∧
    s.stats.currentUsage = 0 ∧ s.allocAligned 8 8 0 0 = some (t, 4152) ∧
    (t.free 4152).map (fun r => (r.1.stats.currentUsage, r.2)) = some (24, .invalid) ∧
    ∀ b, ¬ Served s t b 4152 8 8 := by
  refine ⟨_, _, rfl, rfl, rfl, by decide +kernel, fun b hserved => ?_⟩
  obtain ⟨u, r, bs, v, r', hback, hr, -⟩ := hserved.once
  cases hback
  exact absurd hr nofun

end Cant.Memory
