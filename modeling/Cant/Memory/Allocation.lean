/-
# `Allocation` — what `Memory_Alloc` hands out

Along a run in which the clients keep their side of the contract and every call
meets its condition (`Fits`), the manager's invariant holds and every live pointer
is the data of a used block (`Sound`). So a non-NULL answer of `Memory_Alloc` is
room for the bytes asked for, in the heap or in one slot of a pool, apart from every
other live allocation and from every header and footer
(`alloc_designates`).
-/
import Cant.Memory.Client
import Cant.Memory.Invariant

namespace Cant.Memory

open Run Word List Mem

def MemoryManager.Fits (s : MemoryManager) : MemOp → Prop
  | .alloc size _ _ => s.AllocFits size
  | .free ptr => ptr ≠ 0 → s.FreeFits ptr
  | .realloc ptr size _ _ => s.ReallocFits ptr size
  | _ => True

def MemoryManager.Strictly (s : MemoryManager) : MemOp → Prop
  | .alloc size _ _ => s.AllocStrict size
  | .realloc ptr size _ _ => s.ReallocStrict ptr size
  | _ => True

instance (s : MemoryManager) : ∀ op, Decidable (s.Fits op)
  | .alloc .. | .free _ | .realloc .. | .defragment | .write .. => by
    unfold MemoryManager.Fits
    infer_instance

instance (s : MemoryManager) : ∀ op, Decidable (s.Strictly op)
  | .alloc .. | .free _ | .realloc .. | .defragment | .write .. => by
    unfold MemoryManager.Strictly
    infer_instance

namespace World

open MemoryManager

def Backed (s : MemoryManager) (bs : List Blk) (l : Live) : Prop :=
  ∃ b, Used s bs b ∧ l.ptr = b.addr + 48 ∧ l.size ≤ b.size

/-- The manager is in order, and so are its clients. -/
structure Sound (w : World) (bs : List Blk) : Prop where
  good : Good w.manager bs
  backed : ∀ l ∈ w.live, Backed w.manager bs l
  distinct : (w.live.map Live.ptr).Nodup

variable {w : World} {bs bs' : List Blk} {t : MemoryManager} {live : List Live}

theorem Sound.keep (h : w.Sound bs) (hgood : Good t bs') (hsub : live.Sublist w.live)
    (hkeep : ∀ l ∈ live, ∀ b, Used w.manager bs b → l.ptr = b.addr + 48 → Used t bs' b) :
    Sound ⟨t, live⟩ bs' where
  good := hgood
  backed l hl := by
    obtain ⟨b, hb, hptr, hsize⟩ := h.backed l (hsub.subset hl)
    exact ⟨b, hkeep l hl b hb hptr, hptr, hsize⟩
  distinct := h.distinct.sublist (hsub.map _)

variable {ptr size : Nat} {b : Blk}

theorem Sound.cons (h : Sound ⟨t, live⟩ bs') (hb : Used t bs' b) (hsize : size ≤ b.size)
    (hfresh : ∀ l ∈ live, l.ptr ≠ b.addr + 48) :
    Sound ⟨t, ⟨b.addr + 48, size⟩ :: live⟩ bs' where
  good := h.good
  backed l hl := by
    rcases mem_cons.mp hl with rfl | hl
    · exact ⟨b, hb, rfl, hsize⟩
    · exact h.backed l hl
  distinct := by
    refine nodup_cons.mpr ⟨fun hmem => ?_, h.distinct⟩
    obtain ⟨l, hl, hptr⟩ := mem_map.mp hmem
    exact hfresh l hl hptr

theorem Sound.head_fresh {l : Live} (h : Sound ⟨t, l :: live⟩ bs') :
    ∀ l' ∈ live, l' ∈ l :: live ∧ l'.ptr ≠ l.ptr := by
  intro l' hl'
  refine ⟨mem_cons_of_mem l hl', fun heq => ?_⟩
  exact (nodup_cons.mp h.distinct).1 (mem_map.mpr ⟨l', hl', heq⟩)

theorem without_sublist (live : List Live) (ptr : Nat) : (without live ptr).Sublist live :=
  filter_sublist

theorem ptr_ne_of_mem_without {l : Live} (h : l ∈ without live ptr) : l.ptr ≠ ptr :=
  of_decide_eq_true (mem_filter.mp h).2

section

variable (h : w.Sound bs)
include h

theorem Sound.without_null : without w.live 0 = w.live := by
  refine filter_eq_self.mpr fun l hl => decide_eq_true ?_
  obtain ⟨b, -, hptr, -⟩ := h.backed l hl
  omega

theorem Sound.handed (hhanded : Handed w.manager t bs bs' b size) :
    Sound ⟨t, ⟨b.addr + 48, size⟩ :: w.live⟩ bs' := by
  have hkept : Sound ⟨t, w.live⟩ bs' := h.keep hhanded.good (List.Sublist.refl _)
    fun _ _ c hc _ => (hhanded.change.keeps c hc (hhanded.fresh c hc)).1
  refine hkept.cons hhanded.used hhanded.fits fun l hl heq => ?_
  obtain ⟨c, hc, hptr, -⟩ := h.backed l hl
  exact hhanded.fresh c hc (by omega)

theorem Sound.givenBack (hgood : Good t bs')
    (hchange : Change w.manager t bs bs' b.addr) : Sound ⟨t, without w.live (b.addr + 48)⟩ bs' := by
  refine h.keep hgood (without_sublist _ _) fun l hl c hc hptr => ?_
  have hne := ptr_ne_of_mem_without hl
  exact (hchange.keeps c hc (by omega)).1

theorem Sound.alloc (hok : w.manager.AllocFits size) (file line : Nat) :
    ∃ t ptr bs', w.manager.alloc size file line = some (t, ptr) ∧
      Sound ⟨t, if ptr ≠ 0 then ⟨ptr, size⟩ :: w.live else w.live⟩ bs' ∧
      (w.manager.AllocStrict size → Strict w.manager bs → Strict t bs') := by
  obtain ⟨t, ptr, heq, hcase⟩ := h.good.alloc hok file line
  rcases hcase with ⟨rfl, rfl⟩ | ⟨bs', b, hhanded, rfl, -⟩
  · exact ⟨w.manager, 0, bs, heq, h, fun _ hs => hs⟩
  · refine ⟨t, b.addr + 48, bs', heq, ?_, hhanded.strict⟩
    exact h.handed hhanded.toHanded

theorem Sound.free (hgiven : w.Given ptr)
    (hok : ptr ≠ 0 → w.manager.FreeFits ptr) :
    ∃ t r bs', w.manager.free ptr = some (t, r) ∧ Sound ⟨t, without w.live ptr⟩ bs' ∧
      (Strict w.manager bs → Strict t bs') := by
  rcases hgiven with rfl | ⟨l, hl, rfl⟩
  · refine ⟨w.manager, .ignored, bs, if_pos (.inr rfl), ?_, id⟩
    exact h.keep h.good (without_sublist _ _) fun _ _ _ hb _ => hb
  · obtain ⟨b, hb, hptr, -⟩ := h.backed l hl
    rw [hptr] at hok ⊢
    obtain ⟨t, r, bs', heq, hgood, hchange, hstrict⟩ := h.good.free hb (hok (by omega))
    exact ⟨t, r, bs', heq, h.givenBack hgood hchange, fun hs => (hstrict hs).2.1⟩

theorem Sound.relive (hb : Used w.manager bs b)
    (hres : Realloced w.manager t bs bs' b ptr size) :
    Sound ⟨t, World.relive w.live (b.addr + 48) size ptr⟩ bs' := by
  have hkept : Sound ⟨t, without w.live (b.addr + 48)⟩ bs' :=
    h.keep hres.good (without_sublist _ _) fun l' hl' c hc hcptr => by
      have hne := ptr_ne_of_mem_without hl'
      exact hres.others c hc (by omega)
  unfold World.relive
  split
  · next hne =>
    obtain ⟨b', hb', rfl, hfits, hfresh⟩ := hres.result hne
    refine hkept.cons hb' hfits fun l' hl' heq' => ?_
    obtain ⟨c, hc, hcptr, -⟩ := h.backed l' ((without_sublist _ _).subset hl')
    have hne' := ptr_ne_of_mem_without hl'
    exact hfresh c hc (by omega) (by omega)
  · next hnull =>
    split
    · exact hkept
    · next h0 =>
      refine h.keep hres.good (List.Sublist.refl _) fun l' _ c hc _ => ?_
      by_cases hcb : c.addr = b.addr
      · rw [h.good.unique hc hb hcb]
        exact hres.null (not_not.mp hnull) h0
      · exact hres.others c hc hcb

theorem Sound.realloc (hgiven : w.Given ptr) (hok : w.manager.ReallocFits ptr size)
    (file line : Nat) :
    ∃ t ptr' bs', w.manager.realloc ptr size file line = some (t, ptr') ∧
      Sound ⟨t, World.relive w.live ptr size ptr'⟩ bs' ∧
      (w.manager.ReallocStrict ptr size → Strict w.manager bs → Strict t bs') := by
  rcases hgiven with rfl | ⟨l, hl, rfl⟩
  · have hcall : w.manager.realloc 0 size file line = w.manager.alloc size file line := by
      unfold MemoryManager.realloc
      rw [if_neg (by rw [h.good.initialized]; exact fun hf => hf rfl), if_pos rfl]
    rw [hcall]
    obtain ⟨t, ptr', bs', heq, hsound, hstrict⟩ := h.alloc hok file line
    refine ⟨t, ptr', bs', heq, ?_, hstrict⟩
    unfold World.relive
    rwa [h.without_null, ite_self]
  · obtain ⟨b, hb, hptr, -⟩ := h.backed l hl
    rw [hptr] at hok ⊢
    obtain ⟨t, ptr', bs', heq, hres, hstrict⟩ := h.good.realloc hb hok file line
    exact ⟨t, ptr', bs', heq, h.relive hb hres.toRealloced, hstrict⟩

theorem Sound.step {op : MemOp} (hlegal : w.Legal op) (hok : w.manager.Fits op) :
    ∃ w' out bs', w.step op = some (w', out) ∧ w'.Sound bs' ∧
      (w.manager.Strictly op → Strict w.manager bs → Strict w'.manager bs') := by
  cases op with
  | alloc size file line =>
    obtain ⟨t, ptr, bs', heq, hsound, hstrict⟩ := h.alloc hok file line
    exact ⟨_, _, bs', by simp only [World.step, heq]; rfl, hsound, hstrict⟩
  | free ptr =>
    obtain ⟨t, r, bs', heq, hsound, hstrict⟩ := h.free hlegal hok
    exact ⟨_, _, bs', by simp only [World.step, heq]; rfl, hsound, fun _ => hstrict⟩
  | realloc ptr size file line =>
    obtain ⟨t, ptr', bs', heq, hsound, hstrict⟩ := h.realloc hlegal.1 hok file line
    exact ⟨_, _, bs', by simp only [World.step, heq]; rfl, hsound, hstrict⟩
  | defragment =>
    obtain ⟨t, bs', heq, hmerged, -⟩ := h.good.rep.defragment
    obtain ⟨hgood, hchange⟩ := h.good.heapStep hmerged.step hmerged.rep
    refine ⟨⟨t, w.live⟩, 0, bs', by simp only [World.step, heq]; rfl, ?_, fun _ hs => ?_⟩
    · exact h.keep hgood (List.Sublist.refl _) fun _ _ b hb _ =>
        (hchange.keeps b hb (h.good.addr_ne_zero hb)).1
    · exact hs.change hchange (hmerged.snug _ hs.snug)
        (fun _ _ hun => hun.of_pools hmerged.step.pools)
        fun b hb ha => absurd ha (hgood.addr_ne_zero hb)
  | write addr byte =>
    obtain ⟨l, hl, hle, hlt⟩ := hlegal
    obtain ⟨b, hb, hptr, hsize⟩ := h.backed l hl
    have hwrite := h.good.setMem hb (m := w.manager.mem.fill addr 1 byte)
      fun x hx => fill_of_not (by omega)
    exact ⟨_, _, bs, rfl, ⟨hwrite.1, h.backed, h.distinct⟩, fun _ => hwrite.2⟩

end

end World

namespace MemoryManager

variable {config : MemConfig} {mem : Mem} {heap : Nat} {malloc : Nat → Nat × Bool}
  {s : MemoryManager}

theorem initPool_ok {entry : (Nat × Nat) × Nat} {pool : MemoryPool}
    (h : initPool malloc entry = some pool) (m : Mem) :
    pool.Ok m ∧ ∀ k : Nat, pool.blockUsed[k]? ≠ some true := by
  unfold initPool at h
  dsimp only at h
  split at h
  · cases h
  · cases h
    have hunused : ∀ k : Nat, (List.replicate entry.1.2 false)[k]? ≠ some true := by
      intro k hk
      rw [getElem?_replicate] at hk
      split at hk
      · cases hk
      · cases hk
    exact ⟨⟨FreeStack.init _, length_replicate, fun k hk => absurd hk (hunused k),
      fun k hk => absurd hk (hunused k)⟩, hunused⟩

theorem init_good (hinit : init config mem heap malloc = some s)
    (hsize : config.heapSize < 4294967296)
    (hend : heap + config.heapSize ≤ 18446744073709551616) (hplaced : s.Placed) :
    Good s [⟨heap, config.heapSize - 52, false⟩] ∧ (∀ b, ¬ s.InPool b) ∧
      s.config = config ∧ s.heapMemory = heap := by
  unfold init at hinit
  split at hinit
  · cases hinit
  next hok =>
  have hpos : heap ≠ 0 := fun h0 => hok (.inr h0)
  have hcut : u32 ((config.heapSize : Int) - 52) = config.heapSize - 52 := by
    unfold u32
    omega
  have hpools : ∀ (i : Nat) (pool : MemoryPool) (m : Mem), s.pools[i]? = some pool →
      pool.Ok m ∧ ∀ k : Nat, pool.blockUsed[k]? ≠ some true := by
    intro i pool m hi
    rw [← Option.some.inj hinit] at hi
    obtain ⟨entry, -, hentry⟩ := mem_filterMap.mp (mem_of_getElem? hi)
    exact initPool_ok hentry m
  have hnone : ∀ b, ¬ s.InPool b := fun b ⟨i, pool, k, hi, hk, _⟩ =>
    (hpools i pool s.mem hi).2 k hk
  have hok := PoolsOk.mk (fun i pool hi => (hpools i pool s.mem hi).1) hplaced
  cases hinit
  refine ⟨⟨rfl, ⟨Nat.pos_of_ne_zero hpos, hend, hsize, rfl, rfl, .refl, ?_, ?_⟩, hok⟩,
    hnone, rfl, rfl⟩
  · constructor
    · simp (disch := omega) only [blkSize, rd_wr_of_disjoint, rd_wr_of_lt, hcut]
    · simp (disch := omega) only [blkFlags, rd_wr_of_disjoint, rd_wr_of_lt]
      rfl
    · simp (disch := omega) only [blkNext, rd_wr_of_disjoint, rd_wr_of_lt]
      rfl
    · simp (disch := omega) only [blkPrev, rd_wr_of_lt]
  · show heap + 52 + (config.heapSize - 52) ≤ heap + config.heapSize
    omega

end MemoryManager

/-! ## The answer of `Memory_Alloc` -/

def Apart (addr size addr' size' : Nat) : Prop := addr + size ≤ addr' ∨ addr' + size' ≤ addr

/-- The `size` bytes at `ptr`, which `Memory_Alloc` has answered in the world `w`,
leaving the manager `t`, are the client's own. -/
structure Designates (w : World) (t : MemoryManager) (ptr size : Nat) : Prop where
  inside : t.heapMemory ≤ ptr ∧ ptr + size ≤ t.heapMemory + t.config.heapSize ∨
    ∃ pool ∈ t.pools, ∃ k, pool.blockUsed[k]? = some true ∧
      pool.poolMemory + k * pool.blockSize ≤ ptr ∧
      ptr + size ≤ pool.poolMemory + (k + 1) * pool.blockSize ∧
      (k + 1) * pool.blockSize ≤ pool.total
  live : ∀ l ∈ w.live, Apart ptr size l.ptr l.size
  headers : ∃ bs, t.blocks = some bs ∧ ∀ b, (b ∈ bs ∨ t.InPool b) →
    Apart ptr size b.addr 48 ∧ Apart ptr size (b.addr + 48 + b.size) 4

theorem World.Sound.designates {w w' : World} {bs : List Blk} {l : Live} (h : w'.Sound bs)
    (hl : l ∈ w'.live) (hothers : ∀ l' ∈ w.live, l' ∈ w'.live ∧ l'.ptr ≠ l.ptr) :
    Designates w w'.manager l.ptr l.size := by
  obtain ⟨b, hb, hptr, hfits⟩ := h.backed l hl
  have hstop := b.stop_eq
  refine ⟨?_, fun l' hl' => ?_, bs, h.good.rep.blocks, fun c hc => ?_⟩
  · rcases hb with ⟨hmem, -⟩ | ⟨i, pool, k, hi, hk, rfl⟩
    · have hin := h.good.rep.linked.bounds hmem
      exact .inl ⟨by omega, by omega⟩
    · have hslot := h.good.pools.fits hi hk
      have hbounds := hslot.bounds
      have hmul : (k + 1) * pool.blockSize = k * pool.blockSize + pool.blockSize := Nat.succ_mul _ _
      have haddr : (pool.blk k).addr = pool.poolMemory + k * pool.blockSize := rfl
      exact .inr ⟨pool, mem_of_getElem? hi, k, hk, by omega, by omega, hslot.2⟩
  · obtain ⟨hlive, hne⟩ := hothers l' hl'
    obtain ⟨c, hc, hptr', hsize⟩ := h.backed l' hlive
    have hstop' := c.stop_eq
    unfold Apart
    rcases h.good.apart hb.block hc.block with rfl | hapart
    · exact absurd (hptr'.trans hptr.symm) hne
    · omega
  · have hstop' := c.stop_eq
    unfold Apart
    rcases h.good.apart hb.block hc with rfl | hapart
    · omega
    · omega

theorem sound_of_run {config : MemConfig} {mem : Mem} {heap : Nat}
    {malloc : Nat → Nat × Bool} {s : MemoryManager}
    (hinit : MemoryManager.init config mem heap malloc = some s)
    (hsize : config.heapSize < 4294967296)
    (hend : heap + config.heapSize ≤ 18446744073709551616) (hplaced : s.Placed) (ops : List MemOp)
    (hops : Along World.step (fun w op => w.Legal op ∧ w.manager.Fits op) ⟨s, []⟩ ops) :
    ∃ w outs, run World.step ⟨s, []⟩ ops = some (w, outs) ∧ ∃ bs, w.Sound bs := by
  have hgood := (MemoryManager.init_good hinit hsize hend hplaced).1
  have hsound : World.Sound ⟨s, []⟩ [⟨heap, config.heapSize - 52, false⟩] :=
    ⟨hgood, fun _ => nofun, nodup_nil⟩
  refine run_along (fun _ w => ∃ bs, w.Sound bs) (fun _ w op ⟨bs, h⟩ hop => ?_) ops []
    ⟨_, hsound⟩ hops
  obtain ⟨w', out, bs', hstep, hsound', -⟩ := h.step hop.1 hop.2
  exact ⟨w', out, hstep, bs', hsound'⟩

/-- **What `Memory_Alloc` hands out is the client's own** (`Designates`), in every state that the
manager reaches under the contract, for every request that meets its condition. -/
theorem alloc_designates {config : MemConfig} {mem : Mem} {heap : Nat}
    {malloc : Nat → Nat × Bool} {s : MemoryManager}
    (hinit : MemoryManager.init config mem heap malloc = some s)
    (hsize : config.heapSize < 4294967296)
    (hend : heap + config.heapSize ≤ 18446744073709551616) (hplaced : s.Placed) (ops : List MemOp)
    (hops : Along World.step (fun w op => w.Legal op ∧ w.manager.Fits op) ⟨s, []⟩ ops) :
    ∃ w outs, run World.step ⟨s, []⟩ ops = some (w, outs) ∧
      ∀ size file line, w.manager.AllocFits size →
        ∃ t ptr, w.manager.alloc size file line = some (t, ptr) ∧
          (ptr ≠ 0 → Designates w t ptr size) := by
  obtain ⟨w, outs, hrun, bs, hw⟩ := sound_of_run hinit hsize hend hplaced ops hops
  refine ⟨w, outs, hrun, fun size file line hfits => ?_⟩
  obtain ⟨t, ptr, bs', heq, hsound, -⟩ := hw.alloc hfits file line
  refine ⟨t, ptr, heq, fun hne => ?_⟩
  rw [if_pos hne] at hsound
  exact hsound.designates mem_cons_self hsound.head_fresh

def heapAndPool : MemConfig := ⟨256, some [(100, 2)], true, false⟩

theorem heapAndPool_placed {s : MemoryManager} {stats : Bool}
    (h : MemoryManager.init { heapAndPool with enableStats := stats } (fun _ => 0) 4096
      (fun _ => (8192, true)) = some s) : s.Placed := by
  obtain ⟨p, hpools, hmem, htotal, hheap, hsize⟩ : ∃ p, s.pools = [p] ∧ p.poolMemory = 8192 ∧
      p.total = 200 ∧ s.heapMemory = 4096 ∧ s.config.heapSize = 256 := by
    cases h
    exact ⟨_, rfl, rfl, rfl, rfl, rfl⟩
  have hone : ∀ {i pool}, s.pools[i]? = some pool → i = 0 ∧ pool = p := fun {i pool} hi => by
    rw [hpools] at hi
    cases i with
    | zero => exact ⟨rfl, (Option.some.inj hi).symm⟩
    | succ i => cases hi
  refine ⟨fun i pool hi => ?_, fun i pool hi => ?_, fun i j q r hne hi hj => ?_⟩
  · obtain ⟨-, rfl⟩ := hone hi
    omega
  · obtain ⟨-, rfl⟩ := hone hi
    omega
  · exact absurd ((hone hi).1.trans (hone hj).1.symm) hne

theorem alloc_designates_slot : ∃ s w outs t,
    MemoryManager.init heapAndPool (fun _ => 0) 4096 (fun _ => (8192, true)) = some s ∧
    run World.step ⟨s, []⟩ [.alloc 8 0 0, .write 8340 7, .alloc 60 0 0, .free 8340] =
      some (w, outs) ∧
    w.live = [⟨4144, 60⟩] ∧ w.manager.alloc 8 0 0 = some (t, 8340) ∧
    Designates w t 8340 8 := by
  have hinit : MemoryManager.init heapAndPool (fun _ => 0) 4096 (fun _ => (8192, true)) = some _ :=
    rfl
  obtain ⟨w, outs, hrun, halloc⟩ := alloc_designates hinit (by decide) (by decide)
    (heapAndPool_placed hinit) [.alloc 8 0 0, .write 8340 7, .alloc 60 0 0, .free 8340]
    (by decide +kernel)
  cases hrun
  obtain ⟨t, ptr, heq, hdes⟩ := halloc 8 0 0 (by decide +kernel)
  cases heq
  exact ⟨_, _, _, _, hinit, rfl, rfl, rfl, hdes (by decide +kernel)⟩

/-- **A request close to 2^32 is answered with no room at all.** Rounding
0xFFFFFFFF up to a multiple of 8 wraps to 0, which the only block of a fresh heap
fits, and the answer is not NULL. -/
theorem huge_alloc_designates_nothing : ∃ s t,
    MemoryManager.init heap256 (fun _ => 0) 4096 (fun _ => (0, false)) = some s ∧
    s.alloc 4294967295 0 0 = some (t, 4144) ∧
    ¬ Designates ⟨s, []⟩ t 4144 4294967295 := by
  refine ⟨_, _, rfl, rfl, fun h => ?_⟩
  rcases h.inside with ⟨-, hend⟩ | ⟨pool, hpool, -⟩
  · exact absurd hend (by decide +kernel)
  · cases hpool

end Cant.Memory
