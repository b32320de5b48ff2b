/-
# `Integrity` — giving back and `Memory_CheckIntegrity`

`Memory_CheckIntegrity` answers true when the strict invariant holds
(`Strict.checkIntegrity`). Under the same invariant
`Memory_Free` accepts every live pointer. So along a run that keeps the invariant
strict, the check answers true in every state, and what is live can be given back
(`live_reclaimed_and_intact`).
-/
import Cant.Memory.Allocation

namespace Cant.Memory

open Run Word List

namespace MemoryManager

variable {s : MemoryManager} {bs : List Blk} {i : Nat} {pool : MemoryPool}

/-! ## The heap -/

/-- The walk of `Memory_CheckIntegrity` passes every block. The sizes seen so far
fit below the block it stands at, so their sum does not wrap. -/
theorem checkHeap_linked {fuel prev lo total : Nat}
    (h : Linked s.mem (s.heapMemory + s.config.heapSize) prev lo bs) (hlo : 0 < lo)
    (hsize : s.config.heapSize < 4294967296) (hfuel : bs.length < fuel)
    (hlast : s.lastBlock = lastAddr prev bs) (htotal : s.heapMemory + total ≤ lo)
    (hok : ∀ b ∈ bs, s.isValidBlock b.addr = true ∧
      (b.used = true → s.checkBlockGuards b.addr = true)) :
    ∃ total', s.checkHeap fuel (headAddr bs) total = some (true, total') ∧
      total' ≤ s.config.heapSize := by
  induction bs generalizing prev lo fuel total with
  | nil =>
    obtain ⟨fuel, rfl⟩ := Nat.exists_eq_add_of_lt hfuel
    have hle : lo ≤ s.heapMemory + s.config.heapSize := h
    exact ⟨total, rfl, by omega⟩
  | cons b bs ih =>
    obtain ⟨hne, hpos, fuel, rfl, hlt⟩ := h.walk hlo hfuel
    obtain ⟨hb, hat, hrest⟩ := h
    obtain ⟨hvalid, hguards⟩ := hok b mem_cons_self
    have hstop := b.stop_eq
    have hend := hrest.le
    have hnext : s.heapMemory + (total + (b.size + 52)) ≤ b.stop := by omega
    obtain ⟨total', hwalk, hle⟩ := ih hrest hpos hlt hlast hnext
      fun c hc => hok c (mem_cons_of_mem b hc)
    refine ⟨total', ?_, hle⟩
    have hlinks : ¬ (headAddr bs ≠ 0 ∧ blkPrev s.mem (headAddr bs) ≠ b.addr) ∧
        ¬ (headAddr bs = 0 ∧ b.addr ≠ s.lastBlock) := by
      cases bs with
      | nil => exact ⟨fun h0 => h0.1 rfl, fun h0 => h0.2 hlast.symm⟩
      | cons c bs =>
        have hc : b.stop ≤ c.addr := hrest.1
        have hne' : c.addr ≠ 0 := by omega
        exact ⟨fun h0 => h0.2 hrest.2.1.prev, fun h0 => hne' h0.1⟩
    have hsum : u32 ((total : Int) + (b.size + 52)) = total + (b.size + 52) :=
      u32_of_lt (n := total + (b.size + 52)) (by omega)
    rw [headAddr, checkHeap, if_neg hne, hat.next, hat.size, hat.used_eq,
      if_neg (not_not.mpr hvalid), if_neg (fun h0 => h0.2 (hguards h0.1)), if_neg hlinks.1,
      if_neg hlinks.2, hsum]
    exact hwalk

theorem Strict.checkHeap (h : Good s bs) (hs : Strict s bs) :
    ∃ total, s.checkHeap walkFuel s.firstBlock 0 = some (true, total) ∧
      total ≤ s.config.heapSize := by
  rw [h.rep.first]
  refine checkHeap_linked h.rep.linked h.rep.heap h.rep.size h.rep.length_lt h.rep.last
    .refl fun b hb => ⟨h.rep.isValidBlock hb (hs.snug.pos hb), fun hu => ?_⟩
  have hused : Used s bs b := .inl ⟨hb, hu⟩
  exact h.rep.checkBlockGuards hb (hs.guards b hused) (hs.guarded b hused)

/-! ## The pools -/

theorem Strict.checkPool (h : Good s bs) (hs : Strict s bs) (hi : s.pools[i]? = some pool) :
    s.checkPool pool = true := by
  have hpool := h.pools.pool i pool hi
  refine Bool.and_eq_true_iff.mpr ⟨all_eq_true.mpr ?_, all_eq_true.mpr fun j hj => ?_⟩
  · rintro ⟨used, j⟩ hj
    cases used with
    | false => rfl
    | true =>
      have hj := mem_zipIdx_iff_getElem?.mp hj
      have hused : Used s bs (pool.blk j) := .inr ⟨i, pool, j, hi, hj, rfl⟩
      have hguard := hs.guarded _ hused
      show s.checkBlockGuards (pool.poolMemory + u32 (j * pool.blockSize : Nat)) = true
      rw [(hpool.fits j hj).cut.1]
      refine decide_eq_true ⟨hs.guards _ hused, h.addr_ne_zero hused, hguard.1, ?_⟩
      rw [(hpool.header j hj).1]
      exact hguard.2
  · have hfree := (hpool.stack.mem_iff j).mp hj
    rw [← hpool.count]
    exact decide_eq_true (List.getElem?_eq_some_iff.mp hfree).1

/-- **`Memory_CheckIntegrity` answers true** where the strict invariant holds. -/
theorem Strict.checkIntegrity (h : Good s bs) (hs : Strict s bs) :
    s.checkIntegrity = some true := by
  obtain ⟨total, hheap, hle⟩ := hs.checkHeap h
  have hpools : s.pools.all s.checkPool = true := all_eq_true.mpr fun pool hpool => by
    obtain ⟨i, hi⟩ := mem_iff_getElem?.mp hpool
    exact hs.checkPool h hi
  unfold MemoryManager.checkIntegrity
  rw [if_neg (not_not.mpr h.initialized), hheap]
  simp [hpools, decide_eq_true hle]

theorem init_strict {config : MemConfig} {mem : Mem} {heap : Nat} {malloc : Nat → Nat × Bool}
    (hinit : init config mem heap malloc = some s) (hsize : config.heapSize < 4294967296)
    (hend : heap + config.heapSize ≤ 18446744073709551616) (hplaced : s.Placed)
    (hroom : 52 < config.heapSize) :
    Good s [⟨heap, config.heapSize - 52, false⟩] ∧
      Strict s [⟨heap, config.heapSize - 52, false⟩] := by
  obtain ⟨hgood, hpool, -, hheap⟩ := init_good hinit hsize hend hplaced
  have hnone : ∀ b, ¬ Used s [⟨heap, config.heapSize - 52, false⟩] b := by
    rintro b (⟨hb, hu⟩ | hb)
    · rw [mem_singleton.mp hb] at hu
      exact Bool.false_ne_true hu
    · exact hpool b hb
  exact ⟨hgood, fun b hb => absurd hb (hnone b), ⟨hheap.symm, Nat.sub_pos_of_lt hroom, trivial⟩,
    fun b hb => absurd hb (hnone b), fun b hb => absurd hb (hnone b)⟩

end MemoryManager

/-- `Memory_Free` accepts the live pointer and makes its bytes available again: they
lie in a block `b`, and all of `b` ends up in a free block of the heap or on the
stack of its pool. -/
def World.Reclaims (w : World) (l : Live) : Prop :=
  ∃ t r bs b, w.manager.free l.ptr = some (t, r) ∧ (r = .freed ∨ r = .pooled) ∧
    t.blocks = some bs ∧ l.ptr = b.addr + 48 ∧ l.size ≤ b.size ∧ t.Available bs b

theorem World.Sound.reclaims {w : World} {bs : List Blk} {l : Live} (h : w.Sound bs)
    (hs : w.manager.Strict bs) (hl : l ∈ w.live) : w.Reclaims l := by
  obtain ⟨b, hb, hptr, hsize⟩ := h.backed l hl
  have hfits : w.manager.FreeFits (b.addr + 48) := by
    intro _
    exact hs.unclaimed b hb
  obtain ⟨t, r, bs', hfree, hgood, -, hstrict⟩ := h.good.free hb hfits
  obtain ⟨hr, -, havailable⟩ := hstrict hs
  exact ⟨t, r, bs', b, hptr ▸ hfree, hr, hgood.rep.blocks, hptr, hsize, havailable⟩

/-- **Live pointers can be given back, and the check answers true**, in every state that the manager
reaches while its clients keep their side of the contract and every call meets its conditions. -/
theorem live_reclaimed_and_intact {config : MemConfig} {mem : Mem} {heap : Nat}
    {malloc : Nat → Nat × Bool} {s : MemoryManager}
    (hinit : MemoryManager.init config mem heap malloc = some s)
    (hsize : config.heapSize < 4294967296)
    (hend : heap + config.heapSize ≤ 18446744073709551616) (hplaced : s.Placed)
    (hroom : 52 < config.heapSize) (ops : List MemOp) (hops : Along World.step
      (fun w op => w.Legal op ∧ w.manager.Fits op ∧ w.manager.Strictly op) ⟨s, []⟩ ops) :
    ∃ w outs, run World.step ⟨s, []⟩ ops = some (w, outs) ∧
      w.manager.checkIntegrity = some true ∧ ∀ l ∈ w.live, w.Reclaims l := by
  obtain ⟨hgood, hstrict⟩ := MemoryManager.init_strict hinit hsize hend hplaced hroom
  have hsound : World.Sound ⟨s, []⟩ [⟨heap, config.heapSize - 52, false⟩] :=
    ⟨hgood, fun _ => nofun, nodup_nil⟩
  obtain ⟨w, outs, hrun, bs, hw, hs⟩ :=
    run_along (fun _ w => ∃ bs, w.Sound bs ∧ w.manager.Strict bs)
      (fun _ w op ⟨bs, h, hs⟩ ⟨hlegal, hfits, hstrictly⟩ => by
        obtain ⟨w', out, bs', hstep, hsound', hkeep⟩ := h.step hlegal hfits
        exact ⟨w', out, hstep, bs', hsound', hkeep hstrictly hs⟩) ops [] ⟨_, hsound, hstrict⟩ hops
  exact ⟨w, outs, hrun, hs.checkIntegrity hw.good, fun l hl => hw.reclaims hs hl⟩

theorem live_reclaimed_and_intact_after_free : ∃ s w outs,
    MemoryManager.init heapAndPool (fun _ => 0) 4096 (fun _ => (8192, true)) = some s ∧
    run World.step ⟨s, []⟩
      [.alloc 8 0 0, .write 8340 7, .alloc 60 0 0, .free 8340, .realloc 4144 64 0 0] =
      some (w, outs) ∧
    w.live = [⟨4144, 64⟩] ∧ w.manager.checkIntegrity = some true ∧ w.Reclaims ⟨4144, 64⟩ := by
  have hinit : MemoryManager.init heapAndPool (fun _ => 0) 4096 (fun _ => (8192, true)) = some _ :=
    rfl
  obtain ⟨w, outs, hrun, hcheck, hfree⟩ := live_reclaimed_and_intact hinit (by decide) (by decide)
    (heapAndPool_placed hinit) (by decide)
    [.alloc 8 0 0, .write 8340 7, .alloc 60 0 0, .free 8340, .realloc 4144 64 0 0]
    (by decide +kernel)
  cases hrun
  exact ⟨_, _, _, hinit, rfl, rfl, hcheck, hfree _ mem_cons_self⟩

/-- **Without guards nothing can be given back.** After one `Memory_Alloc` from a
heap without guards, `Memory_Free` takes the live pointer for a corrupted block and
changes nothing, and `Memory_CheckIntegrity` answers false. -/
theorem unguarded_never_freed : ∃ s w,
    MemoryManager.init { heap256 with enableGuards := false } (fun _ => 0) 4096
      (fun _ => (0, false)) = some s ∧
    run World.step ⟨s, []⟩ [.alloc 8 0 0] = some (w, [4144]) ∧ w.live = [⟨4144, 8⟩] ∧
    w.manager.free 4144 = some (w.manager, .corrupted) ∧
    ¬ w.Reclaims ⟨4144, 8⟩ ∧ w.manager.checkIntegrity = some false := by
  refine ⟨_, _, rfl, rfl, rfl, rfl, ?_, rfl⟩
  rintro ⟨t, r, bs, b, hfree, hr, -⟩
  cases hfree
  exact absurd hr (by decide)

end Cant.Memory
