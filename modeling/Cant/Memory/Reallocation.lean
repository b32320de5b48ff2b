/-
# `Reallocation` — what `Memory_Realloc` does to the bytes

Along a run in which every call meets its condition (`Fits`), none of it is lost
(`realloc_carries`): the answer is room for the new size and begins with the old
data, NULL leaves the allocation as it was, and no other allocation sees a change.

The size is rounded up in 32 bits before it is compared with the block's, so a request
close to 2^32 shrinks the block to nothing: the answer is the old pointer, and the
header of the block that is split off lies over the data
(`huge_realloc_overwrites`).
-/
import Cant.Memory.Allocation

namespace Cant.Memory

open Run

/-- `Memory_Realloc` of the live allocation `l` to `size` bytes has answered `ptr` in the
world `w`, leaving the manager `t`, and all contents are where they belong. -/
structure Reallocates (w : World) (t : MemoryManager) (l : Live) (ptr size : Nat) : Prop where
  answered : ptr ≠ 0 → Designates ⟨w.manager, World.without w.live l.ptr⟩ t ptr size ∧
    t.mem.load ptr (min l.size size) = w.manager.mem.load l.ptr (min l.size size)
  refused : ptr = 0 → Designates ⟨w.manager, World.without w.live l.ptr⟩ t l.ptr l.size ∧
    t.mem.load l.ptr l.size = w.manager.mem.load l.ptr l.size
  others : ∀ l' ∈ w.live, l'.ptr ≠ l.ptr →
    t.mem.load l'.ptr l'.size = w.manager.mem.load l'.ptr l'.size

namespace World

open MemoryManager

variable {w : World} {bs bs' : List Blk} {t : MemoryManager} {l : Live} {b : Blk} {size : Nat}

theorem load_eq_of_own {s : MemoryManager} (hptr : l.ptr = b.addr + 48) (hsize : l.size ≤ b.size)
    (hown : ∀ x, b.Own x → t.mem x = s.mem x) :
    t.mem.load l.ptr l.size = s.mem.load l.ptr l.size := by
  refine Mem.load_congr fun x hx hx' => hown x ?_
  unfold Blk.Own Blk.stop
  omega

theorem Sound.reallocates {ptr : Nat} (h : w.Sound bs) (hl : l ∈ w.live) (hpos : 0 < size)
    (hb : Used w.manager bs b) (hptr : l.ptr = b.addr + 48) (hsize : l.size ≤ b.size)
    (hres : Carried w.manager t bs bs' b ptr size) : Reallocates w t l ptr size where
  answered hne := by
    have hsound := h.relive hb hres.toRealloced
    rw [World.relive, if_pos hne, ← hptr] at hsound
    refine ⟨hsound.designates List.mem_cons_self hsound.head_fresh, ?_⟩
    refine List.map_congr_left fun i hi => ?_
    have hlt := List.mem_range.mp hi
    rw [hptr]
    exact hres.moved hne i (by omega) (by omega)
  refused h0 := by
    have hsound := h.relive hb hres.toRealloced
    rw [World.relive, if_neg (not_not.mpr h0), if_neg hpos.ne'] at hsound
    refine ⟨hsound.designates hl fun l' hl' =>
      ⟨List.mem_of_mem_filter hl', ptr_ne_of_mem_without hl'⟩, ?_⟩
    exact load_eq_of_own hptr hsize (hres.refused h0 hpos.ne')
  others l' hl' hne := by
    obtain ⟨c, hc, hptr', hsize'⟩ := h.backed l' hl'
    exact load_eq_of_own hptr' hsize' (hres.kept c hc (by omega))

end World

/-- **`Memory_Realloc` loses nothing** (`Reallocates`), in every state that the manager reaches
under the contract, for every live allocation and every size that meets its condition. -/
theorem realloc_carries {config : MemConfig} {mem : Mem} {heap : Nat}
    {malloc : Nat → Nat × Bool} {s : MemoryManager}
    (hinit : MemoryManager.init config mem heap malloc = some s)
    (hsize : config.heapSize < 4294967296)
    (hend : heap + config.heapSize ≤ 18446744073709551616) (hplaced : s.Placed) (ops : List MemOp)
    (hops : Along World.step (fun w op => w.Legal op ∧ w.manager.Fits op) ⟨s, []⟩ ops) :
    ∃ w outs, run World.step ⟨s, []⟩ ops = some (w, outs) ∧
      ∀ l ∈ w.live, ∀ size file line, 0 < size → w.manager.ReallocFits l.ptr size →
        ∃ t ptr, w.manager.realloc l.ptr size file line = some (t, ptr) ∧
          Reallocates w t l ptr size := by
  obtain ⟨w, outs, hrun, bs, hw⟩ := sound_of_run hinit hsize hend hplaced ops hops
  refine ⟨w, outs, hrun, fun l hl size file line hpos hfits => ?_⟩
  obtain ⟨b, hb, hptr, hle⟩ := hw.backed l hl
  rw [hptr] at hfits ⊢
  obtain ⟨t, ptr, bs', heq, hres, -⟩ := hw.good.realloc hb hfits file line
  exact ⟨t, ptr, heq, hw.reallocates hl hpos hb hptr hle hres⟩

/-- Eight bytes move from a slot to the heap. -/
theorem realloc_carries_to_heap : ∃ s w outs t,
    MemoryManager.init heapAndPool (fun _ => 0) 4096 (fun _ => (8192, true)) = some s ∧
    run World.step ⟨s, []⟩ [.alloc 8 0 0, .write 8340 7] = some (w, outs) ∧
    w.live = [⟨8340, 8⟩] ∧ w.manager.realloc 8340 60 0 0 = some (t, 4144) ∧
    Reallocates w t ⟨8340, 8⟩ 4144 60 := by
  have hinit : MemoryManager.init heapAndPool (fun _ => 0) 4096 (fun _ => (8192, true)) = some _ :=
    rfl
  obtain ⟨w, outs, hrun, hrealloc⟩ := realloc_carries hinit (by decide) (by decide)
    (heapAndPool_placed hinit) [.alloc 8 0 0, .write 8340 7] (by decide +kernel)
  cases hrun
  obtain ⟨t, ptr, heq, hres⟩ := hrealloc ⟨8340, 8⟩ List.mem_cons_self 60 0 0 (by decide)
    (by decide +kernel)
  cases heq
  exact ⟨_, _, _, _, hinit, rfl, rfl, rfl, hres⟩

/-- **A request close to 2^32 overwrites the data.** 0xFFFFFFFF is rounded up to 0, so
eight live bytes are shrunk to none; what is left of the block borrows, and its
header is written over the last four of them. The answer is the old pointer. -/
theorem huge_realloc_overwrites : ∃ s w outs t,
    MemoryManager.init heap256 (fun _ => 0) 4096 (fun _ => (0, false)) = some s ∧
    run World.step ⟨s, []⟩ [.alloc 8 0 0] = some (w, outs) ∧ w.live = [⟨4144, 8⟩] ∧
    w.manager.realloc 4144 4294967295 0 0 = some (t, 4144) ∧
    w.manager.mem.load 4144 8 = [0, 0, 0, 0, 0, 0, 0, 0] ∧
    t.mem.load 4144 8 = [0, 0, 0, 0, 160, 255, 255, 255] ∧
    ¬ Reallocates w t ⟨4144, 8⟩ 4144 4294967295 := by
  refine ⟨_, _, _, _, rfl, rfl, rfl, rfl, by decide +kernel, by decide +kernel, fun h => ?_⟩
  exact absurd (h.answered (by decide)).2 (by decide +kernel)

end Cant.Memory
