/-
# `Usage` — what the manager counts

The statistics are beside the heap: `split_block`, the merges and the guards do not
touch them, and each call counts at most once, what it hands out or what it takes
back. So `current_usage` stays within its 32 bits along every run
(`counted_of_run`), and what `Memory_Alloc` adds to it is the size asked for when a
pool serves the request, and the size rounded up when the heap does (`alloc_stats`).
-/
import Cant.Memory.Client
import Cant.Memory.Heap

namespace Cant.Memory

open Run Word Option

namespace MemoryManager

variable {s t : MemoryManager} {size ptr file line : Nat}

/-! ## What leaves the statistics alone -/

section

variable (s : MemoryManager)

@[simp] theorem setBackLink_stats (next block : Nat) :
    (s.setBackLink next block).stats = s.stats := by
  unfold setBackLink
  split
  · rfl
  · rfl

@[simp] theorem splitBlock_stats (block size : Nat) :
    (s.splitBlock block size).stats = s.stats := by
  unfold splitBlock
  dsimp only
  split
  · rfl
  · rw [setBackLink_stats]

@[simp] theorem absorb_stats (block other : Nat) : (s.absorb block other).stats = s.stats := by
  rw [absorb, setBackLink_stats]

@[simp] theorem setupBlockGuards_stats (block : Nat) :
    (s.setupBlockGuards block).stats = s.stats := by
  unfold setupBlockGuards
  split
  · rfl
  · rfl

@[simp] theorem setupBlock_stats (block file line : Nat) :
    (s.setupBlock block file line).stats = s.stats := by
  rw [setupBlock, setupBlockGuards_stats]

@[simp] theorem mergeNext_stats (block : Nat) : (s.mergeNext block).stats = s.stats := by
  unfold mergeNext
  split
  · exact absorb_stats _ _ _
  · rfl

@[simp] theorem mergePrev_stats (block : Nat) : (s.mergePrev block).stats = s.stats := by
  unfold mergePrev
  split
  · exact absorb_stats _ _ _
  · rfl

theorem record_stats (f : MemStats → MemStats) :
    (s.record f).stats = if s.config.enableStats then f s.stats else s.stats := by
  unfold record
  split
  · rfl
  · rfl

end

theorem allocateFromPool_stats {i : Nat} (h : s.allocateFromPool i file line = some (t, ptr)) :
    t.stats = s.stats ∧ t.config = s.config := by
  obtain ⟨pool, -, h⟩ := bind_eq_some_iff.mp h
  split at h
  · cases h
    exact ⟨rfl, rfl⟩
  · obtain ⟨k, -, h⟩ := bind_eq_some_iff.mp h
    obtain ⟨_, -, h⟩ := bind_eq_some_iff.mp h
    cases h
    exact ⟨setupBlockGuards_stats _ _, (setupBlockGuards_static (Static.refl _) _).1.config⟩

theorem mergePass_stats {fuel block : Nat} {merged merged' : Bool}
    (h : mergePass fuel s block merged = some (t, merged')) : t.stats = s.stats := by
  induction fuel generalizing s block merged with
  | zero => cases h
  | succ fuel ih =>
    rw [mergePass] at h
    split at h
    · cases h
      rfl
    split at h
    · exact (ih h).trans (absorb_stats _ _ _)
    · exact ih h

theorem mergePasses_stats {fuel : Nat} (h : mergePasses fuel s = some t) : t.stats = s.stats := by
  induction fuel generalizing s with
  | zero => cases h
  | succ fuel ih =>
    obtain ⟨⟨u, merged⟩, hpass, h⟩ := bind_eq_some_iff.mp h
    dsimp only at h
    split at h
    · exact (ih h).trans (mergePass_stats hpass)
    · cases h
      exact mergePass_stats hpass

theorem defragment_stats (h : s.defragment = some t) : t.stats = s.stats := by
  unfold defragment at h
  split at h
  · cases h
    rfl
  · exact mergePasses_stats h

/-! ## What is counted -/

theorem allocFromHeap_stats (h : s.allocFromHeap size file line = some (t, ptr)) :
    t = s ∨ t.stats = (s.record (·.allocated size false)).stats ∧ t.pools = s.pools := by
  obtain ⟨block, -, h⟩ := bind_eq_some_iff.mp h
  split at h
  · cases h
    exact .inl rfl
  · cases h
    have hsetup : Static s ((s.splitBlock block size).setupBlock block file line) :=
      (setupBlockGuards_static ((splitBlock_static s block size).setMem _) block).1
    refine .inr ⟨?_, (record_static _ _).1.pools.trans hsetup.pools⟩
    rw [record_stats, record_stats, hsetup.config, setupBlock_stats, splitBlock_stats]

/-- **What `Memory_Alloc` counts**: the size asked for if a pool serves the request, and
the size rounded up if the heap does, whose pools are then as they were. -/
theorem alloc_stats (h : s.alloc size file line = some (t, ptr)) :
    t = s ∨ s.findSuitablePool (u32 (size + 52)) ≠ none ∧
        t.stats = (s.record (·.allocated size true)).stats ∨
      t.stats = (s.record (·.allocated (align size) false)).stats ∧ t.pools = s.pools := by
  unfold alloc at h
  split at h
  · cases h
    exact .inl rfl
  split at h
  · next i hfind =>
    obtain ⟨⟨t₀, ptr₀⟩, hpool, h⟩ := bind_eq_some_iff.mp h
    obtain ⟨hstats, hconfig⟩ := allocateFromPool_stats hpool
    dsimp only at h
    split at h
    · cases h
      refine .inr (.inl ⟨?_, ?_⟩)
      · rw [hfind]
        exact some_ne_none i
      · rw [record_stats, record_stats, hstats, hconfig]
    · next hnull =>
      -- a pool that answers NULL has not been touched
      have hsame : t₀ = s := by
        obtain ⟨pool, -, hpool⟩ := bind_eq_some_iff.mp hpool
        split at hpool
        · cases hpool
          rfl
        · obtain ⟨k, -, hpool⟩ := bind_eq_some_iff.mp hpool
          obtain ⟨_, -, hpool⟩ := bind_eq_some_iff.mp hpool
          cases hpool
          exact absurd (Nat.succ_ne_zero _) hnull
      rw [hsame] at h
      exact (allocFromHeap_stats h).imp id .inr
  · exact (allocFromHeap_stats h).imp id .inr

theorem freeBlock_stats (s : MemoryManager) (block : Nat) :
    (s.freeBlock block).1.stats = s.stats ∨
      ∃ n, (s.freeBlock block).1.stats = (s.record (·.freed n)).stats := by
  by_cases h : s.isValidBlock block = true ∧ blkUsed s.mem block = true ∧
      s.checkBlockGuards block = true
  · rw [freeBlock_accepted h.1 h.2.1 h.2.2]
    refine .inr ⟨blkSize s.mem block, ?_⟩
    simp [clearBlock]
  · exact .inl (by rw [freeBlock_rejected h])

theorem free_cases {r : FreeResult} (h : s.free ptr = some (t, r)) :
    (s.initialized = false ∨ ptr = 0) ∧ t = s ∧ r = .ignored ∨
    (blkPooled s.mem (ptr - 48) = true ∧ r = .pooled ∧
      ∃ pools, freeToPools ptr s.pools = some (some pools) ∧
        t = ({ s with pools := pools }).record (·.freed (blkSize s.mem (ptr - 48)))) ∨
    (blkPooled s.mem (ptr - 48) = true → freeToPools ptr s.pools = some none) ∧
      s.freeBlock (ptr - 48) = (t, r) := by
  unfold free at h
  split at h
  · next hignored =>
    cases h
    exact .inl ⟨hignored.imp Bool.eq_false_of_not_eq_true id, rfl, rfl⟩
  split at h
  · next hpooled =>
    obtain ⟨taker, htaker, h⟩ := bind_eq_some_iff.mp h
    cases taker with
    | none => exact .inr (.inr ⟨fun _ => htaker, Option.some.inj h⟩)
    | some pools =>
      cases h
      exact .inr (.inl ⟨hpooled, rfl, pools, htaker, rfl⟩)
  · next hpooled => exact .inr (.inr ⟨fun hp => absurd hp hpooled, Option.some.inj h⟩)

/-- **What `Memory_Free` counts**: nothing, or one block. -/
theorem free_stats {r : FreeResult} (h : s.free ptr = some (t, r)) :
    t.stats = s.stats ∨ ∃ n, t.stats = (s.record (·.freed n)).stats := by
  rcases free_cases h with ⟨-, rfl, -⟩ | ⟨-, -, pools, -, rfl⟩ | ⟨-, hblock⟩
  · exact .inl rfl
  · exact .inr ⟨blkSize s.mem (ptr - 48), by rw [record_stats, record_stats]⟩
  · have ht : (s.freeBlock (ptr - 48)).1 = t := congrArg Prod.fst hblock
    rw [← ht]
    exact freeBlock_stats s (ptr - 48)

/-! ## The usage -/

/-- `current_usage` is within its 32 bits. -/
def Counted (s : MemoryManager) : Prop := s.stats.currentUsage < 4294967296

section

variable (h : Counted s)
include h

theorem Counted.of_stats (hstats : t.stats = s.stats) : Counted t := by
  unfold Counted
  rw [hstats]
  exact h

theorem Counted.record {f : MemStats → MemStats}
    (hf : ∀ st, (f st).currentUsage < 4294967296) : Counted (s.record f) := by
  unfold Counted
  rw [record_stats]
  split
  · exact hf _
  · exact h

theorem Counted.alloc (heq : s.alloc size file line = some (t, ptr)) : Counted t := by
  rcases alloc_stats heq with rfl | ⟨-, hstats⟩ | ⟨hstats, -⟩
  · exact h
  · exact (h.record fun st => u32_lt (st.currentUsage + size)).of_stats hstats
  · exact (h.record fun st => u32_lt (st.currentUsage + align size)).of_stats hstats

theorem Counted.free {r : FreeResult} (heq : s.free ptr = some (t, r)) : Counted t := by
  rcases free_stats heq with hstats | ⟨n, hstats⟩
  · exact h.of_stats hstats
  · exact (h.record fun _ => u32_lt _).of_stats hstats

theorem Counted.reallocMove {newPtr : Nat} {length : MemoryManager → Nat}
    (heq : s.reallocMove ptr size file line length = some (t, newPtr)) : Counted t := by
  obtain ⟨⟨u, raw⟩, halloc, heq⟩ := bind_eq_some_iff.mp heq
  have hu := h.alloc halloc
  dsimp only at heq
  split at heq
  · obtain ⟨⟨v, r⟩, hfree, hv⟩ := map_eq_some_iff.mp heq
    cases hv
    have hcopied : Counted { u with mem := u.mem.copy newPtr ptr (length u) } := hu
    exact hcopied.free hfree
  · cases heq
    exact hu

theorem Counted.realloc {newPtr : Nat}
    (heq : s.realloc ptr size file line = some (t, newPtr)) : Counted t := by
  unfold MemoryManager.realloc at heq
  split at heq
  · cases heq
    exact h
  split at heq
  · exact h.alloc heq
  split at heq
  · obtain ⟨⟨u, r⟩, hfree, hu⟩ := map_eq_some_iff.mp heq
    cases hu
    exact h.free hfree
  split at heq
  · exact h.reallocMove heq
  split at heq
  · cases heq
    exact h
  split at heq
  · cases heq
    exact h
  unfold reallocHeap at heq
  dsimp only at heq
  split at heq
  · split at heq
    · cases heq
      exact h.of_stats (splitBlock_stats _ _ _)
    · cases heq
      exact h
  split at heq
  · cases heq
    exact h.of_stats ((splitBlock_stats _ _ _).trans (absorb_stats _ _ _))
  · exact h.reallocMove heq

end

end MemoryManager

open MemoryManager

theorem World.step_counted {w w' : World} {op : MemOp} {out : Nat} (h : w.manager.Counted)
    (heq : w.step op = some (w', out)) : w'.manager.Counted := by
  cases op with
  | alloc size file line =>
    obtain ⟨⟨t, ptr⟩, halloc, hw⟩ := bind_eq_some_iff.mp heq
    cases hw
    exact h.alloc halloc
  | free ptr =>
    obtain ⟨⟨t, r⟩, hfree, hw⟩ := bind_eq_some_iff.mp heq
    cases hw
    exact h.free hfree
  | realloc ptr size file line =>
    obtain ⟨⟨t, newPtr⟩, hrealloc, hw⟩ := bind_eq_some_iff.mp heq
    cases hw
    exact h.realloc hrealloc
  | defragment =>
    obtain ⟨t, hdefragment, hw⟩ := bind_eq_some_iff.mp heq
    cases hw
    exact h.of_stats (defragment_stats hdefragment)
  | write addr byte =>
    cases heq
    exact h.of_stats rfl

theorem counted_of_run {config : MemConfig} {mem : Mem} {heap : Nat} {malloc : Nat → Nat × Bool}
    {s : MemoryManager} {w : World} {ops : List MemOp} {outs : List Nat}
    (hinit : MemoryManager.init config mem heap malloc = some s)
    (hrun : run World.step ⟨s, []⟩ ops = some (w, outs)) : w.manager.Counted := by
  have hstart : s.Counted := by
    unfold MemoryManager.init at hinit
    split at hinit
    · cases hinit
    · cases hinit
      exact Nat.zero_lt_succ _
  exact run_inv (fun w : World => w.manager.Counted)
    (fun _ _ _ _ h hstep => World.step_counted h hstep) hstart hrun

end Cant.Memory
