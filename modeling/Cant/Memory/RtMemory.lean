/-
# `RtMemory` — a pool shared by threads

    rt_mempool_alloc      before the lock  Action.check      under it  Action.pop
    rt_mempool_free       before the lock  Action.release    under it  Action.push

A step is what one thread does without another getting in between: a section under the lock,
or what it reads before it. A thread is in the middle of a call between the two. The
pointer test of `rt_mempool_free` reads only what never changes, the emptiness test of
`rt_mempool_alloc` the counter: between that test and the lock others may take what was
left, and the counter goes below zero.

`pool_shared_iff` says that this is all that goes wrong: as long as every thread still finds a
block when it gets the lock, no block is in two places.
-/
import Mathlib.Data.List.Nodup
import Cant.Lib.Dealt
import Cant.Lib.FreeStack
import Cant.Lib.Run
import Cant.Lib.Word

namespace Cant.Memory

open Run Word Function List

structure RTMemPool where
  memory : Nat
  freeBlocks : List Nat
  blockSize : Nat
  blockCount : Nat
  freeCount : Nat
  deriving DecidableEq

namespace RTMemPool

/-- `(block_size + 63) & ~63`. -/
def alignSize (blockSize : Nat) : Nat := u64 (blockSize + 63) &&& 0xFFFFFFFFFFFFFFC0

/-- `(char*)pool->memory + (i * block_size)`. -/
def blockAddress (memory blockSize i : Nat) : Nat := u64 ((memory + i * blockSize : Nat) : Int)

/-- `rt_mempool_create`, with the memory it gets; `none` if it does not. -/
def create (blockSize blockCount : Nat) (memory : Option Nat) : Option RTMemPool :=
  memory.map fun memory =>
    { memory
      freeBlocks := (List.range blockCount).map (blockAddress memory (alignSize blockSize))
      blockSize := alignSize blockSize
      blockCount
      freeCount := blockCount }

def pop (pool : RTMemPool) : Option (RTMemPool × Nat) :=
  let freeCount := u64 ((pool.freeCount : Int) - 1)
  pool.freeBlocks[freeCount]?.map fun block => ({ pool with freeCount }, block)

def inRange (pool : RTMemPool) (ptr : Nat) : Bool :=
  !(ptr < pool.memory || ptr ≥ u64 (pool.memory + pool.blockCount * pool.blockSize))

def push (pool : RTMemPool) (ptr : Nat) : RTMemPool :=
  if pool.freeCount < pool.blockCount then
    { pool with
      freeBlocks := pool.freeBlocks.set pool.freeCount ptr, freeCount := pool.freeCount + 1 }
  else pool

def free (pool : RTMemPool) : List Nat := pool.freeBlocks.take pool.freeCount

def IsBlock (pool : RTMemPool) (b : Nat) : Prop :=
  ∃ i < pool.blockCount, b = pool.memory + i * pool.blockSize

def blocks (pool : RTMemPool) : List Nat :=
  (List.range pool.blockCount).map fun i => pool.memory + i * pool.blockSize

theorem mem_blocks {pool : RTMemPool} {b : Nat} : b ∈ pool.blocks ↔ pool.IsBlock b := by
  refine mem_map.trans (exists_congr fun i => ?_)
  rw [mem_range, eq_comm (a := b)]

theorem nodup_blocks {pool : RTMemPool} (hpos : 0 < pool.blockSize) : pool.blocks.Nodup := by
  refine List.Nodup.map (fun i j hij => ?_) nodup_range
  exact Nat.eq_of_mul_eq_mul_right hpos (Nat.add_left_cancel hij)

/-! ## The sections -/

section

variable {pool : RTMemPool}

theorem create_spec {blockSize blockCount memory : Nat}
    (h : create blockSize blockCount (some memory) = some pool) :
    pool.freeBlocks = (List.range blockCount).map (blockAddress memory pool.blockSize) ∧
      pool.blockCount = blockCount ∧ pool.freeCount = blockCount ∧ pool.memory = memory := by
  cases h
  exact ⟨rfl, rfl, rfl, rfl⟩

theorem free_create {blockSize blockCount memory : Nat}
    (h : create blockSize blockCount (some memory) = some pool)
    (hfits : memory + blockCount * pool.blockSize < 18446744073709551616) :
    pool.freeBlocks.length = pool.blockCount ∧ pool.free = pool.blocks := by
  obtain ⟨hlist, hcount, hall, hmemory⟩ := create_spec h
  have hlength : pool.freeBlocks.length = blockCount := by
    rw [hlist, length_map, length_range]
  refine ⟨hlength.trans hcount.symm, ?_⟩
  rw [free, hall, take_of_length_le hlength.le, hlist, blocks, hcount, hmemory]
  refine map_congr_left fun i hi => ?_
  have hle := Nat.mul_le_mul_right pool.blockSize (Nat.le_of_lt (mem_range.mp hi))
  exact u64_of_lt (by omega)

section

variable (hlength : pool.freeBlocks.length = pool.blockCount)
include hlength

section

variable (hsmall : pool.blockCount < 18446744073709551616)
include hsmall

theorem pop_spec (hle : pool.freeCount ≤ pool.blockCount) (hpos : 0 < pool.freeCount) :
    ∃ block, pool.pop = some ({ pool with freeCount := pool.freeCount - 1 }, block) ∧
      pool.free = ({ pool with freeCount := pool.freeCount - 1 } : RTMemPool).free ++ [block] := by
  have hlt : pool.freeCount - 1 < pool.freeBlocks.length := by omega
  have hcount : u64 ((pool.freeCount : Int) - 1) = pool.freeCount - 1 := u64_sub hpos (by omega)
  refine ⟨pool.freeBlocks[pool.freeCount - 1], ?_, ?_⟩
  · rw [pop, hcount, getElem?_eq_getElem hlt]
    rfl
  · show pool.freeBlocks.take pool.freeCount = pool.freeBlocks.take (pool.freeCount - 1) ++ _
    rw [← take_succ_eq_append_getElem hlt, Nat.sub_add_cancel hpos]

theorem pop_empty (hzero : pool.freeCount = 0) : pool.pop = none := by
  have hcount : u64 ((pool.freeCount : Int) - 1) = 18446744073709551615 := by
    rw [hzero]
    rfl
  rw [pop, getElem?_eq_none (by omega)]
  rfl

end

theorem free_push
    (hlt : pool.freeCount < pool.blockCount) (ptr : Nat) :
    (pool.push ptr).free = pool.free ++ [ptr] := by
  rw [push, if_pos hlt]
  exact take_succ_set (by omega) ptr

end

end

end RTMemPool

/-! ## The threads -/

/-- Where a thread is: outside, past the emptiness test, or past the pointer test. -/
inductive Pc where
  | idle | checked | releasing (ptr : Nat)
  deriving DecidableEq

/-- The pool, where its threads are, and what they hold. -/
structure Threads (τ : Type) where
  pool : RTMemPool
  pc : τ → Pc
  held : τ → List Nat

inductive Action where
  | check | pop | release (ptr : Nat) | push
  deriving DecidableEq

namespace Threads

section

variable {τ : Type} [DecidableEq τ]

/-- One step of one thread, and what a call of `rt_mempool_alloc` that ends there returns. A
thread that is elsewhere, or that would free what it does not hold, does nothing. -/
def step (w : Threads τ) (i : τ × Action) : Option (Threads τ × Option (Option Nat)) :=
  match i.2, w.pc i.1 with
  | .check, .idle =>
    if w.pool.freeCount = 0 then some (w, some none)
    else some ({ w with pc := update w.pc i.1 .checked }, none)
  | .pop, .checked =>
    w.pool.pop.map fun (pool, block) =>
      ({ pool
         pc := update w.pc i.1 .idle
         held := update w.held i.1 (block :: w.held i.1) }, some (some block))
  | .release ptr, .idle =>
    if ptr ∈ w.held i.1 then
      let held := update w.held i.1 ((w.held i.1).erase ptr)
      if w.pool.inRange ptr then
        some ({ w with held, pc := update w.pc i.1 (.releasing ptr) }, none)
      else some ({ w with held }, none)
    else some (w, none)
  | .push, .releasing ptr =>
    some ({ w with pool := w.pool.push ptr, pc := update w.pc i.1 .idle }, none)
  | _, _ => some (w, none)

end

variable {τ : Type}

def start (τ : Type) (pool : RTMemPool) : Threads τ := ⟨pool, fun _ => .idle, fun _ => []⟩

/-- The counter is in its bounds, the free list has so many blocks of the pool, each once, and
no two threads hold the same. -/
structure Shared (w : Threads τ) : Prop where
  bounded : w.pool.freeCount ≤ w.pool.blockCount
  length : w.pool.free.length = w.pool.freeCount
  distinct : w.pool.free.Nodup
  blocks : ∀ b ∈ w.pool.free, w.pool.IsBlock b
  once : ∀ t, (w.held t).Nodup
  exclusive : ∀ t u b, b ∈ w.held t → b ∈ w.held u → t = u

def StillThere (w : Threads τ) (i : τ × Action) : Prop :=
  i.2 = .pop → w.pc i.1 = .checked → 0 < w.pool.freeCount
  deriving Decidable

/-! ## What the threads have -/

/-- What a thread has: what it holds, and what it is about to give back. -/
def has (w : Threads τ) (t : τ) : List Nat :=
  w.held t ++ match w.pc t with
    | .releasing ptr => [ptr]
    | .idle | .checked => []

/-- Every block is in one place, in the free list or with a thread. -/
structure InPlace (w : Threads τ) : Prop where
  length : w.pool.freeBlocks.length = w.pool.blockCount
  small : w.pool.blockCount < 18446744073709551616
  bounded : w.pool.freeCount ≤ w.pool.blockCount
  dealt : Dealt w.pool.free w.has
  blocks : ∀ b ∈ w.pool.free, w.pool.IsBlock b
  out : ∀ t, ∀ b ∈ w.has t, w.pool.IsBlock b

namespace InPlace

variable {ptr : Nat} {i : τ × Action}
variable {w : Threads τ} {t : τ}

theorem shared (h : InPlace w) : Shared w := by
  have hheld : ∀ t, (w.held t).Sublist (w.has t) := fun t => sublist_append_left _ _
  refine ⟨h.bounded, ?_, h.dealt.free_nodup, h.blocks,
    fun t => (h.dealt.has_nodup t).sublist (hheld t),
    fun t u b ht hu => h.dealt.exclusive t u b ((hheld t).subset ht) ((hheld u).subset hu)⟩
  rw [RTMemPool.free, length_take, h.length, Nat.min_eq_left h.bounded]

theorem keep {pc : τ → Pc} {held : τ → List Nat} (h : InPlace w)
    (hsub : ∀ u, ((⟨w.pool, pc, held⟩ : Threads τ).has u).Subperm (w.has u)) :
    InPlace ⟨w.pool, pc, held⟩ :=
  ⟨h.length, h.small, h.bounded, h.dealt.sub hsub, h.blocks,
    fun u b hb => h.out u b ((hsub u).subset hb)⟩

variable [DecidableEq τ]

variable (h : InPlace w)
include h

theorem check (hpc : w.pc t = .idle) : InPlace { w with pc := update w.pc t .checked } := by
  refine h.keep fun u => ?_
  rcases eq_or_ne u t with rfl | hne
  · simp only [has, update_self, hpc]
    exact .refl _
  · simp only [has, update_of_ne hne]
    exact .refl _

theorem release (hpc : w.pc t = .idle) (hptr : ptr ∈ w.held t) :
    InPlace { w with
      held := update w.held t ((w.held t).erase ptr)
      pc := update w.pc t (.releasing ptr) } := by
  refine h.keep fun u => ?_
  rcases eq_or_ne u t with rfl | hne
  · simp only [has, update_self, hpc, append_nil]
    exact ((perm_append_singleton _ _).trans (perm_cons_erase hptr).symm).subperm
  · simp only [has, update_of_ne hne]
    exact .refl _

theorem drop (ptr : Nat) : InPlace { w with held := update w.held t ((w.held t).erase ptr) } := by
  refine h.keep fun u => ?_
  rcases eq_or_ne u t with rfl | hne
  · simp only [has, update_self]
    exact (erase_sublist.append_right _).subperm
  · simp only [has, update_of_ne hne]
    exact .refl _

theorem pop (hpc : w.pc t = .checked) (hpos : 0 < w.pool.freeCount) :
    ∃ pool block, w.pool.pop = some (pool, block) ∧
      InPlace ⟨pool, update w.pc t .idle, update w.held t (block :: w.held t)⟩ := by
  obtain ⟨block, hpop, hfree⟩ := RTMemPool.pop_spec h.length h.small h.bounded hpos
  have hblocks := h.blocks
  have hdealt := h.dealt
  rw [hfree] at hblocks hdealt
  have hhas : (⟨{ w.pool with freeCount := w.pool.freeCount - 1 }, update w.pc t .idle,
      update w.held t (block :: w.held t)⟩ : Threads τ).has =
        update w.has t (block :: w.has t) := by
    funext u
    rcases eq_or_ne u t with rfl | hne
    · simp [has, hpc]
    · simp only [has, update_of_ne hne]
  refine ⟨_, block, hpop, h.length, h.small, (Nat.sub_le _ _).trans h.bounded, ?_,
    fun b hb => hblocks b (mem_append_left _ hb), ?_⟩
  · rw [hhas]
    exact hdealt.deal t
  · rw [hhas]
    intro u b hb
    rcases eq_or_ne u t with rfl | hne
    · rw [update_self] at hb
      rcases mem_cons.mp hb with rfl | hb
      · exact hblocks b (mem_append_right _ (mem_singleton_self b))
      · exact h.out u b hb
    · rw [update_of_ne hne] at hb
      exact h.out u b hb

theorem push (hpc : w.pc t = .releasing ptr) :
    InPlace { w with pool := w.pool.push ptr, pc := update w.pc t .idle } := by
  have hsub : ∀ pool u,
      ((⟨pool, update w.pc t .idle, w.held⟩ : Threads τ).has u).Subperm (w.has u) := by
    intro pool u
    rcases eq_or_ne u t with rfl | hne
    · simp only [has, update_self, append_nil]
      exact (sublist_append_left _ _).subperm
    · simp only [has, update_of_ne hne]
      exact .refl _
  by_cases hroom : w.pool.freeCount < w.pool.blockCount
  · have hptr : ptr ∈ w.has t := by
      simp [has, hpc]
    have hgone : ptr ∉ (⟨w.pool.push ptr, update w.pc t .idle, w.held⟩ : Threads τ).has t := by
      have hnodup := h.dealt.has_nodup t
      simp only [has, hpc] at hnodup
      simp only [has, update_self, append_nil]
      exact fun hmem => (nodup_append.mp hnodup).2.2 ptr hmem ptr (mem_singleton_self ptr) rfl
    have hfree := RTMemPool.free_push h.length hroom ptr
    have hpool : w.pool.push ptr = { w.pool with
        freeBlocks := w.pool.freeBlocks.set w.pool.freeCount ptr
        freeCount := w.pool.freeCount + 1 } := if_pos hroom
    have hblock : ∀ b, (w.pool.push ptr).IsBlock b ↔ w.pool.IsBlock b := by
      intro b
      rw [hpool]
      rfl
    refine ⟨?_, ?_, ?_, ?_, ?_, ?_⟩
    · rw [hpool]
      exact length_set.trans h.length
    · rw [hpool]
      exact h.small
    · rw [hpool]
      exact hroom
    · rw [hfree]
      exact h.dealt.giveBack hptr (hsub _) hgone
    · intro b hb
      rw [hfree] at hb
      rw [hblock]
      rcases mem_append.mp hb with hb | hb
      · exact h.blocks b hb
      · obtain rfl := mem_singleton.mp hb
        exact h.out t b hptr
    · intro u b hb
      rw [hblock]
      exact h.out u b ((hsub _ u).subset hb)
  · rw [RTMemPool.push, if_neg hroom]
    exact h.keep (hsub _)

theorem step (hthere : StillThere w i) : ∃ w' o, Threads.step w i = some (w', o) ∧ InPlace w' := by
  unfold Threads.step
  split
  case h_1 hpc =>
    split
    · exact ⟨w, _, rfl, h⟩
    · exact ⟨_, _, rfl, h.check hpc⟩
  case h_2 haction hpc =>
    obtain ⟨pool, block, hpop, hnext⟩ := h.pop hpc (hthere haction hpc)
    rw [hpop]
    exact ⟨_, _, rfl, hnext⟩
  case h_3 ptr _ hpc =>
    split
    case isTrue hptr =>
      split
      · exact ⟨_, _, rfl, h.release hpc hptr⟩
      · exact ⟨_, _, rfl, h.drop ptr⟩
    case isFalse => exact ⟨w, _, rfl, h⟩
  case h_4 ptr _ hpc => exact ⟨_, _, rfl, h.push hpc⟩
  case h_5 => exact ⟨w, _, rfl, h⟩

theorem stillThere {w' : Threads τ} {o : Option (Option Nat)}
    (hstep : Threads.step w i = some (w', o)) : StillThere w i := by
  obtain ⟨t, action⟩ := i
  intro haction hpc
  refine Nat.pos_of_ne_zero fun hzero => ?_
  subst haction
  simp [Threads.step, hpc, RTMemPool.pop_empty h.length h.small hzero] at hstep

end InPlace

theorem inPlace_of_create {blockSize blockCount memory : Nat} {pool : RTMemPool}
    (hcreate : RTMemPool.create blockSize blockCount (some memory) = some pool)
    (hpos : 0 < pool.blockSize)
    (hfits : memory + blockCount * pool.blockSize < 18446744073709551616) :
    InPlace (start τ pool) := by
  obtain ⟨-, hcount, hall, -⟩ := RTMemPool.create_spec hcreate
  obtain ⟨hlength, hfree⟩ := RTMemPool.free_create hcreate hfits
  have hsmall : blockCount ≤ blockCount * pool.blockSize := Nat.le_mul_of_pos_right _ hpos
  refine ⟨hlength, ?_, ?_, ?_, fun b hb => ?_, nofun⟩
  · show pool.blockCount < _
    omega
  · exact (hall.trans hcount.symm).le
  · exact Dealt.init (hfree ▸ RTMemPool.nodup_blocks hpos)
  · exact RTMemPool.mem_blocks.mp (hfree ▸ hb)

/-- **The pool, over every interleaving.** It is `Shared` all the way exactly in the runs where
every thread that has passed the emptiness test still finds a block when it gets the lock. -/
theorem pool_shared_iff {blockSize blockCount memory : Nat} {pool : RTMemPool}
    (hcreate : RTMemPool.create blockSize blockCount (some memory) = some pool)
    (hpos : 0 < pool.blockSize)
    (hfits : memory + blockCount * pool.blockSize < 18446744073709551616)
    [DecidableEq τ] (actions : List (τ × Action)) :
    Throughout step Shared (start τ pool) actions ↔
      Along step StillThere (start τ pool) actions := by
  refine throughout_iff_along InPlace (fun _ h => h.shared) ?_ ?_ actions (fun _ _ => trivial)
    (inPlace_of_create hcreate hpos hfits)
  · intro w i _ h
    constructor
    · intro hthere
      obtain ⟨w', o, hstep, hnext⟩ := h.step hthere
      exact ⟨w', o, hstep, hnext.shared⟩
    · rintro ⟨w', o, hstep, -⟩
      exact h.stillThere hstep
  · intro w i w' o _ h hthere hstep
    obtain ⟨w₁, o₁, hstep₁, hnext⟩ := h.step hthere
    cases hstep₁.symm.trans hstep
    exact hnext

def oneBlock : RTMemPool := ⟨4096, [4096], 64, 1, 1⟩

theorem pool_shared_in_turn :
    RTMemPool.create 16 1 (some 4096) = some oneBlock ∧
      Throughout step Shared (start Bool oneBlock)
        [(false, .check), (false, .pop), (true, .check), (false, .release 4096), (false, .push),
          (true, .check), (true, .pop)] := by
  have hcreate : RTMemPool.create 16 1 (some 4096) = some oneBlock := by decide
  exact ⟨hcreate, (pool_shared_iff hcreate (by decide) (by decide) _).mpr (by decide)⟩

/-- Two threads see the last block; the second to get the lock reads outside the list. -/
theorem last_block_taken_twice :
    RTMemPool.create 16 1 (some 4096) = some oneBlock ∧
      (∃ w os, run step (start Bool oneBlock) [(false, .check), (true, .check), (false, .pop)] =
        some (w, os) ∧ w.pool.freeCount = 0 ∧ step w (true, .pop) = none) ∧
      ¬ Throughout step Shared (start Bool oneBlock)
        [(false, .check), (true, .check), (false, .pop), (true, .pop)] := by
  refine ⟨by decide, ⟨_, _, rfl, rfl, rfl⟩, fun h => ?_⟩
  obtain ⟨w, os, hrun, -⟩ := h.run
  cases hrun

end Threads

end Cant.Memory
