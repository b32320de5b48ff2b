/-
# `RtClient` — one client of the pool, who may free anything (`rt_memory.c`)

`rt_mempool_free` takes back every address in the memory of the pool as long as its list is not
full: the middle of a block, or a block that is in the list already. Such an address is handed out
sooner or later (`drained`), so `allocated_fresh_iff` asks what happens if the client stops
somewhere and takes all that is left.
-/
import Cant.Memory.RtMemory

namespace Cant.Memory

open Run Word List

namespace RTMemPool

def mempoolAlloc (pool : RTMemPool) : Option (RTMemPool × Option Nat) :=
  if pool.freeCount = 0 then some (pool, none)
  else pool.pop.map fun (pool, block) => (pool, some block)

/-- `rt_mempool_free`; `none` is a null pointer. -/
def mempoolFree (pool : RTMemPool) : Option Nat → RTMemPool
  | none => pool
  | some ptr => if pool.inRange ptr then pool.push ptr else pool

end RTMemPool

/-- The pool, and what its client has been handed out and has not given back. -/
structure RtClient where
  pool : RTMemPool
  out : List Nat

namespace RtClient

inductive Call where
  | alloc | free (ptr : Option Nat)

def step (c : RtClient) : Call → Option (RtClient × Option Nat)
  | .alloc => c.pool.mempoolAlloc.map fun (pool, block) => (⟨pool, block.toList ++ c.out⟩, block)
  | .free none => some (⟨c.pool.mempoolFree none, c.out⟩, none)
  | .free (some ptr) => some (⟨c.pool.mempoolFree (some ptr), c.out.erase ptr⟩, none)

def start (pool : RTMemPool) : RtClient := ⟨pool, []⟩

def Fresh (c : RtClient) (call : Call) : Prop :=
  ∃ c' o, step c call = some (c', o) ∧ ∀ block ∈ o, c.pool.IsBlock block ∧ block ∉ c.out

def Returned (c : RtClient) (call : Call) : Prop :=
  ∀ ptr, call = .free (some ptr) → c.pool.inRange ptr = true →
    c.pool.freeCount < c.pool.blockCount → ptr ∈ c.out

/-! ## Taking all that is left -/

/-- The list is as long as it should be. -/
structure Sized (pool : RTMemPool) : Prop where
  length : pool.freeBlocks.length = pool.blockCount
  small : pool.blockCount < 18446744073709551616
  bounded : pool.freeCount ≤ pool.blockCount

section

variable {c c' : RtClient} {ptr : Nat}

theorem Sized.push (h : Sized c.pool) (ptr : Nat) : Sized (c.pool.push ptr) := by
  unfold RTMemPool.push
  split
  case isTrue hroom => exact ⟨length_set.trans h.length, h.small, hroom⟩
  case isFalse => exact h

theorem step_alloc (h : Sized c.pool) (hpos : 0 < c.pool.freeCount) :
    ∃ block, step c .alloc =
        some (⟨{ c.pool with freeCount := c.pool.freeCount - 1 }, block :: c.out⟩, some block) ∧
      c.pool.free = ({ c.pool with freeCount := c.pool.freeCount - 1 } : RTMemPool).free ++
        [block] := by
  obtain ⟨block, hpop, hfree⟩ := RTMemPool.pop_spec h.length h.small h.bounded hpos
  refine ⟨block, ?_, hfree⟩
  rw [step, RTMemPool.mempoolAlloc, if_neg hpos.ne', hpop]
  rfl

/-- If all that is left is handed out as it should be, the list has blocks that are not handed
out, each once. -/
theorem drained (h : Sized c.pool)
    (hall : Along step Fresh c (List.replicate c.pool.freeCount .alloc)) :
    c.pool.free.Nodup ∧ ∀ b ∈ c.pool.free, c.pool.IsBlock b ∧ b ∉ c.out := by
  generalize hn : c.pool.freeCount = n at hall
  induction n generalizing c with
  | zero =>
    have hnil : c.pool.free = [] := by
      rw [RTMemPool.free, hn, take_zero]
    rw [hnil]
    exact ⟨nodup_nil, fun b hb => absurd hb not_mem_nil⟩
  | succ n ih =>
    obtain ⟨block, hstep, hfree⟩ := step_alloc h (hn ▸ Nat.succ_pos n)
    obtain ⟨⟨c', o, hstep', hfresh⟩, hrest⟩ := hall
    cases hstep.symm.trans hstep'
    obtain ⟨hblock, hout⟩ := hfresh block rfl
    have hsized : Sized { c.pool with freeCount := c.pool.freeCount - 1 } :=
      ⟨h.length, h.small, (Nat.sub_le _ _).trans h.bounded⟩
    obtain ⟨hnodup, hblocks⟩ := ih hsized (by rw [hn]; rfl) (hrest _ _ hstep)
    rw [hfree]
    constructor
    · refine nodup_append.mpr ⟨hnodup, nodup_singleton block, ?_⟩
      rintro b hb _ hblock rfl
      exact (hblocks b hb).2 (mem_singleton.mp hblock ▸ .head _)
    · intro b hb
      rcases mem_append.mp hb with hb | hb
      · exact ⟨(hblocks b hb).1, fun hmem => (hblocks b hb).2 (.tail _ hmem)⟩
      · obtain rfl := mem_singleton.mp hb
        exact ⟨hblock, hout⟩

/-! ## Every block in one place -/

/-- The free list and what is handed out are together the blocks of the pool. -/
structure Whole (c : RtClient) : Prop where
  sized : Sized c.pool
  size : 0 < c.pool.blockSize
  fits : c.pool.memory + c.pool.blockCount * c.pool.blockSize < 18446744073709551616
  all : (c.pool.free ++ c.out).Perm c.pool.blocks

namespace Whole

variable (h : Whole c)
include h

theorem accepts (hptr : ptr ∈ c.out) :
    c.pool.inRange ptr = true ∧ c.pool.freeCount < c.pool.blockCount := by
  obtain ⟨i, hi, rfl⟩ := RTMemPool.mem_blocks.mp (h.all.subset (mem_append_right _ hptr))
  constructor
  · have hnext := Nat.mul_le_mul_right c.pool.blockSize (Nat.succ_le_of_lt hi)
    have hsize := h.size
    have hend := u64_of_lt h.fits
    rw [Nat.succ_mul] at hnext
    push_cast at hend
    rw [RTMemPool.inRange, Bool.not_eq_true', Bool.or_eq_false_iff, decide_eq_false_iff_not,
      decide_eq_false_iff_not]
    omega
  · have hlength := h.all.length_eq
    have hout := length_pos_of_mem hptr
    rw [length_append, RTMemPool.free, length_take, h.sized.length,
      RTMemPool.blocks, length_map, length_range] at hlength
    omega

theorem alloc :
    ∃ c' o, step c .alloc = some (c', o) ∧ Whole c' ∧
      ∀ block ∈ o, c.pool.IsBlock block ∧ block ∉ c.out := by
  rcases Nat.eq_zero_or_pos c.pool.freeCount with hzero | hpos
  · exact ⟨c, none, by rw [step, RTMemPool.mempoolAlloc, if_pos hzero]; rfl, h, nofun⟩
  · obtain ⟨block, hstep, hfree⟩ := step_alloc h.sized hpos
    refine ⟨_, some block, hstep, ⟨⟨h.sized.length, h.sized.small,
      (Nat.sub_le _ _).trans h.sized.bounded⟩, h.size, h.fits, ?_⟩, ?_⟩
    · have hall := h.all
      rwa [hfree, append_assoc] at hall
    · rintro _ ⟨⟩
      have hmem : block ∈ c.pool.free := by
        rw [hfree]
        exact mem_append_right _ (mem_singleton_self block)
      refine ⟨RTMemPool.mem_blocks.mp (h.all.subset (mem_append_left _ hmem)), ?_⟩
      have hnodup := h.all.nodup_iff.mpr (RTMemPool.nodup_blocks h.size)
      exact fun hout => (nodup_append.mp hnodup).2.2 block hmem block hout rfl

theorem free (ptr : Nat) (hreturned : Returned c (.free (some ptr))) :
    Whole ⟨c.pool.mempoolFree (some ptr), c.out.erase ptr⟩ := by
  by_cases hptr : ptr ∈ c.out
  · obtain ⟨hrange, hroom⟩ := h.accepts hptr
    have hfree := RTMemPool.free_push h.sized.length hroom ptr
    have hpush : c.pool.push ptr = { c.pool with
        freeBlocks := c.pool.freeBlocks.set c.pool.freeCount ptr
        freeCount := c.pool.freeCount + 1 } := if_pos hroom
    have hsized := h.sized.push ptr
    rw [RTMemPool.mempoolFree, if_pos hrange]
    have hperm : ((c.pool.push ptr).free ++ c.out.erase ptr).Perm c.pool.blocks := by
      rw [hfree, append_assoc]
      exact ((perm_cons_erase hptr).symm.append_left _).trans h.all
    rw [hpush] at hsized hperm ⊢
    exact ⟨hsized, h.size, h.fits, hperm⟩
  · have hsame : c.pool.mempoolFree (some ptr) = c.pool := by
      by_cases hrange : c.pool.inRange ptr = true
      · refine (if_pos hrange).trans (if_neg ?_)
        exact fun hroom => hptr (hreturned ptr rfl hrange hroom)
      · exact if_neg hrange
    rw [hsame, erase_of_not_mem hptr]
    exact h

theorem step {call : Call} (hreturned : Returned c call) :
    ∃ c' o, RtClient.step c call = some (c', o) ∧ Whole c' ∧
      ∀ block ∈ o, c.pool.IsBlock block ∧ block ∉ c.out := by
  match call with
  | .alloc => exact h.alloc
  | .free none => exact ⟨c, none, rfl, h, nofun⟩
  | .free (some ptr) =>
    exact ⟨_, none, rfl, h.free ptr hreturned, nofun⟩

theorem fresh {calls : List Call} (hreturned : Along RtClient.step Returned c calls) :
    Along RtClient.step Fresh c calls := by
  induction calls generalizing c with
  | nil => trivial
  | cons call rest ih =>
    obtain ⟨c', o, hstep, hnext, hfresh⟩ := h.step hreturned.1
    refine (along_cons_of hstep).mpr ⟨⟨c', o, hstep, hfresh⟩, ?_⟩
    exact ih hnext (hreturned.2 c' o hstep)

theorem returned {call : Call}
    (hdrained : ∀ n, Along RtClient.step Fresh c (call :: List.replicate n .alloc)) :
    Returned c call := by
  rintro ptr rfl hrange hroom
  have hpush : c.pool.mempoolFree (some ptr) = c.pool.push ptr := if_pos hrange
  have hstep : RtClient.step c (.free (some ptr)) =
      some (⟨c.pool.push ptr, c.out.erase ptr⟩, none) := by
    rw [RtClient.step, hpush]
  obtain ⟨hnodup, hblocks⟩ := drained (c := ⟨c.pool.push ptr, c.out.erase ptr⟩) (h.sized.push ptr)
    (((along_cons_of hstep).mp (hdrained _)).2)
  have hfree := RTMemPool.free_push h.sized.length hroom ptr
  have hmem : ptr ∈ (c.pool.push ptr).free := by
    rw [hfree]
    exact mem_append_right _ (mem_singleton_self ptr)
  have hblock : c.pool.IsBlock ptr := by
    have hblock := (hblocks ptr hmem).1
    rwa [RTMemPool.push, if_pos hroom] at hblock
  rcases mem_append.mp (h.all.mem_iff.mpr (RTMemPool.mem_blocks.mpr hblock)) with hold | hout
  · have hnodup' : (c.pool.free ++ [ptr]).Nodup := hfree ▸ hnodup
    exact absurd rfl ((nodup_append.mp hnodup').2.2 ptr hold ptr (mem_singleton_self ptr))
  · exact hout

end Whole

theorem whole_start {blockSize blockCount memory : Nat} {pool : RTMemPool}
    (hcreate : RTMemPool.create blockSize blockCount (some memory) = some pool)
    (hpos : 0 < pool.blockSize)
    (hfits : memory + blockCount * pool.blockSize < 18446744073709551616) : Whole (start pool) := by
  obtain ⟨-, hcount, hall, hmemory⟩ := RTMemPool.create_spec hcreate
  obtain ⟨hlength, hfree⟩ := RTMemPool.free_create hcreate hfits
  have hsmall : blockCount ≤ blockCount * pool.blockSize := Nat.le_mul_of_pos_right _ hpos
  refine ⟨⟨hlength, ?_, (hall.trans hcount.symm).le⟩, hpos, ?_, ?_⟩
  · show pool.blockCount < _
    omega
  · show pool.memory + pool.blockCount * pool.blockSize < _
    rwa [hmemory, hcount]
  · show (pool.free ++ []).Perm pool.blocks
    rw [append_nil, hfree]

theorem along_replicate_alloc (n : Nat) : ∀ c : RtClient,
    Along step Returned c (List.replicate n .alloc) := by
  induction n with
  | zero => exact fun _ => trivial
  | succ n ih =>
    intro c
    refine ⟨?_, fun c' _ _ => ih c'⟩
    rintro ptr ⟨⟩

/-- **What the pool hands out.** Wherever the client stops and takes all that is left, every
pointer it gets is the start of a block that is not handed out, exactly in the runs where the pool
takes back only blocks that are. -/
theorem allocated_fresh_iff {blockSize blockCount memory : Nat} {pool : RTMemPool}
    (hcreate : RTMemPool.create blockSize blockCount (some memory) = some pool)
    (hpos : 0 < pool.blockSize)
    (hfits : memory + blockCount * pool.blockSize < 18446744073709551616) (calls : List Call) :
    (∀ before, before <+: calls → ∀ n,
        Along step Fresh (start pool) (before ++ List.replicate n .alloc)) ↔
      Along step Returned (start pool) calls := by
  have hstart := whole_start hcreate hpos hfits
  generalize start pool = c at hstart ⊢
  induction calls generalizing c with
  | nil =>
    refine iff_of_true ?_ trivial
    intro before hbefore n
    rw [prefix_nil.mp hbefore]
    exact hstart.fresh (along_replicate_alloc n c)
  | cons call rest ih =>
    constructor
    · intro hall
      have hreturned : Returned c call :=
        hstart.returned fun n => hall [call] (prefix_append [call] rest) n
      obtain ⟨c', o, hstep, hnext, -⟩ := hstart.step hreturned
      refine (along_cons_of hstep).mpr ⟨hreturned, (ih c' hnext).mp ?_⟩
      intro before hbefore n
      have hlonger := hall (call :: before) (cons_prefix_cons.mpr ⟨rfl, hbefore⟩) n
      exact ((along_cons_of hstep).mp hlonger).2
    · intro hreturned before hbefore n
      obtain ⟨c', o, hstep, hnext, hfresh⟩ := hstart.step hreturned.1
      cases before with
      | nil => exact hstart.fresh (along_replicate_alloc n c)
      | cons first before =>
        obtain ⟨rfl, hrest⟩ := cons_prefix_cons.mp hbefore
        refine (along_cons_of hstep).mpr ⟨⟨c', o, hstep, hfresh⟩, ?_⟩
        exact (ih c' hnext).mpr (hreturned.2 c' o hstep) before hrest n

def twoBlocks : RTMemPool := ⟨4096, [4096, 4160], 64, 2, 2⟩

theorem allocated_fresh_in_turn :
    RTMemPool.create 64 2 (some 4096) = some twoBlocks ∧
      Along step Fresh (start twoBlocks)
        ([.alloc, .free (some 4160), .free (some 9000), .alloc] ++ List.replicate 2 .alloc) := by
  have hcreate : RTMemPool.create 64 2 (some 4096) = some twoBlocks := by decide
  refine ⟨hcreate, (allocated_fresh_iff hcreate (by decide) (by decide) _).mpr ?_ _
    (prefix_refl _) 2⟩
  refine (along_cons_of rfl).mpr ⟨?_, (along_cons_of rfl).mpr ⟨?_, (along_cons_of rfl).mpr ⟨?_,
    along_replicate_alloc 1 _⟩⟩⟩
  · rintro ptr ⟨⟩
  · rintro ptr ⟨⟩ - -
    exact mem_singleton_self 4160
  · rintro ptr ⟨⟩ hrange -
    cases hrange

theorem not_isBlock_middle : ¬ twoBlocks.IsBlock 4161 := by
  rintro ⟨i, -, heq⟩
  have hsize : (65 : Nat) = i * 64 := Nat.add_left_cancel (n := 4096) heq
  omega

/-- A pointer into the middle of a block comes out again, and so does, twice, a block that was
freed twice. -/
theorem freed_pointer_handed_out :
    RTMemPool.create 64 2 (some 4096) = some twoBlocks ∧
      (∃ c, run step (start twoBlocks) [.alloc, .free (some 4161), .alloc] =
        some (c, [some 4160, none, some 4161])) ∧
      ¬ Along step Fresh (start twoBlocks) [.alloc, .free (some 4161), .alloc] ∧
      (∃ c, run step (start twoBlocks)
        [.alloc, .alloc, .free (some 4160), .free (some 4160), .alloc, .alloc] =
          some (c, [some 4160, some 4096, none, none, some 4160, some 4160])) ∧
      ¬ Along step Fresh (start twoBlocks)
        [.alloc, .alloc, .free (some 4160), .free (some 4160), .alloc, .alloc] := by
  refine ⟨by decide, ⟨_, rfl⟩, fun h => ?_, ⟨_, rfl⟩, fun h => ?_⟩
  · have h₁ := ((along_cons_of rfl).mp h).2
    have h₂ := ((along_cons_of rfl).mp h₁).2
    obtain ⟨c, o, hstep, hfresh⟩ := h₂.1
    cases hstep
    exact not_isBlock_middle (hfresh 4161 rfl).1
  · have h₁ := ((along_cons_of rfl).mp h).2
    have h₂ := ((along_cons_of rfl).mp h₁).2
    have h₃ := ((along_cons_of rfl).mp h₂).2
    have h₄ := ((along_cons_of rfl).mp h₃).2
    have h₅ := ((along_cons_of rfl).mp h₄).2
    obtain ⟨c, o, hstep, hfresh⟩ := h₅.1
    cases hstep
    exact (hfresh 4160 rfl).2 mem_cons_self

end

end RtClient

end Cant.Memory
