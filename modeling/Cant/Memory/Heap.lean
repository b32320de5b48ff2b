/-
# `Heap` — what the calls do to the heap

The walks along the list end, since the blocks lie apart in a finite heap
(`Linked.length_le`), and find what the list says. From that and from the four
changes of `Cant.Memory.Blocks` come the heap halves of the interface:

    allocFromHeap     a free block is taken, split if there is room    (`Rep.allocFromHeap`)
    freeBlock         the block is given back and merged               (`Rep.freeBlock`)
    resize in place   the block is split, or grown and split           (`Rep.shrink`, `Rep.grow`)
    defragment        neighbouring free blocks become one              (`Rep.defragment`)

`split_block` computes `remaining` without checking that it does not borrow, so
the two calls that split need a block of at least `size + BLOCK_OVERHEAD` bytes;
that is the hypothesis `size + 52 ≤ _` throughout.
-/
import Cant.Memory.Blocks

namespace Cant.Memory

open Word List

variable {m : Mem} {hi prev lo : Nat} {b c : Blk} {pre post bs bs' : List Blk}

/-! ## Walks -/

theorem Linked.length_le : ∀ {bs : List Blk} {prev lo : Nat}, Linked m hi prev lo bs →
    lo + 52 * bs.length ≤ hi
  | [], _, _, h => h
  | b :: bs, _, lo, h => by
    have hrest := h.2.2.length_le
    have hlo : lo ≤ b.addr := h.1
    rw [length_cons]
    unfold Blk.stop at hrest
    omega

variable {fuel : Nat}

theorem Linked.walk (h : Linked m hi prev lo (b :: bs)) (hlo : 0 < lo)
    (hfuel : (b :: bs).length < fuel) :
    b.addr ≠ 0 ∧ 0 < b.stop ∧ ∃ rest, fuel = rest + 1 ∧ bs.length < rest := by
  have hb : lo ≤ b.addr := h.1
  rw [length_cons] at hfuel
  refine ⟨by omega, by unfold Blk.stop; omega, fuel - 1, by omega, by omega⟩

section

variable (h : Linked m hi prev lo bs)
include h

theorem Linked.blocksFrom (hlo : 0 < lo) (hfuel : bs.length < fuel) :
    MemoryManager.blocksFrom m fuel (headAddr bs) = some bs := by
  induction bs generalizing prev lo fuel with
  | nil =>
    obtain ⟨fuel, rfl⟩ := Nat.exists_eq_add_of_lt hfuel
    rfl
  | cons b bs ih =>
    obtain ⟨hne, hstop, fuel, rfl, hlt⟩ := h.walk hlo hfuel
    obtain ⟨-, hat, hrest⟩ := h
    have hwalk := ih hrest hstop hlt
    rw [headAddr, MemoryManager.blocksFrom, if_neg hne, hat.next, hwalk, hat.size, hat.used_eq]
    rfl

/-- `find_best_fit` ends, with the best block so far or with a free block of the
list that is large enough. -/
theorem Linked.bestFitFrom (hlo : 0 < lo) (hfuel : bs.length < fuel) (size best bestSize : Nat) :
    ∃ r, MemoryManager.bestFitFrom m size fuel (headAddr bs) best bestSize = some r ∧
      (r = best ∨ ∃ b ∈ bs, b.addr = r ∧ b.used = false ∧ size ≤ b.size) := by
  induction bs generalizing prev lo fuel best bestSize with
  | nil =>
    obtain ⟨fuel, rfl⟩ := Nat.exists_eq_add_of_lt hfuel
    exact ⟨best, rfl, .inl rfl⟩
  | cons b bs ih =>
    obtain ⟨hne, hstop, fuel, rfl, hlt⟩ := h.walk hlo hfuel
    obtain ⟨-, hat, hrest⟩ := h
    rw [headAddr, MemoryManager.bestFitFrom, if_neg hne, hat.next, hat.size, hat.used_eq]
    split
    · next hfit =>
      have hhere : ∃ c ∈ b :: bs, c.addr = b.addr ∧ c.used = false ∧ size ≤ c.size :=
        ⟨b, .head _, rfl, Bool.eq_false_of_not_eq_true hfit.1, hfit.2.1⟩
      split
      · exact ⟨b.addr, rfl, .inr hhere⟩
      · obtain ⟨r, hr, hcase⟩ := ih hrest hstop hlt b.addr b.size
        refine ⟨r, hr, .inr ?_⟩
        rcases hcase with rfl | ⟨c, hc, hcr⟩
        · exact hhere
        · exact ⟨c, mem_cons_of_mem b hc, hcr⟩
    · obtain ⟨r, hr, hcase⟩ := ih hrest hstop hlt best bestSize
      refine ⟨r, hr, hcase.imp id ?_⟩
      rintro ⟨c, hc, hcr⟩
      exact ⟨c, mem_cons_of_mem b hc, hcr⟩

theorem Linked.freeFigures (hlo : 0 < lo) (hfuel : bs.length < fuel) (totalFree largestFree : Nat) :
    (MemoryManager.freeFigures m fuel (headAddr bs) totalFree largestFree).isSome := by
  induction bs generalizing prev lo fuel totalFree largestFree with
  | nil =>
    obtain ⟨fuel, rfl⟩ := Nat.exists_eq_add_of_lt hfuel
    rfl
  | cons b bs ih =>
    obtain ⟨hne, hstop, fuel, rfl, hlt⟩ := h.walk hlo hfuel
    obtain ⟨-, hat, hrest⟩ := h
    rw [headAddr, MemoryManager.freeFigures, if_neg hne, hat.next]
    split
    · exact ih hrest hstop hlt totalFree largestFree
    · exact ih hrest hstop hlt _ _

end

namespace MemoryManager

variable {block : Nat} {p q : Prop}
variable {s t u : MemoryManager}

theorem Rep.length_lt (h : Rep s bs) : bs.length < walkFuel := by
  have hlen := h.linked.length_le
  have hsize := h.size
  show bs.length < 18446744073709551616
  omega

theorem Rep.blocks (h : Rep s bs) : s.blocks = some bs := by
  have hwalk := h.linked.blocksFrom h.heap h.length_lt
  rwa [← h.first] at hwalk

theorem Rep.findBestFit (h : Rep s bs) (size : Nat) :
    ∃ r, s.findBestFit size = some r ∧
      (r = 0 ∨ ∃ b ∈ bs, b.addr = r ∧ b.used = false ∧ size ≤ b.size) := by
  have hwalk := h.linked.bestFitFrom h.heap h.length_lt size 0 0xFFFFFFFF
  rwa [← h.first] at hwalk

theorem Rep.getStats (h : Rep s bs) (hinit : s.initialized = true) :
    ∃ fragmentation, s.getStats = some (some (s.stats, fragmentation)) := by
  have hwalk := h.linked.freeFigures h.heap h.length_lt 0 0
  rw [← h.first] at hwalk
  obtain ⟨⟨totalFree, largestFree⟩, hfigures⟩ := Option.isSome_iff_exists.mp hwalk
  rw [MemoryManager.getStats, if_neg (not_not.mpr hinit), hfigures]
  exact ⟨_, rfl⟩

/-! ## Allocation -/

/-- The split in the heap part of `Memory_Alloc` does not borrow. -/
def HeapFits (s : MemoryManager) (size : Nat) : Prop :=
  ∀ block ∈ s.findBestFit size, block ≠ 0 → size + 52 ≤ blkSize s.mem block

/-- If it takes a block, guards are enabled; if it splits that block, the block is
the last one, and more than a header and a footer is left behind. -/
def HeapStrict (s : MemoryManager) (size : Nat) : Prop :=
  ∀ block ∈ s.findBestFit size, block ≠ 0 → s.config.enableGuards = true ∧
    (size + 104 ≤ blkSize s.mem block →
      blkNext s.mem block = 0 ∧ size + 104 < blkSize s.mem block)
  deriving Decidable

/-- `b` was free and has been taken from the heap for `size` bytes. -/
structure Took (s t : MemoryManager) (bs bs' : List Blk) (b : Blk) (size : Nat) : Prop where
  rep : Rep t bs'
  step : HeapStep s t bs bs' b.addr
  mem : b ∈ bs'
  used : b.used = true
  fits : size ≤ b.size
  fresh : ∀ c ∈ bs, c.used = true → c.addr ≠ b.addr
  guarded : s.config.enableGuards = true → b.Guarded t.mem

theorem headAddr_eq_zero (h : Rep s (pre ++ b :: post)) (hz : headAddr post = 0) : post = [] := by
  by_contra hne
  exact (h.behind []).2.1 hne hz

variable {size : Nat}

theorem Rep.allocFromHeap (h : Rep s bs) (hok : s.HeapFits size) (file line lo : Nat) :
    ∃ t ptr, s.allocFromHeap size file line = some (t, ptr) ∧
      (ptr = 0 ∧ t = s ∨ ∃ bs' b, Took s t bs bs' b size ∧ ptr = b.addr + 48 ∧
        (s.findBestFit size = some b.addr ∧ b.size = splitSize (blkSize s.mem b.addr) size) ∧
        (0 < size → s.HeapStrict size →
          s.config.enableGuards = true ∧ (Snug lo bs → Snug lo bs'))) := by
  obtain ⟨r, hr, hcase⟩ := h.findBestFit size
  unfold MemoryManager.allocFromHeap
  simp only [hr, Option.bind_eq_bind, Option.bind_some]
  split
  · exact ⟨s, 0, rfl, .inl ⟨rfl, rfl⟩⟩
  next hne =>
  obtain ⟨c, hc, rfl, hfree, -⟩ := hcase.resolve_left hne
  obtain ⟨pre, post, rfl⟩ := append_of_mem hc
  obtain ⟨-, hat, -⟩ := h.linked.drop
  have hfit : size + 52 ≤ c.size := hat.size ▸ hok _ hr hne
  obtain ⟨post', ⟨hrep, hstep⟩, -, hsnug⟩ := h.trySplit hfit lo
  obtain ⟨⟨hrep', hstep'⟩, hguard⟩ := hrep.setupBlock file line
  refine ⟨_, _, rfl, .inr ⟨_, { c with size := splitSize c.size size, used := true },
    ⟨hrep'.record _, (hstep.trans hstep').trans (HeapStep.record _ _ _ _),
      mem_append_right _ mem_cons_self, rfl, ?_, fun d hd hu heq => ?_, fun hg => ?_⟩,
    rfl, ⟨rfl, by rw [hat.size]⟩, fun hpos hstrict => ⟨(hstrict _ hr hne).1, fun hs => ?_⟩⟩⟩
  · exact (splitSize_bounds (by omega)).1
  · rw [h.unique hd hc heq] at hu
    cases hfree.symm.trans hu
  · rw [(record_static _ _).2.2.2]
    exact hguard (by rw [hstep.config]; exact hg)
  · have hsnug' := hsnug hpos (fun hroom => ?_) hs
    · exact hsnug'.setUsed
    · obtain ⟨hnext, hlt⟩ := (hstrict _ hr hne).2 (by rw [hat.size]; exact hroom)
      rw [hat.next] at hnext
      rw [hat.size] at hlt
      exact ⟨headAddr_eq_zero h hnext, hlt⟩

/-! ## Giving back -/

theorem Rep.blockAt (h : Rep s bs) (hb : b ∈ bs) : ∃ p n, BlockAt s.mem b p n := by
  obtain ⟨pre, post, rfl⟩ := append_of_mem hb
  obtain ⟨-, hat, -⟩ := h.linked.drop
  exact ⟨_, _, hat⟩

theorem Rep.isValidBlock (h : Rep s bs) (hb : b ∈ bs) (hpos : 0 < b.size) :
    s.isValidBlock b.addr = true := by
  obtain ⟨_, _, hat⟩ := h.blockAt hb
  have hbounds := h.linked.bounds hb
  have hheap := h.heap
  have hstop := b.stop_eq
  refine decide_eq_true ⟨by omega, by omega, by omega, ?_, ?_⟩
  · rw [hat.size]; omega
  · rw [hat.size]; omega

theorem Rep.checkBlockGuards (h : Rep s bs) (hb : b ∈ bs) (hg : s.config.enableGuards = true)
    (hguard : b.Guarded s.mem) : s.checkBlockGuards b.addr = true := by
  obtain ⟨_, _, hat⟩ := h.blockAt hb
  refine decide_eq_true ⟨hg, Nat.ne_of_gt (h.pos hb), hguard.1, ?_⟩
  rw [hat.size]
  exact hguard.2

/-- A free block of the list holds all of `b`. -/
def Covered (bs : List Blk) (b : Blk) : Prop :=
  ∃ c ∈ bs, c.used = false ∧ c.addr ≤ b.addr ∧ b.stop ≤ c.stop

theorem Rep.giveBack (h : Rep s bs) (hb : b ∈ bs) (lo : Nat) :
    ∃ bs', Rep (((s.clearBlock b.addr).mergeNext b.addr).mergePrev b.addr) bs' ∧
      HeapStep s (((s.clearBlock b.addr).mergeNext b.addr).mergePrev b.addr) bs bs' b.addr ∧
      (Snug lo bs → Snug lo bs' ∧ Covered bs' b) := by
  obtain ⟨pre, post, rfl⟩ := append_of_mem hb
  obtain ⟨hrep, hstep⟩ := h.clearBlock
  obtain ⟨b', post', ⟨hrep', hstep'⟩, ⟨haddr, hfree, hsize⟩, hsnug'⟩ :=
    hrep.mergeNext rfl b.addr lo
  obtain ⟨bs', ⟨hrep'', hstep''⟩, hsnug''⟩ := hrep'.mergePrev hfree b.addr lo
  rw [haddr] at hrep'' hstep'' hsnug''
  refine ⟨bs', hrep'', (hstep.trans hstep').trans hstep'', fun hs => ?_⟩
  obtain ⟨hs'', c, hc, hcfree, hca, hcs⟩ := hsnug'' (hsnug' hs.setUsed)
  refine ⟨hs'', c, hc, hcfree, hca, Nat.le_trans ?_ hcs⟩
  rw [Blk.stop, Blk.stop, haddr]
  exact Nat.add_le_add_left hsize _

theorem freeBlock_accepted (hvalid : s.isValidBlock block = true)
    (hused : blkUsed s.mem block = true) (hguards : s.checkBlockGuards block = true) :
    s.freeBlock block = ((((s.record (·.freed (blkSize s.mem block))).clearBlock block).mergeNext
      block).mergePrev block, .freed) := by
  simp [freeBlock, hvalid, hused, hguards]

theorem freeBlock_rejected (h : ¬ (s.isValidBlock block = true ∧
    blkUsed s.mem block = true ∧ s.checkBlockGuards block = true)) :
    (s.freeBlock block).1 = s := by
  unfold freeBlock
  split
  · rfl
  next hvalid =>
  split
  · rfl
  next hused =>
  split
  · rfl
  next hguards =>
  exact absurd ⟨not_not.mp hvalid, not_not.mp hused, not_not.mp hguards⟩ h

/-- **`Memory_Free` of a heap block**: it is given back or nothing happens; a used
block whose guards are in place is given back. -/
theorem Rep.freeBlock (h : Rep s bs) (hb : b ∈ bs) (lo : Nat) :
    ∃ bs', Rep (s.freeBlock b.addr).1 bs' ∧ HeapStep s (s.freeBlock b.addr).1 bs bs' b.addr ∧
      (b.used = true → s.config.enableGuards = true → b.Guarded s.mem → Snug lo bs →
        (s.freeBlock b.addr).2 = .freed ∧ Snug lo bs' ∧ Covered bs' b) := by
  by_cases haccept : s.isValidBlock b.addr = true ∧ blkUsed s.mem b.addr = true ∧
      s.checkBlockGuards b.addr = true
  · obtain ⟨hvalid, hused, hguards⟩ := haccept
    obtain ⟨bs', hrep, hstep, hsnug⟩ := (h.record (·.freed (blkSize s.mem b.addr))).giveBack hb lo
    have hrec := HeapStep.record s (·.freed (blkSize s.mem b.addr)) bs b.addr
    rw [freeBlock_accepted hvalid hused hguards]
    dsimp only
    exact ⟨bs', hrep, hrec.trans hstep, fun _ _ _ hs => ⟨rfl, hsnug hs⟩⟩
  · rw [freeBlock_rejected haccept]
    refine ⟨bs, h, HeapStep.refl s bs _, fun hu hg hguard hs => absurd ?_ haccept⟩
    obtain ⟨_, _, hat⟩ := h.blockAt hb
    exact ⟨h.isValidBlock hb (hs.pos hb), hat.used_eq.trans hu, h.checkBlockGuards hb hg hguard⟩

/-! ## Resizing in place -/

/-- `b` has been resized to `size` bytes where it stands. -/
structure Resized (s t : MemoryManager) (bs bs' : List Blk) (b : Blk) (size : Nat) : Prop where
  rep : Rep t bs'
  step : HeapStep s t bs bs' b.addr
  mem : { b with size := size } ∈ bs'
  bytes : ∀ x, b.addr + 32 ≤ x → x < b.addr + 52 + size → t.mem x = s.mem x

theorem Resized.guarded (h : Resized s t bs bs' b size) (hguard : b.Guarded s.mem)
    (hend : s.mem.rd (b.addr + 48 + size) 4 = guardPattern) :
    Blk.Guarded { b with size := size } t.mem := by
  show t.mem.rd (b.addr + 40) 4 = guardPattern ∧ t.mem.rd (b.addr + 48 + size) 4 = guardPattern
  exact ⟨(Mem.rd_congr fun x _ _ => h.bytes x (by omega) (by omega)).trans hguard.1,
    (Mem.rd_congr fun x _ _ => h.bytes x (by omega) (by omega)).trans hend⟩

theorem Rep.shrink (h : Rep s (pre ++ b :: post)) (hfit : size + 52 ≤ b.size) (lo : Nat) :
    ∃ bs', Resized s (s.splitBlock b.addr size) (pre ++ b :: post) bs' b (splitSize b.size size) ∧
      (0 < size → (size + 104 ≤ b.size → post = [] ∧ size + 104 < b.size) →
        Snug lo (pre ++ b :: post) → Snug lo bs') := by
  obtain ⟨post', ⟨hrep, hstep⟩, hbytes, hsnug⟩ := h.trySplit hfit lo
  exact ⟨_, ⟨hrep, hstep, mem_append_right _ mem_cons_self, hbytes⟩, hsnug⟩

theorem Rep.grow (h : Rep s (pre ++ b :: c :: post)) (hc : c.used = false)
    (hfit : size ≤ b.size + c.size) (lo : Nat) :
    ∃ bs', Resized s ((s.absorb b.addr c.addr).splitBlock b.addr size) (pre ++ b :: c :: post) bs'
        b (splitSize (b.size + (c.size + 52)) size) ∧
      (0 < size → (size + 104 ≤ b.size + (c.size + 52) → post = [] ∧
          size + 104 < b.size + (c.size + 52)) →
        Snug lo (pre ++ b :: c :: post) → Snug lo bs') := by
  obtain ⟨⟨hrep, hstep⟩, hbytes⟩ := h.absorb hc
  obtain ⟨post', ⟨hrep', hstep'⟩, hbytes', hsnug⟩ := hrep.trySplit
    (show size + 52 ≤ b.size + (c.size + 52) by omega) lo
  have hbc : b.stop ≤ c.addr := h.linked.drop.2.2.1
  have hle := (splitSize_bounds (by omega : size ≤ b.size + (c.size + 52))).2
  refine ⟨_, ⟨hrep', hstep.trans hstep', mem_append_right _ mem_cons_self,
    fun x hx hx' => (hbytes' x hx hx').trans (hbytes x hx ?_)⟩,
    fun hpos hlast hs => hsnug hpos hlast hs.absorb⟩
  unfold Blk.stop at hbc ⊢
  omega

/-! ## Defragmentation -/

/-- The blocks stand side by side from an address up to `hi`, with nothing between them. -/
def Tile (hi : Nat) : Nat → List Blk → Prop
  | lo, [] => lo = hi
  | lo, b :: bs => b.addr = lo ∧ Tile hi b.stop bs

/-- No two neighbouring blocks are free. -/
def Coalesced (bs : List Blk) : Prop := bs.IsChain fun b c => ¬ (b.used = false ∧ c.used = false)

theorem Tile.absorb : ∀ {pre : List Blk} {lo : Nat}, Tile hi lo (pre ++ b :: c :: post) →
    Tile hi lo (pre ++ { b with size := b.size + (c.size + 52) } :: post)
  | [], _, ⟨hb, hc, hpost⟩ => by
    have hstop : Blk.stop { b with size := b.size + (c.size + 52) } = c.stop := by
      unfold Blk.stop at *
      dsimp only
      omega
    exact ⟨hb, hstop ▸ hpost⟩
  | _ :: _, _, h => ⟨h.1, Tile.absorb h.2⟩

theorem Tile.add_sum : ∀ {bs : List Blk} {lo : Nat}, Tile hi lo bs →
    lo + (bs.map fun b => b.size + 52).sum = hi
  | [], _, h => h
  | b :: bs, lo, ⟨hb, hrest⟩ => by
    have hsum : b.addr + 52 + b.size + (bs.map fun b => b.size + 52).sum = hi := hrest.add_sum
    rw [map_cons, sum_cons]
    omega

/-- The heap after some merging of free blocks; `merged` if there was any. -/
structure Merged (s t : MemoryManager) (bs bs' : List Blk) (merged : Prop) : Prop where
  rep : Rep t bs'
  step : HeapStep s t bs bs' 0
  snug : ∀ lo, Snug lo bs → Snug lo bs'
  tile : ∀ hi lo, Tile hi lo bs → Tile hi lo bs'
  length_le : bs'.length ≤ bs.length
  length_lt : merged → bs'.length < bs.length

theorem Merged.refl (h : Rep s bs) : Merged s s bs bs False :=
  ⟨h, HeapStep.refl s bs 0, fun _ hs => hs, fun _ _ ht => ht, .refl, False.elim⟩

theorem Merged.weaken (h : Merged s t bs bs' p) (hqp : q → p) : Merged s t bs bs' q :=
  { h with length_lt := fun hq => h.length_lt (hqp hq) }

theorem Merged.trans {bs'' : List Blk} (h : Merged s t bs bs' p)
    (h' : Merged t u bs' bs'' q) : Merged s u bs bs'' (p ∨ q) where
  rep := h'.rep
  step := h.step.trans h'.step
  snug lo hs := h'.snug lo (h.snug lo hs)
  tile hi lo ht := h'.tile hi lo (h.tile hi lo ht)
  length_le := h'.length_le.trans h.length_le
  length_lt hpq := by
    rcases hpq with hp | hq
    · exact h'.length_le.trans_lt (h.length_lt hp)
    · exact (h'.length_lt hq).trans_le h.length_le

theorem Rep.absorb_merged (h : Rep s (pre ++ b :: c :: post)) (hb : b.used = false)
    (hc : c.used = false) :
    Merged s (s.absorb b.addr c.addr) (pre ++ b :: c :: post)
      (pre ++ { b with size := b.size + (c.size + 52) } :: post) True := by
  obtain ⟨hrep, hstep⟩ := h.absorb_free hb hc 0
  refine ⟨hrep, hstep, fun lo => Snug.absorb, fun hi lo => Tile.absorb, ?_, fun _ => ?_⟩
  all_goals
    simp only [length_append, length_cons]
    omega

theorem Rep.mergePass {fuel : Nat} (h : Rep s (pre ++ b :: post)) (hfuel : post.length < fuel)
    (merged : Bool) :
    ∃ t merged' bs', MemoryManager.mergePass fuel s b.addr merged = some (t, merged') ∧
      Merged s t (pre ++ b :: post) bs' (merged' = true ∧ merged = false) ∧
      (merged' = false → merged = false ∧ bs' = pre ++ b :: post ∧ Coalesced (b :: post)) := by
  induction fuel generalizing s pre b post merged with
  | zero => exact absurd hfuel (Nat.not_lt_zero _)
  | succ fuel ih =>
    obtain ⟨-, hat, hrest⟩ := h.linked.drop
    have hne : b.addr ≠ 0 := Nat.ne_of_gt (h.pos (mem_append_right _ mem_cons_self))
    cases post with
    | nil =>
      rw [MemoryManager.mergePass, if_pos (.inr hat.next)]
      refine ⟨s, merged, _, rfl, (Merged.refl h).weaken fun hm => ?_, fun hnone => ?_⟩
      · cases hm.2.symm.trans hm.1
      · exact ⟨hnone, rfl, .singleton b⟩
    | cons c post =>
      have hcne : c.addr ≠ 0 := (h.behind []).2.1 (cons_ne_nil _ _)
      have hlt : post.length < fuel := Nat.lt_of_succ_lt_succ hfuel
      rw [MemoryManager.mergePass, hat.next, headAddr, hat.used_eq, hrest.2.1.used_eq,
        if_neg (by rintro (h' | h'); exacts [hne h', hcne h'])]
      split
      · next hfree =>
        have hmerge := h.absorb_merged (Bool.eq_false_of_not_eq_true hfree.1)
          (Bool.eq_false_of_not_eq_true hfree.2)
        obtain ⟨t, merged', bs', hpass, hrun, hquiet⟩ := ih hmerge.rep hlt true
        exact ⟨t, merged', bs', hpass, (hmerge.trans hrun).weaken fun _ => .inl trivial,
          fun hnone => absurd (hquiet hnone).1.symm Bool.false_ne_true⟩
      · next hused =>
        have hassoc : pre ++ b :: c :: post = (pre ++ [b]) ++ c :: post := by
          rw [append_assoc]
          rfl
        rw [hassoc] at h ⊢
        obtain ⟨t, merged', bs', hpass, hrun, hquiet⟩ := ih h hlt merged
        refine ⟨t, merged', bs', hpass, hrun, fun hnone => ?_⟩
        obtain ⟨hbefore, hsame, hrest⟩ := hquiet hnone
        refine ⟨hbefore, hsame, .cons_cons (fun hfree => hused ?_) hrest⟩
        rw [hfree.1, hfree.2]
        exact ⟨Bool.false_ne_true, Bool.false_ne_true⟩

theorem Rep.mergePasses {fuel : Nat} (h : Rep s bs) (hfuel : bs.length < fuel) :
    ∃ t bs', MemoryManager.mergePasses fuel s = some t ∧ Merged s t bs bs' False ∧
      Coalesced bs' := by
  induction fuel generalizing s bs with
  | zero => exact absurd hfuel (Nat.not_lt_zero _)
  | succ fuel ih =>
    have hpass : ∃ t merged bs', MemoryManager.mergePass walkFuel s s.firstBlock false
        = some (t, merged) ∧ Merged s t bs bs' (merged = true) ∧
          (merged = false → Coalesced bs') := by
      rw [h.first]
      cases bs with
      | nil =>
        refine ⟨s, false, _, ?_, (Merged.refl h).weaken fun hm => Bool.false_ne_true hm,
          fun _ => .nil⟩
        rw [MemoryManager.mergePass, if_pos (.inl rfl)]
      | cons b post =>
        have hlen : post.length < walkFuel := Nat.lt_of_succ_lt h.length_lt
        have h' : Rep s ([] ++ b :: post) := h
        obtain ⟨t, merged, bs', hpass, hrun, hquiet⟩ := h'.mergePass hlen false
        refine ⟨t, merged, bs', hpass, hrun.weaken fun hm => ⟨hm, rfl⟩, fun hnone => ?_⟩
        obtain ⟨-, rfl, hcoalesced⟩ := hquiet hnone
        exact hcoalesced
    obtain ⟨t, merged, bs', hpass, hrun, hquiet⟩ := hpass
    simp only [MemoryManager.mergePasses, hpass, Option.bind_eq_bind, Option.bind_some]
    split
    · next hm =>
      have hlt := hrun.length_lt hm
      obtain ⟨u, bs'', hrest, hrun', hcoalesced⟩ := ih hrun.rep (by omega)
      exact ⟨u, bs'', hrest, (hrun.trans hrun').weaken False.elim, hcoalesced⟩
    · next hnone =>
      exact ⟨t, bs', rfl, hrun.weaken False.elim, hquiet (Bool.eq_false_of_not_eq_true hnone)⟩

/-- **`Memory_Defragment` returns**, and the heap has only been merged. -/
theorem Rep.defragment (h : Rep s bs) :
    ∃ t bs', s.defragment = some t ∧ Merged s t bs bs' False ∧
      (s.initialized = true → Coalesced bs') := by
  unfold MemoryManager.defragment
  split
  · next hnot => exact ⟨s, bs, rfl, Merged.refl h, fun hinit => absurd hinit hnot⟩
  · obtain ⟨t, bs', heq, hmerged, hcoalesced⟩ := h.mergePasses h.length_lt
    exact ⟨t, bs', heq, hmerged, fun _ => hcoalesced⟩

/-- **Defragmentation.** On a list that tiles the heap `Memory_Defragment` returns. The list still
tiles the heap, with the same total; the used blocks are as they were, with all their bytes but the
two links; and no two neighbours are free. -/
theorem defragment_coalesces {s : MemoryManager} {bs : List Blk} (h : Rep s bs)
    (hinit : s.initialized = true)
    (htile : Tile (s.heapMemory + s.config.heapSize) s.heapMemory bs) :
    ∃ t bs', s.defragment = some t ∧ Rep t bs' ∧
      Tile (s.heapMemory + s.config.heapSize) s.heapMemory bs' ∧
      (bs'.map fun b => b.size + 52).sum = (bs.map fun b => b.size + 52).sum ∧
      (∀ b ∈ bs, b.used = true → b ∈ bs' ∧ ∀ x, b.Own x → t.mem x = s.mem x) ∧
      Coalesced bs' := by
  obtain ⟨t, bs', heq, hmerged, hcoalesced⟩ := h.defragment
  have htile' := hmerged.tile _ _ htile
  refine ⟨t, bs', heq, hmerged.rep, htile', ?_, fun b hb hused => ?_, hcoalesced hinit⟩
  · exact Nat.add_left_cancel (htile'.add_sum.trans htile.add_sum.symm)
  · exact hmerged.step.keeps b hb hused (Nat.ne_of_gt (h.pos hb))

/-- A heap of two free blocks of 52 bytes, at 4096 and 4200. -/
def twoFree : MemoryManager where
  config := ⟨208, none, true, true⟩
  heapMemory := 4096
  firstBlock := 4096
  lastBlock := 4200
  pools := []
  stats := ⟨0, 0, 0, 0, 0, 0, 0, 0⟩
  initialized := true
  mem := ((Mem.wr (fun _ => 0) 4096 4 52).wr 4120 8 4200).wr 4200 4 52 |>.wr 4232 8 4096

theorem twoFree_coalesces : ∃ t bs', twoFree.defragment = some t ∧ Rep t bs' ∧ Coalesced bs' := by
  have hrep : Rep twoFree [⟨4096, 52, false⟩, ⟨4200, 52, false⟩] :=
    ⟨by decide, by decide, by decide, rfl, rfl, .refl, ⟨rfl, rfl, rfl, rfl⟩, .refl,
      ⟨rfl, rfl, rfl, rfl⟩, .refl⟩
  obtain ⟨t, bs', heq, hrep', -, -, -, hcoalesced⟩ :=
    defragment_coalesces hrep rfl ⟨rfl, rfl, rfl⟩
  exact ⟨t, bs', heq, hrep', hcoalesced⟩

end MemoryManager

end Cant.Memory
