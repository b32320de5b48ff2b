/-
# `Blocks` — the heap as a list of blocks

The abstract heap is a list of blocks (`Blk`). `Linked` says that memory holds
that list: every header has the block's size and flags and the addresses of its
neighbours, and the blocks lie one behind the other without overlapping. Gaps
between them are allowed: `split_block` leaves one behind every block it makes.
`Rep s bs` is the same for the manager, with `first_block` and `last_block`.

Everything the manager does to the heap is made of four changes at one block,
each of them local:

    splitBlock      b          ↦  b shortened, a new free block      (`Rep.splitBlock`)
    absorb          b, c       ↦  b grown over c                     (`Rep.absorb`)
    setupBlock      b          ↦  b used                             (`Rep.setupBlock`)
    clearBlock      b          ↦  b free                             (`Rep.clearBlock`)

What such a change leaves alone is `HeapStep`: the bytes outside the heap, and
every other used block with its header, its guards and its data (`Blk.Own`: all
of the block but the two links).
-/
import Cant.Memory.Manager

namespace Cant.Memory

variable {p n : Nat}

open Word List Mem

theorem Blk.stop_eq (b : Blk) : b.stop = b.addr + 52 + b.size := rfl

/-! ## The list in memory -/

def headAddr : List Blk → Nat
  | [] => 0
  | b :: _ => b.addr

/-- The address of the last block; `prev` if there is none. -/
def lastAddr (prev : Nat) : List Blk → Nat
  | [] => prev
  | b :: bs => lastAddr b.addr bs

/-- Where the last block ends; `lo` if there is none. -/
def stopAddr (lo : Nat) : List Blk → Nat
  | [] => lo
  | b :: bs => stopAddr b.stop bs

/-- The header of `b` is in memory, with these neighbours. -/
structure BlockAt (m : Mem) (b : Blk) (prev next : Nat) : Prop where
  size : blkSize m b.addr = b.size
  flags : blkFlags m b.addr = if b.used then 1 else 0
  next : blkNext m b.addr = next
  prev : blkPrev m b.addr = prev

/-- The blocks stand in `[lo, hi)`, one behind the other, and are linked; `prev`
is what the first one's `prev` says. -/
def Linked (m : Mem) (hi : Nat) : Nat → Nat → List Blk → Prop
  | _, lo, [] => lo ≤ hi
  | prev, lo, b :: bs =>
    lo ≤ b.addr ∧ BlockAt m b prev (headAddr bs) ∧ Linked m hi b.addr b.stop bs

def Blk.Own (b : Blk) (x : Nat) : Prop :=
  b.addr ≤ x ∧ x < b.addr + 24 ∨ b.addr + 40 ≤ x ∧ x < b.stop

def Blk.Guarded (b : Blk) (m : Mem) : Prop :=
  m.rd (b.addr + 40) 4 = guardPattern ∧ m.rd (b.addr + 48 + b.size) 4 = guardPattern

/-- The blocks stand side by side from `lo` on, and none is empty. -/
def Snug : Nat → List Blk → Prop
  | _, [] => True
  | lo, b :: bs => b.addr = lo ∧ 0 < b.size ∧ Snug b.stop bs

variable {m m' : Mem} {hi prev lo : Nat} {b c : Blk} {pre post bs rest : List Blk}

theorem headAddr_append (h : headAddr rest = headAddr bs) :
    ∀ pre : List Blk, headAddr (pre ++ rest) = headAddr (pre ++ bs)
  | [] => h
  | _ :: _ => rfl

theorem lastAddr_append (rest : List Blk) : ∀ (prev : Nat) (pre : List Blk),
    lastAddr prev (pre ++ rest) = lastAddr (lastAddr prev pre) rest
  | _, [] => rfl
  | _, b :: pre => lastAddr_append rest b.addr pre

theorem Blk.Guarded.congr (h : b.Guarded m)
    (hm : ∀ x, (b.addr + 40 ≤ x ∧ x < b.addr + 44 ∨ b.addr + 48 + b.size ≤ x ∧ x < b.stop) →
      m' x = m x) : b.Guarded m' := by
  have hstop := b.stop_eq
  exact ⟨(rd_congr fun x _ _ => hm x (.inl (by omega))).trans h.1,
    (rd_congr fun x _ _ => hm x (.inr (by omega))).trans h.2⟩

theorem BlockAt.used_eq (h : BlockAt m b p n) : blkUsed m b.addr = b.used := by
  unfold blkUsed
  rw [h.flags]
  cases b.used <;> rfl

theorem BlockAt.not_pooled (h : BlockAt m b p n) : blkPooled m b.addr = false := by
  unfold blkPooled
  rw [h.flags]
  cases b.used <;> rfl

theorem BlockAt.relink {p' : Nat} (h : BlockAt m b p n)
    (hm : ∀ x, b.addr ≤ x → x < b.addr + 32 → m' x = m x)
    (hp : blkPrev m' b.addr = p') : BlockAt m' b p' n where
  size := (rd_congr fun x _ _ => hm x (by omega) (by omega)).trans h.size
  flags := (rd_congr fun x _ _ => hm x (by omega) (by omega)).trans h.flags
  next := (rd_congr fun x _ _ => hm x (by omega) (by omega)).trans h.next
  prev := hp

theorem BlockAt.congr (h : BlockAt m b p n)
    (hm : ∀ x, b.addr ≤ x → x < b.addr + 40 → m' x = m x) : BlockAt m' b p n :=
  h.relink (fun x hle hlt => hm x hle (by omega))
    ((rd_congr fun x _ _ => hm x (by omega) (by omega)).trans h.prev)

theorem Snug.replace {rest' : List Blk} (hrest : ∀ lo, Snug lo rest → Snug lo rest') :
    ∀ {pre : List Blk} {lo : Nat}, Snug lo (pre ++ rest) → Snug lo (pre ++ rest')
  | [], lo, h => hrest lo h
  | _ :: _, _, h => ⟨h.1, h.2.1, Snug.replace hrest h.2.2⟩

theorem Snug.pos : ∀ {bs : List Blk} {lo : Nat}, Snug lo bs → b ∈ bs → 0 < b.size
  | _ :: _, _, h, hb => by
    rcases mem_cons.mp hb with rfl | hb
    · exact h.2.1
    · exact Snug.pos h.2.2 hb

theorem Snug.setUsed {used : Bool} (h : Snug lo (pre ++ b :: post)) :
    Snug lo (pre ++ { b with used := used } :: post) := by
  refine Snug.replace (fun _ hrest => ?_) h
  exact hrest

theorem Snug.adjacent : ∀ {pre : List Blk} {lo : Nat}, Snug lo (pre ++ b :: c :: post) →
    0 < b.size ∧ c.addr = b.stop
  | [], _, h => ⟨h.2.1, h.2.2.1⟩
  | d :: pre, _, h => by
    have h' := h.2.2
    exact h'.adjacent

theorem Snug.absorb (h : Snug lo (pre ++ b :: c :: post)) :
    Snug lo (pre ++ { b with size := b.size + (c.size + 52) } :: post) := by
  refine Snug.replace (fun lo' hrest => ?_) h
  obtain ⟨hb, -, hc, -, hpost⟩ := hrest
  have hstop : Blk.stop { b with size := b.size + (c.size + 52) } = c.stop := by
    unfold Blk.stop at *
    dsimp only
    omega
  exact ⟨hb, Nat.lt_of_lt_of_le (by decide) (Nat.le_add_left 52 (b.size + c.size)), hstop ▸ hpost⟩

namespace Linked

theorem le : ∀ {bs : List Blk} {prev lo : Nat}, Linked m hi prev lo bs → lo ≤ hi
  | [], _, _, h => h
  | b :: _, _, lo, h => by
    have hb : b.addr + 52 + b.size ≤ hi := h.2.2.le
    have hlo : lo ≤ b.addr := h.1
    omega

theorem bounds : ∀ {bs : List Blk} {prev lo : Nat}, Linked m hi prev lo bs → b ∈ bs →
    lo ≤ b.addr ∧ b.stop ≤ hi
  | c :: bs, _, lo, h, hb => by
    rcases mem_cons.mp hb with rfl | hb
    · exact ⟨h.1, h.2.2.le⟩
    · have hrest := h.2.2.bounds hb
      have hlo : lo ≤ c.addr := h.1
      exact ⟨by unfold Blk.stop at hrest; omega, hrest.2⟩

theorem apart : ∀ {bs : List Blk} {prev lo : Nat}, Linked m hi prev lo bs → b ∈ bs → c ∈ bs →
    b = c ∨ b.stop ≤ c.addr ∨ c.stop ≤ b.addr
  | d :: bs, _, lo, h, hb, hc => by
    rcases mem_cons.mp hb with rfl | hb'
    · rcases mem_cons.mp hc with rfl | hc'
      · exact .inl rfl
      · exact .inr (.inl (h.2.2.bounds hc').1)
    · rcases mem_cons.mp hc with rfl | hc'
      · exact .inr (.inr (h.2.2.bounds hb').1)
      · exact h.2.2.apart hb' hc'

theorem frame : ∀ {bs : List Blk} {prev lo : Nat}, Linked m hi prev lo bs →
    (∀ b ∈ bs, ∀ x, b.addr ≤ x → x < b.addr + 40 → m' x = m x) → Linked m' hi prev lo bs
  | [], _, _, h, _ => h
  | b :: _, _, _, h, hm =>
    ⟨h.1, h.2.1.congr (hm b mem_cons_self), h.2.2.frame fun c hc => hm c (mem_cons_of_mem b hc)⟩

theorem relink {prev' lo' : Nat} (h : Linked m hi prev lo bs) (hlo : lo' ≤ lo)
    (hm : ∀ x, lo ≤ x → (x < headAddr bs + 32 ∨ headAddr bs + 40 ≤ x) → m' x = m x)
    (hp : bs ≠ [] → blkPrev m' (headAddr bs) = prev') : Linked m' hi prev' lo' bs := by
  cases bs with
  | nil => exact hlo.trans h
  | cons b bs =>
    obtain ⟨hb, hat, hrest⟩ := h
    refine ⟨hlo.trans hb, hat.relink (fun x hx hx' => ?_) (hp (cons_ne_nil _ _)),
      hrest.frame fun c hc x hx _ => ?_⟩
    · exact hm x (hb.trans hx) (.inl hx')
    · have hc' := (hrest.bounds hc).1
      unfold Blk.stop at hc'
      exact hm x (by omega) (.inr (by simp only [headAddr]; omega))

theorem le_stopAddr : ∀ {pre : List Blk} {prev lo : Nat}, Linked m hi prev lo (pre ++ rest) →
    lo ≤ stopAddr lo pre ∧ ∀ c ∈ pre, c.stop ≤ stopAddr lo pre
  | [], _, lo, _ => ⟨Nat.le_refl lo, fun _ => nofun⟩
  | c :: pre, _, lo, h => by
    obtain ⟨hle, hpre⟩ := le_stopAddr h.2.2
    have hlo : lo ≤ c.addr := h.1
    have hstop : c.addr + 52 + c.size ≤ stopAddr c.stop pre := hle
    refine ⟨by simp only [stopAddr]; omega, fun d hd => ?_⟩
    rcases mem_cons.mp hd with rfl | hd
    · exact hle
    · exact hpre d hd

theorem drop : ∀ {pre : List Blk} {prev lo : Nat}, Linked m hi prev lo (pre ++ rest) →
    Linked m hi (lastAddr prev pre) (stopAddr lo pre) rest
  | [], _, _, h => h
  | c :: pre, _, _, h => by
    have h' := h.2.2
    exact h'.drop

/-- **Work at one place of the list.** What stands behind `pre` can be replaced by
anything that starts at the same address, in a memory that is the same up to
there. -/
theorem replace {rest' : List Blk} (hhead : headAddr rest' = headAddr rest) :
    ∀ {pre : List Blk} {prev lo : Nat}, Linked m hi prev lo (pre ++ rest) →
      (∀ x, x < stopAddr lo pre → m' x = m x) →
      Linked m' hi (lastAddr prev pre) (stopAddr lo pre) rest' → Linked m' hi prev lo (pre ++ rest')
  | [], _, _, _, _, h' => h'
  | c :: pre, prev, lo, h, hm, h' => by
    have hstop : c.addr + 52 + c.size ≤ stopAddr c.stop pre := (le_stopAddr h.2.2).1
    have hat : BlockAt m' c prev (headAddr (pre ++ rest)) :=
      h.2.1.congr fun x _ _ => hm x (by simp only [stopAddr]; omega)
    rw [← headAddr_append hhead pre] at hat
    exact ⟨h.1, hat, replace hhead h.2.2 hm h'⟩

/-- What a change of the blocks `old` leaves alone, if besides them it writes at
most the next block's `prev`. -/
theorem untouched {old : List Blk} (h : Linked m hi prev lo (pre ++ (b :: old ++ post)))
    (hm : ∀ x, (x < b.addr ∨ stopAddr b.stop old ≤ x) →
      (headAddr post = 0 ∨ x < headAddr post + 32 ∨ headAddr post + 40 ≤ x) → m' x = m x)
    (hc : c ∈ pre ∨ c ∈ post) {x : Nat} (hx : c.Own x) : m' x = m x := by
  have hmid : stopAddr lo pre ≤ b.addr := h.drop.1
  have hold := h.drop.2.2.le_stopAddr.1
  have hpost := h.drop.2.2.drop
  have hstop := b.stop_eq
  have hcstop := c.stop_eq
  unfold Blk.Own at hx
  rcases hc with hc | hc
  · have hc' := h.le_stopAddr.2 c hc
    cases post with
    | nil => exact hm x (.inl (by omega)) (.inl rfl)
    | cons d ds =>
      have hd := hpost.1
      exact hm x (.inl (by omega)) (.inr (.inl (by simp only [headAddr]; omega)))
  · cases post with
    | nil => cases hc
    | cons d ds =>
      have hd := hpost.1
      have hdstop := d.stop_eq
      rcases mem_cons.mp hc with rfl | hc
      · exact hm x (.inr (by omega)) (.inr (by simp only [headAddr]; omega))
      · have := (hpost.2.2.bounds hc).1
        exact hm x (.inr (by omega)) (.inr (.inr (by simp only [headAddr]; omega)))

end Linked

namespace MemoryManager

/-! ## The manager's heap -/

structure Static (s t : MemoryManager) : Prop where
  config : t.config = s.config
  heap : t.heapMemory = s.heapMemory
  pools : t.pools = s.pools
  initialized : t.initialized = s.initialized

structure Rep (s : MemoryManager) (bs : List Blk) : Prop where
  heap : 0 < s.heapMemory
  bound : s.heapMemory + s.config.heapSize ≤ 18446744073709551616
  size : s.config.heapSize < 4294967296
  first : s.firstBlock = headAddr bs
  last : s.lastBlock = lastAddr 0 bs
  linked : Linked s.mem (s.heapMemory + s.config.heapSize) 0 s.heapMemory bs

/-- What a change at the block at `a` leaves alone. -/
structure HeapStep (s t : MemoryManager) (bs bs' : List Blk) (a : Nat) : Prop
    extends Static s t where
  outside : ∀ x, (x < s.heapMemory ∨ s.heapMemory + s.config.heapSize ≤ x) → t.mem x = s.mem x
  keeps : ∀ b ∈ bs, b.used = true → b.addr ≠ a → b ∈ bs' ∧ ∀ x, b.Own x → t.mem x = s.mem x
  only : ∀ b ∈ bs', b.used = true → b.addr ≠ a → b ∈ bs

/-- The list of the blocks becomes `bs'`, by such a change. -/
abbrev Turns (s t : MemoryManager) (bs bs' : List Blk) (a : Nat) : Prop :=
  Rep t bs' ∧ HeapStep s t bs bs' a

variable {s t u : MemoryManager} {bs' bs'' : List Blk} {a : Nat}

theorem Static.refl (s : MemoryManager) : Static s s := ⟨rfl, rfl, rfl, rfl⟩

theorem Static.trans (h : Static s t) (h' : Static t u) : Static s u :=
  ⟨h'.config.trans h.config, h'.heap.trans h.heap, h'.pools.trans h.pools,
    h'.initialized.trans h.initialized⟩

theorem Static.setMem (h : Static s t) (m : Mem) : Static s { t with mem := m } :=
  ⟨h.config, h.heap, h.pools, h.initialized⟩

theorem HeapStep.refl (s : MemoryManager) (bs : List Blk) (a : Nat) : HeapStep s s bs bs a :=
  ⟨Static.refl s, fun _ _ => rfl, fun _ hb _ _ => ⟨hb, fun _ _ => rfl⟩, fun _ hb _ _ => hb⟩

theorem HeapStep.trans (h : HeapStep s t bs bs' a) (h' : HeapStep t u bs' bs'' a) :
    HeapStep s u bs bs'' a where
  toStatic := h.toStatic.trans h'.toStatic
  outside x hx := (h'.outside x (by rwa [h.heap, h.config])).trans (h.outside x hx)
  keeps b hb hu ha := by
    obtain ⟨hb', hx⟩ := h.keeps b hb hu ha
    obtain ⟨hb'', hx'⟩ := h'.keeps b hb' hu ha
    exact ⟨hb'', fun x ho => (hx' x ho).trans (hx x ho)⟩
  only b hb hu ha := h.only b (h'.only b hb hu ha) hu ha

theorem Rep.of_linked (h : Rep s bs) (hconfig : t.config = s.config)
    (hheap : t.heapMemory = s.heapMemory) (hfirst : t.firstBlock = headAddr bs')
    (hlast : t.lastBlock = lastAddr 0 bs')
    (hlinked : Linked t.mem (s.heapMemory + s.config.heapSize) 0 s.heapMemory bs') : Rep t bs' where
  heap := by rw [hheap]; exact h.heap
  bound := by rw [hheap, hconfig]; exact h.bound
  size := by rw [hconfig]; exact h.size
  first := hfirst
  last := hlast
  linked := by rw [hheap, hconfig]; exact hlinked

theorem Rep.pos (h : Rep s bs) (hb : b ∈ bs) : 0 < b.addr :=
  h.heap.trans_le (h.linked.bounds hb).1

/-- A used block other than `b` stands in front of the blocks `b :: mid` or behind
them, if none of `mid` is used. -/
theorem mem_around {mid : List Blk} (hmid : ∀ d ∈ mid, d.used = false)
    (hc : c ∈ pre ++ (b :: mid ++ post)) (hu : c.used = true) (ha : c.addr ≠ b.addr) :
    c ∈ pre ∨ c ∈ post := by
  rcases mem_append.mp hc with hc | hc
  · exact .inl hc
  · rcases mem_append.mp hc with hc | hc
    · rcases mem_cons.mp hc with rfl | hc
      · exact absurd rfl ha
      · cases (hmid c hc).symm.trans hu
    · exact .inr hc

theorem mem_of_around (h : c ∈ pre ∨ c ∈ post) (mid : List Blk) : c ∈ pre ++ (b :: mid ++ post) :=
  h.elim (mem_append_left _) fun hc => mem_append_right _ (mem_append_right _ hc)

/-- **A change at one place of the heap.** The blocks `b :: old` become
`b' :: mid`; only `b` may have been used, and only `b'` may be. -/
theorem Rep.edit (old mid : List Blk) (b' : Blk) (h : Rep s (pre ++ (b :: old ++ post)))
    (hstatic : Static s t) (hfirst : t.firstBlock = s.firstBlock)
    (hlast : t.lastBlock = lastAddr b'.addr (mid ++ post)) (haddr : b'.addr = b.addr)
    (hold : ∀ c ∈ old, c.used = false) (hmid : ∀ c ∈ mid, c.used = false)
    (hbytes : ∀ x, (x < b.addr ∨ stopAddr b.stop old ≤ x) →
      (headAddr post = 0 ∨ x < headAddr post + 32 ∨ headAddr post + 40 ≤ x) → t.mem x = s.mem x)
    (hlinked : Linked t.mem (s.heapMemory + s.config.heapSize) (lastAddr 0 pre)
      (stopAddr s.heapMemory pre) (b' :: mid ++ post)) :
    Turns s t (pre ++ (b :: old ++ post)) (pre ++ (b' :: mid ++ post)) b.addr := by
  have hhead : headAddr (b' :: mid ++ post) = headAddr (b :: old ++ post) := haddr
  have hpre := h.linked.drop.1
  have hpost := h.linked.drop.2.2.drop
  have hb := h.linked.drop.2.2.le_stopAddr.1
  have hstop := b.stop_eq
  have hheap := h.linked.le_stopAddr.1
  have hend := hpost.le
  have hlink : headAddr post = 0 ∨ stopAddr b.stop old ≤ headAddr post ∧
      headAddr post + 52 ≤ s.heapMemory + s.config.heapSize := by
    cases post with
    | nil => exact .inl rfl
    | cons d ds =>
      have hd := (hpost.bounds mem_cons_self).2
      exact .inr ⟨hpost.1, by simp only [headAddr]; unfold Blk.stop at hd; omega⟩
  constructor
  · refine h.of_linked hstatic.config hstatic.heap ?_ ?_ ?_
    · rw [hfirst, h.first]
      exact headAddr_append hhead.symm pre
    · rw [hlast, lastAddr_append (b' :: mid ++ post) 0 pre]
      rfl
    · exact h.linked.replace hhead (fun x hx => hbytes x (.inl (by omega)) (by omega)) hlinked
  · refine ⟨hstatic, fun x hx => hbytes x (by omega) (by omega), fun c hc hu ha => ?_,
      fun c hc hu ha => ?_⟩
    · have hc' := mem_around hold hc hu ha
      exact ⟨mem_of_around hc' mid, fun x hx => h.linked.untouched hbytes hc' hx⟩
    · exact mem_of_around (mem_around hmid hc hu (by rwa [haddr])) old

theorem Rep.behind (old : List Blk) (h : Rep s (pre ++ (b :: old ++ post))) :
    Linked s.mem (s.heapMemory + s.config.heapSize) (lastAddr b.addr old) (stopAddr b.stop old)
        post ∧
      (post ≠ [] → headAddr post ≠ 0) ∧
      (headAddr post = 0 ∨ stopAddr b.stop old ≤ headAddr post) := by
  have hpost := h.linked.drop.2.2.drop
  refine ⟨hpost, ?_⟩
  cases post with
  | nil => exact ⟨fun hne => absurd rfl hne, .inl rfl⟩
  | cons d ds =>
    have hd : 0 < d.addr := h.pos (mem_append_right _ (mem_append_right _ mem_cons_self))
    exact ⟨fun _ => Nat.ne_of_gt hd, .inr hpost.1⟩

/-! ## The four changes -/

variable {block next size x : Nat}

section

variable (s : MemoryManager)

theorem setBackLink_mem (h : next = 0 ∨ x < next + 32 ∨ next + 40 ≤ x) :
    (s.setBackLink next block).mem x = s.mem x := by
  unfold setBackLink
  split
  · exact wr_of_not (by omega)
  · rfl

theorem setBackLink_rd {n : Nat} (h : next = 0 ∨ x + n ≤ next + 32 ∨ next + 40 ≤ x) :
    (s.setBackLink next block).mem.rd x n = s.mem.rd x n :=
  rd_congr fun _ _ _ => setBackLink_mem s (by omega)

theorem setBackLink_prev (hn : next ≠ 0) (hb : block < 18446744073709551616) :
    (s.setBackLink next block).mem.rd (next + 32) 8 = block := by
  unfold setBackLink
  rw [if_pos hn]
  exact rd_wr_of_lt hb

theorem setBackLink_last (next block : Nat) :
    (s.setBackLink next block).lastBlock = if next = 0 then block else s.lastBlock := by
  unfold setBackLink
  split
  · rfl
  · next h => exact (if_pos (not_not.mp h)).symm

end

theorem Static.setBackLink (h : Static s t) (next block : Nat) :
    Static s (t.setBackLink next block) := by
  unfold MemoryManager.setBackLink
  split
  all_goals exact ⟨h.config, h.heap, h.pools, h.initialized⟩

theorem setBackLink_first (s : MemoryManager) (next block : Nat) :
    (s.setBackLink next block).firstBlock = s.firstBlock := by
  unfold setBackLink
  split
  · rfl
  · rfl

theorem Rep.setBackLink_last (old : List Blk) (h : Rep s (pre ++ (b :: old ++ post))) (addr : Nat) :
    (if headAddr post = 0 then addr else s.lastBlock) = lastAddr addr post := by
  rw [h.last, lastAddr_append (b :: old ++ post), lastAddr_append post]
  cases post with
  | nil => rfl
  | cons d ds => exact if_neg ((h.behind old).2.1 (cons_ne_nil _ _))

def setSizeNext (m : Mem) (block size next : Nat) : Mem :=
  (m.wr block 4 size).wr (block + 24) 8 next

theorem absorb_eq {other : Nat} (hsep : block + 32 ≤ other)
    (hsize : blkSize s.mem block + (blkSize s.mem other + 52) = size) (hlt : size < 4294967296)
    (hnext : blkNext s.mem other = next) :
    s.absorb block other =
      setBackLink { s with mem := setSizeNext s.mem block size next } next block := by
  have hu32 : u32 (blkSize s.mem block + (blkSize s.mem other + 52)) = size := by
    rw [← hsize]
    exact u32_of_lt (hsize ▸ hlt)
  have hrd : s.mem.rd (other + 24) 8 = next := hnext
  have hrd_lt : next < 256 ^ 8 := hrd ▸ rd_lt _ _ _
  unfold absorb
  simp (disch := omega) only [hu32, blkNext, rd_wr_of_disjoint, rd_wr_of_lt, hrd]
  rfl

theorem absorb_blockAt {prev next' : Nat} (hb : BlockAt s.mem b prev next')
    (hsize : size < 4294967296) (hlt : next < 18446744073709551616)
    (hlink : next = 0 ∨ b.addr + 40 ≤ next + 32) :
    BlockAt (setBackLink { s with mem := setSizeNext s.mem b.addr size next } next b.addr).mem
      { b with size := size } prev next := by
  constructor
  · simp (disch := omega) only [blkSize, setBackLink_rd, setSizeNext, rd_wr_of_disjoint,
      rd_wr_of_lt]
  · simp (disch := omega) only [blkFlags, setBackLink_rd, setSizeNext, rd_wr_of_disjoint]
    exact hb.flags
  · simp (disch := omega) only [blkNext, setBackLink_rd, setSizeNext, rd_wr_of_lt]
  · simp (disch := omega) only [blkPrev, setBackLink_rd, setSizeNext, rd_wr_of_disjoint]
    exact hb.prev

theorem Rep.absorb (h : Rep s (pre ++ b :: c :: post)) (hc : c.used = false) :
    Turns s (s.absorb b.addr c.addr) (pre ++ b :: c :: post)
        (pre ++ { b with size := b.size + (c.size + 52) } :: post) b.addr ∧
      ∀ x, b.addr + 32 ≤ x → x < c.stop → (s.absorb b.addr c.addr).mem x = s.mem x := by
  obtain ⟨hlo, hb, hbc, hc', -⟩ := h.linked.drop
  obtain ⟨hpost, hne, hlink⟩ := h.behind [c]
  have hbstop := b.stop_eq
  have hcstop := c.stop_eq
  have hend : c.stop ≤ s.heapMemory + s.config.heapSize := hpost.le
  have hfront := h.linked.le_stopAddr.1
  have hbound := h.bound
  have hsize := h.size
  change headAddr post = 0 ∨ c.stop ≤ headAddr post at hlink
  have heq : s.absorb b.addr c.addr = setBackLink
      { s with mem := setSizeNext s.mem b.addr (b.size + (c.size + 52)) (headAddr post) }
      (headAddr post) b.addr :=
    absorb_eq (by omega) (by rw [hb.size, hc'.size]) (by omega) hc'.next
  have hbytes : ∀ x, (x < b.addr ∨ b.addr + 32 ≤ x) →
      (headAddr post = 0 ∨ x < headAddr post + 32 ∨ headAddr post + 40 ≤ x) →
      (s.absorb b.addr c.addr).mem x = s.mem x := by
    intro x hx hx'
    rw [heq, setBackLink_mem _ hx']
    exact (wr_of_not (by omega)).trans (wr_of_not (by omega))
  have hnext_lt : headAddr post < 18446744073709551616 := hc'.next ▸ rd_lt _ _ 8
  have hat : BlockAt (s.absorb b.addr c.addr).mem { b with size := b.size + (c.size + 52) }
      (lastAddr 0 pre) (headAddr post) := by
    rw [heq]
    exact absorb_blockAt hb (by omega) hnext_lt (by omega)
  refine ⟨h.edit [c] [] { b with size := b.size + (c.size + 52) } ?_ ?_ ?_ rfl
    (fun d hd => ?_) (fun _ => nofun) (fun x hx hx' => hbytes x ?_ hx') ⟨hlo, hat, ?_⟩,
    fun x hx hx' => hbytes x (.inr hx) (by omega)⟩
  · apply Static.setBackLink
    exact (Static.refl s).setMem _
  · exact setBackLink_first _ _ _
  · rw [heq, MemoryManager.setBackLink_last]
    exact h.setBackLink_last [c] b.addr
  · rw [mem_singleton.mp hd]
    exact hc
  · exact hx.imp id fun hx => by
      change c.stop ≤ x at hx
      omega
  · refine hpost.relink ?_ (fun x hx hx' => ?_) fun hne' => ?_
    · show b.addr + 52 + (b.size + (c.size + 52)) ≤ c.stop
      omega
    · change c.stop ≤ x at hx
      exact hbytes x (by omega) (.inr hx')
    · rw [heq]
      exact setBackLink_prev _ (hne hne') (by omega)

/-- The header `split_block` writes for the new block. -/
def newHeader (m : Mem) (block size next prev : Nat) : Mem :=
  (((((m.wr block 4 size).wr (block + 4) 4 0).wr (block + 8) 8 0).wr (block + 16) 4 0).wr
    (block + 24) 8 next).wr (block + 32) 8 prev

theorem splitBlock_eq {rest : Nat} (hrest : size + 104 + rest = blkSize s.mem block)
    (hnext : blkNext s.mem block = next) :
    s.splitBlock block size =
      let t := setBackLink { s with mem := newHeader s.mem (block + 52 + size) rest next block }
        next (block + 52 + size)
      { t with mem := (t.mem.wr (block + 24) 8 (block + 52 + size)).wr block 4 size } := by
  have hlt : blkSize s.mem block < 4294967296 := rd_lt _ _ 4
  have hremaining : u32 ((blkSize s.mem block : Int) - size - 52) = rest + 52 := by
    unfold u32
    omega
  have hnew : u32 (((rest + 52 : Nat) : Int) - 52) = rest := by
    unfold u32
    omega
  have haddr : block + 48 + size + 4 = block + 52 + size := by omega
  have hrd : s.mem.rd (block + 24) 8 = next := hnext
  unfold splitBlock
  simp (disch := omega) only [hremaining, hnew, haddr, if_neg (by omega : ¬ rest + 52 < 52),
    blkNext, rd_wr_of_disjoint, hrd]
  rfl

theorem splitBlock_mem {rest : Nat} (hrest : size + 104 + rest = blkSize s.mem block)
    (hnext : blkNext s.mem block = next)
    (hx : x < block ∨ block + 32 ≤ x ∧ x < block + 52 + size ∨ block + 92 + size ≤ x)
    (hx' : next = 0 ∨ x < next + 32 ∨ next + 40 ≤ x) :
    (s.splitBlock block size).mem x = s.mem x := by
  rw [splitBlock_eq hrest hnext]
  simp (disch := omega) only [wr_of_not, setBackLink_mem, newHeader]

theorem splitBlock_blockAt {prev rest : Nat} (hb : BlockAt s.mem b prev next)
    (hrest : size + 104 + rest = b.size) (hlink : next = 0 ∨ b.stop ≤ next)
    (hend : b.stop ≤ 18446744073709551616) :
    BlockAt (s.splitBlock b.addr size).mem { b with size := size } prev (b.addr + 52 + size) ∧
      BlockAt (s.splitBlock b.addr size).mem ⟨b.addr + 52 + size, rest, false⟩ b.addr next := by
  have hstop := b.stop_eq
  have hsize : b.size < 4294967296 := hb.size ▸ rd_lt _ _ 4
  have hnext : next < 18446744073709551616 := hb.next ▸ rd_lt _ _ 8
  rw [splitBlock_eq (hrest.trans hb.size.symm) hb.next]
  refine ⟨⟨?_, ?_, ?_, ?_⟩, ⟨?_, ?_, ?_, ?_⟩⟩
  · simp (disch := omega) only [blkSize, rd_wr_of_lt]
  · simp (disch := omega) only [blkFlags, setBackLink_rd, newHeader, rd_wr_of_disjoint]
    exact hb.flags
  · simp (disch := omega) only [blkNext, rd_wr_of_disjoint, rd_wr_of_lt]
  · simp (disch := omega) only [blkPrev, setBackLink_rd, newHeader, rd_wr_of_disjoint]
    exact hb.prev
  · simp (disch := omega) only [blkSize, setBackLink_rd, newHeader, rd_wr_of_disjoint,
      rd_wr_of_lt]
  · simp (disch := omega) only [blkFlags, setBackLink_rd, newHeader, rd_wr_of_disjoint,
      rd_wr_of_lt]
    rfl
  · simp (disch := omega) only [blkNext, setBackLink_rd, newHeader, rd_wr_of_disjoint,
      rd_wr_of_lt]
  · simp (disch := omega) only [blkPrev, setBackLink_rd, newHeader, rd_wr_of_disjoint,
      rd_wr_of_lt]

theorem splitBlock_static (s : MemoryManager) (block size : Nat) :
    Static s (s.splitBlock block size) := by
  unfold MemoryManager.splitBlock
  dsimp only
  split
  · exact Static.refl s
  · apply Static.setMem
    apply Static.setBackLink
    exact (Static.refl s).setMem _

theorem Rep.splitBlock (h : Rep s (pre ++ b :: post)) (size rest : Nat)
    (hrest : size + 104 + rest = b.size) :
    Turns s (s.splitBlock b.addr size) (pre ++ b :: post)
        (pre ++ { b with size := size } :: ⟨b.addr + 52 + size, rest, false⟩ :: post) b.addr ∧
      ∀ x, b.addr + 32 ≤ x → x < b.addr + 52 + size →
        (s.splitBlock b.addr size).mem x = s.mem x := by
  obtain ⟨hlo, hb, -⟩ := h.linked.drop
  obtain ⟨hpost, hne, hlink⟩ := h.behind []
  have hbstop := b.stop_eq
  have hend : b.stop ≤ s.heapMemory + s.config.heapSize := hpost.le
  have hbound := h.bound
  change headAddr post = 0 ∨ b.stop ≤ headAddr post at hlink
  have heq := splitBlock_eq (hrest.trans hb.size.symm) hb.next
  have hbytes : ∀ x, (x < b.addr ∨ b.addr + 32 ≤ x ∧ x < b.addr + 52 + size ∨
        b.addr + 92 + size ≤ x) →
      (headAddr post = 0 ∨ x < headAddr post + 32 ∨ headAddr post + 40 ≤ x) →
      (s.splitBlock b.addr size).mem x = s.mem x :=
    fun x hx hx' => splitBlock_mem (hrest.trans hb.size.symm) hb.next hx hx'
  obtain ⟨hat, hnew⟩ := splitBlock_blockAt hb hrest hlink (by omega)
  refine ⟨h.edit [] [⟨b.addr + 52 + size, rest, false⟩] { b with size := size } ?_ ?_ ?_ rfl
    (fun _ => nofun) (fun d hd => ?_) (fun x hx hx' => hbytes x ?_ hx') ⟨hlo, hat, ?_, hnew, ?_⟩,
    fun x hx hx' => hbytes x (.inr (.inl ⟨hx, hx'⟩)) (by omega)⟩
  · exact splitBlock_static s b.addr size
  · rw [heq]
    exact setBackLink_first _ _ _
  · rw [heq]
    exact (MemoryManager.setBackLink_last _ _ _).trans (h.setBackLink_last [] _)
  · rw [mem_singleton.mp hd]
  · change x < b.addr ∨ b.stop ≤ x at hx
    omega
  · exact .refl
  · refine hpost.relink ?_ (fun x hx hx' => ?_) fun hne' => ?_
    · show b.addr + 52 + size + 52 + rest ≤ b.stop
      omega
    · change b.stop ≤ x at hx
      exact hbytes x (by omega) (.inr hx')
    · have hne := hne hne'
      rw [heq]
      simp (disch := omega) only [blkPrev, rd_wr_of_disjoint]
      exact setBackLink_prev _ hne (by omega)

theorem Rep.setUsed {used : Bool} (h : Rep s (pre ++ b :: post)) (hstatic : Static s t)
    (hfirst : t.firstBlock = s.firstBlock) (hlast : t.lastBlock = s.lastBlock)
    (hflags : blkFlags t.mem b.addr = if used then 1 else 0)
    (hlinks : ∀ x, b.addr ≤ x → (x < b.addr + 4 ∨ b.addr + 24 ≤ x ∧ x < b.addr + 40) →
      t.mem x = s.mem x)
    (hbytes : ∀ x, (x < b.addr ∨ b.stop ≤ x) → t.mem x = s.mem x) :
    Turns s t (pre ++ b :: post) (pre ++ { b with used := used } :: post) b.addr := by
  obtain ⟨hlo, hb, hrest⟩ := h.linked.drop
  have hsize : blkSize t.mem b.addr = b.size :=
    (rd_congr fun x hx _ => hlinks x hx (by omega)).trans hb.size
  have hnext : blkNext t.mem b.addr = headAddr post :=
    (rd_congr fun x _ _ => hlinks x (by omega) (by omega)).trans hb.next
  have hprev : blkPrev t.mem b.addr = lastAddr 0 pre :=
    (rd_congr fun x _ _ => hlinks x (by omega) (by omega)).trans hb.prev
  refine h.edit [] [] { b with used := used } hstatic hfirst ?_ rfl (fun _ => nofun)
    (fun _ => nofun) (fun x hx _ => hbytes x hx) ⟨hlo, ⟨hsize, hflags, hnext, hprev⟩, ?_⟩
  · rw [hlast, h.last, lastAddr_append (b :: post)]
    rfl
  · refine hrest.frame fun c hc x hx _ => hbytes x (.inr ?_)
    exact Nat.le_trans (hrest.bounds hc).1 hx

theorem setupBlockGuards_mem (s : MemoryManager) (hf : x < block + 40 ∨ block + 44 ≤ x)
    (hb : x < block + 48 + blkSize s.mem block ∨ block + 52 + blkSize s.mem block ≤ x) :
    (s.setupBlockGuards block).mem x = s.mem x := by
  unfold setupBlockGuards
  split
  · rfl
  · simp (disch := omega) only [blkSize, rd_wr_of_disjoint] at hb ⊢
    rw [wr_of_not (by omega), wr_of_not hf]

theorem setupBlockGuards_static (h : Static s t) (block : Nat) :
    Static s (t.setupBlockGuards block) ∧
      (t.setupBlockGuards block).firstBlock = t.firstBlock ∧
      (t.setupBlockGuards block).lastBlock = t.lastBlock := by
  unfold setupBlockGuards
  split
  · exact ⟨h, rfl, rfl⟩
  · exact ⟨h.setMem _, rfl, rfl⟩

theorem setupBlockGuards_guarded (hg : s.config.enableGuards = true) (hne : b.addr ≠ 0)
    (hsize : blkSize s.mem b.addr = b.size) : b.Guarded (s.setupBlockGuards b.addr).mem := by
  have hrd : s.mem.rd b.addr 4 = b.size := hsize
  unfold setupBlockGuards
  rw [if_neg (by rintro (h' | h'); exacts [h' hg, hne h'])]
  constructor
  all_goals
    simp (disch := omega) only [blkSize, rd_wr_of_disjoint, hrd]
    exact rd_wr_of_lt (by decide)

theorem Rep.setupBlock (h : Rep s (pre ++ b :: post)) (file line : Nat) :
    Turns s (s.setupBlock b.addr file line) (pre ++ b :: post)
        (pre ++ { b with used := true } :: post) b.addr ∧
      (s.config.enableGuards = true → b.Guarded (s.setupBlock b.addr file line).mem) := by
  obtain ⟨-, hb, -⟩ := h.linked.drop
  have hstop := b.stop_eq
  have hrd : s.mem.rd b.addr 4 = b.size := hb.size
  unfold MemoryManager.setupBlock
  have hsize : blkSize (((s.mem.wr (b.addr + 4) 4 1).wr (b.addr + 8) 8 file).wr (b.addr + 16) 4
      line) b.addr = b.size := by
    simp (disch := omega) only [blkSize, rd_wr_of_disjoint, hrd]
  have hstatic := setupBlockGuards_static ((Static.refl s).setMem
    (((s.mem.wr (b.addr + 4) 4 1).wr (b.addr + 8) 8 file).wr (b.addr + 16) 4 line)) b.addr
  refine ⟨h.setUsed hstatic.1 hstatic.2.1 hstatic.2.2 ?_ (fun x hx hx' => ?_) fun x hx => ?_,
    fun hg => setupBlockGuards_guarded hg ?_ hsize⟩
  · refine (rd_congr fun x _ _ => setupBlockGuards_mem _ (by omega) ?_).trans ?_
    · omega
    · simp (disch := omega) only [rd_wr_of_disjoint, rd_wr_of_lt]
      rfl
  · rw [setupBlockGuards_mem _ (by omega) (by omega)]
    simp (disch := omega) only [wr_of_not]
  · rw [setupBlockGuards_mem _ (by omega) (by dsimp only; omega)]
    simp (disch := omega) only [wr_of_not]
  · exact Nat.ne_of_gt (h.pos (mem_append_right _ mem_cons_self))

theorem Rep.clearBlock (h : Rep s (pre ++ b :: post)) :
    Turns s (s.clearBlock b.addr) (pre ++ b :: post) (pre ++ { b with used := false } :: post)
      b.addr := by
  obtain ⟨-, hb, -⟩ := h.linked.drop
  have hstop := b.stop_eq
  have hsize := hb.size
  refine h.setUsed ((Static.refl s).setMem _) rfl rfl ?_ (fun x hx hx' => ?_) fun x hx => ?_
  · simp (disch := omega) only [MemoryManager.clearBlock, blkFlags, rd_wr_of_disjoint,
      rd_wr_of_lt]
    rfl
  all_goals simp (disch := omega) only [MemoryManager.clearBlock, wr_of_not, fill_of_not]

theorem record_static (s : MemoryManager) (f : MemStats → MemStats) :
    Static s (s.record f) ∧ (s.record f).firstBlock = s.firstBlock ∧
      (s.record f).lastBlock = s.lastBlock ∧ (s.record f).mem = s.mem := by
  unfold record
  split
  · exact ⟨⟨rfl, rfl, rfl, rfl⟩, rfl, rfl, rfl⟩
  · exact ⟨Static.refl s, rfl, rfl, rfl⟩

theorem Rep.record (h : Rep s bs) (f : MemStats → MemStats) : Rep (s.record f) bs := by
  obtain ⟨hstatic, hfirst, hlast, hmem⟩ := record_static s f
  exact h.of_linked hstatic.config hstatic.heap (hfirst.trans h.first) (hlast.trans h.last)
    (by rw [hmem]; exact h.linked)

theorem HeapStep.record (s : MemoryManager) (f : MemStats → MemStats) (bs : List Blk) (a : Nat) :
    HeapStep s (s.record f) bs bs a := by
  obtain ⟨hstatic, -, -, hmem⟩ := record_static s f
  exact ⟨hstatic, fun _ _ => by rw [hmem], fun _ hb _ _ => ⟨hb, fun _ _ => by rw [hmem]⟩,
    fun _ hb _ _ => hb⟩

/-! ## Splitting if there is room, and merging if the neighbour is free -/

/-- The size of a block of `bsize` bytes after `split_block(block, size)`. -/
def splitSize (bsize size : Nat) : Nat := if size + 104 ≤ bsize then size else bsize

theorem splitSize_bounds {bsize : Nat} (h : size ≤ bsize) :
    size ≤ splitSize bsize size ∧ splitSize bsize size ≤ bsize := by
  unfold splitSize
  split
  · exact ⟨.refl, h⟩
  · exact ⟨h, .refl⟩

/-- `split_block` on a block with at least `size + BLOCK_OVERHEAD` bytes: whatever
it does, the block stays in its place and keeps what it holds. -/
theorem Rep.trySplit (h : Rep s (pre ++ b :: post)) (hfit : size + 52 ≤ b.size) (lo : Nat) :
    ∃ post', Turns s (s.splitBlock b.addr size) (pre ++ b :: post)
        (pre ++ { b with size := splitSize b.size size } :: post') b.addr ∧
      (∀ x, b.addr + 32 ≤ x → x < b.addr + 52 + splitSize b.size size →
        (s.splitBlock b.addr size).mem x = s.mem x) ∧
      (0 < size → (size + 104 ≤ b.size → post = [] ∧ size + 104 < b.size) →
        Snug lo (pre ++ b :: post) →
          Snug lo (pre ++ { b with size := splitSize b.size size } :: post')) := by
  obtain ⟨-, hb, -⟩ := h.linked.drop
  unfold splitSize
  split
  · next hroom =>
    obtain ⟨hrep, hbytes⟩ := h.splitBlock size (b.size - size - 104) (by omega)
    refine ⟨_, hrep, hbytes, fun hpos hlast hsnug => ?_⟩
    obtain ⟨rfl, hlt⟩ := hlast hroom
    refine Snug.replace (fun lo' hsnug' => ?_) hsnug
    exact ⟨hsnug'.1, hpos, rfl, Nat.sub_pos_of_lt (Nat.lt_sub_of_add_lt (by omega)), trivial⟩
  · next hroom =>
    have hlt : blkSize s.mem b.addr < 4294967296 := rd_lt _ _ 4
    have hstay : s.splitBlock b.addr size = s := by
      refine if_pos ?_
      rw [hb.size] at hlt ⊢
      unfold u32
      omega
    rw [hstay]
    exact ⟨post, ⟨h, HeapStep.refl s _ _⟩, fun _ _ _ => rfl, fun _ _ hsnug => hsnug⟩

theorem Rep.unique (h : Rep s bs) (hb : b ∈ bs) (hc : c ∈ bs) (heq : b.addr = c.addr) : b = c := by
  rcases h.linked.apart hb hc with h' | h' | h'
  · exact h'
  all_goals
    unfold Blk.stop at h'
    omega

theorem HeapStep.of_free {a' : Nat} (h : HeapStep s t bs bs' a')
    (hfree : ∀ c ∈ bs, c.addr = a' → c.used = false)
    (hfree' : ∀ c ∈ bs', c.addr = a' → c.used = false) (a : Nat) : HeapStep s t bs bs' a where
  toStatic := h.toStatic
  outside := h.outside
  keeps c hc hu _ := h.keeps c hc hu fun ha =>
    Bool.false_ne_true ((hfree c hc ha).symm.trans hu)
  only c hc hu _ := h.only c hc hu fun ha => Bool.false_ne_true ((hfree' c hc ha).symm.trans hu)

theorem Rep.absorb_free (h : Rep s (pre ++ b :: c :: post)) (hb : b.used = false)
    (hc : c.used = false) (a : Nat) :
    Turns s (s.absorb b.addr c.addr) (pre ++ b :: c :: post)
      (pre ++ { b with size := b.size + (c.size + 52) } :: post) a := by
  obtain ⟨⟨hrep, hstep⟩, -⟩ := h.absorb hc
  refine ⟨hrep, hstep.of_free (fun d hd hda => ?_) (fun d hd hda => ?_) a⟩
  · rw [h.unique hd (mem_append_right _ mem_cons_self) hda]
    exact hb
  · rw [hrep.unique hd (mem_append_right _ mem_cons_self) hda]
    exact hb

theorem Rep.mergeNext (h : Rep s (pre ++ b :: post)) (hb : b.used = false) (a lo : Nat) :
    ∃ b' post', Turns s (s.mergeNext b.addr) (pre ++ b :: post) (pre ++ b' :: post') a ∧
      (b'.addr = b.addr ∧ b'.used = false ∧ b.size ≤ b'.size) ∧
      (Snug lo (pre ++ b :: post) → Snug lo (pre ++ b' :: post')) := by
  obtain ⟨-, hat, hrest⟩ := h.linked.drop
  unfold MemoryManager.mergeNext
  rw [hat.next]
  split
  · next hmerge =>
    cases post with
    | nil => exact absurd rfl hmerge.1
    | cons c post =>
      have hc : c.used = false := by
        have hnot := hmerge.2
        rw [headAddr, hrest.2.1.used_eq] at hnot
        exact Bool.eq_false_of_not_eq_true hnot
      exact ⟨_, post, h.absorb_free hb hc a, ⟨rfl, hb, Nat.le_add_right _ _⟩, Snug.absorb⟩
  · exact ⟨b, post, ⟨h, HeapStep.refl s _ a⟩, ⟨rfl, hb, .refl⟩, id⟩

theorem Rep.mergePrev (h : Rep s (pre ++ b :: post)) (hb : b.used = false) (a lo : Nat) :
    ∃ bs', Turns s (s.mergePrev b.addr) (pre ++ b :: post) bs' a ∧
      (Snug lo (pre ++ b :: post) → Snug lo bs' ∧
        ∃ c ∈ bs', c.used = false ∧ c.addr ≤ b.addr ∧ b.stop ≤ c.stop) := by
  obtain ⟨-, hat, -⟩ := h.linked.drop
  have hmem : b ∈ pre ++ b :: post := mem_append_right _ mem_cons_self
  unfold MemoryManager.mergePrev
  rw [hat.prev]
  split
  · next hmerge =>
    rcases eq_nil_or_concat pre with rfl | ⟨pre, p, rfl⟩
    · exact absurd rfl hmerge.1
    · rw [concat_eq_append] at h hmem hmerge ⊢
      have hassoc : pre ++ [p] ++ b :: post = pre ++ p :: b :: post := append_assoc _ _ _
      have hprev : lastAddr 0 (pre ++ [p]) = p.addr := lastAddr_append [p] 0 pre
      rw [hassoc] at h ⊢
      obtain ⟨-, hp, -⟩ := h.linked.drop
      have hfree : p.used = false := by
        have hnot := hmerge.2
        rw [hprev, hp.used_eq] at hnot
        exact Bool.eq_false_of_not_eq_true hnot
      rw [hprev]
      refine ⟨_, h.absorb_free hfree hb a, fun hsnug => ⟨Snug.absorb hsnug, _,
        mem_append_right _ mem_cons_self, hfree, ?_⟩⟩
      obtain ⟨-, hadj⟩ := Snug.adjacent hsnug
      simp only [Blk.stop] at hadj ⊢
      omega
  · exact ⟨_, ⟨h, HeapStep.refl s _ a⟩, fun hsnug =>
      ⟨hsnug, b, hmem, hb, .refl, .refl⟩⟩

end MemoryManager

end Cant.Memory
