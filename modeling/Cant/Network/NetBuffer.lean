/-
# `NetBuffer` — the network ring buffer is a bounded FIFO

`net_buffer.c` keeps a byte ring: a `malloc`ed array, a read and a write index,
a count that tells full from empty, and a sticky overflow flag. The model is
the file, call by call; an access outside the array would make a call answer
`none`.

The caller's array is a value, so its length is the `length` argument and the tests for a `NULL`
argument have no counterpart.
-/
import Cant.Lib.Ring
import Cant.Lib.Run
import Cant.Lib.Word

namespace Cant.Network

open Word Cant.Ring Run List

/-- `NetBuffer` of `net_buffer.h`; `data` is the array of `size` bytes, or `NULL`. -/
structure NetBuffer where
  size : Nat
  data : Option (Buf UInt8 size)
  readIndex : Nat
  writeIndex : Nat
  count : Nat
  overflow : Bool

namespace NetBuffer

def reset (b : NetBuffer) : NetBuffer :=
  { b with
    readIndex := 0, writeIndex := 0, count := 0, overflow := false
    data := b.data.map fun _ => Buf.fill b.size 0 }

/-- `NetBuffer_Init`; `raw` is the block `malloc` returned, with whatever it
held, or `NULL`. -/
def init (size : Nat) (raw : Option (Buf UInt8 size)) : Option NetBuffer :=
  if size = 0 then none
  else
    match raw with
    | none => none
    | some d => some (reset ⟨size, some d, 0, 0, 0, false⟩)

def getFree (b : NetBuffer) : Nat := u32 (b.size - b.count)

def write (b : NetBuffer) (data : List UInt8) : Option (NetBuffer × Bool) :=
  match b.data with
  | none => some (b, false)
  | some d =>
    if data.length = 0 then some (b, false)
    else if data.length > b.getFree then some ({ b with overflow := true }, false)
    else
      let firstChunk := u32 (b.size - b.writeIndex)
      if data.length ≤ firstChunk then do
        let d' ← d.blit b.writeIndex data
        let wi := u32 (b.writeIndex + data.length)
        some ({ b with
          data := some d'
          writeIndex := if wi ≥ b.size then 0 else wi
          count := u32 (b.count + data.length) }, true)
      else do
        -- first part up to the end of the buffer, the rest at its start
        let d' ← d.blit b.writeIndex (data.take firstChunk)
        let d'' ← d'.blit 0 (data.drop firstChunk)
        some ({ b with
          data := some d''
          writeIndex := u32 (data.length - firstChunk)
          count := u32 (b.count + data.length) }, true)

/-- The copy `NetBuffer_Read` and `NetBuffer_Peek` share: `length` bytes from
`readIndex` on, in one piece or in two. -/
def copyOut {size : Nat} (d : Buf UInt8 size) (readIndex length : Nat) : Option (List UInt8) :=
  let firstChunk := u32 (size - readIndex)
  if length ≤ firstChunk then d.slice readIndex length
  else do
    let first ← d.slice readIndex firstChunk
    let rest ← d.slice 0 (u32 (length - firstChunk))
    some (first ++ rest)

/-- `NetBuffer_Read`: the new buffer and, when the call returns true, the bytes
stored through `data`. -/
def read (b : NetBuffer) (length : Nat) : Option (NetBuffer × Option (List UInt8)) :=
  match b.data with
  | none => some (b, none)
  | some d =>
    if length = 0 then some (b, none)
    else if length > b.count then some (b, none)
    else do
      let out ← copyOut d b.readIndex length
      let firstChunk := u32 (b.size - b.readIndex)
      let ri := u32 (b.readIndex + length)
      some ({ b with
        readIndex :=
          if length ≤ firstChunk then (if ri ≥ b.size then 0 else ri)
          else u32 (length - firstChunk)
        count := u32 (b.count - length) }, some out)

def peek (b : NetBuffer) (length : Nat) : Option (Option (List UInt8)) :=
  match b.data with
  | none => some none
  | some d =>
    if length = 0 then some none
    else if length > b.count then some none
    else do
      let out ← copyOut d b.readIndex length
      some (some out)

end NetBuffer

/-! ## Calls -/

inductive NetOp where
  | write (data : List UInt8)
  | read (length : Nat)
  | peek (length : Nat)
  | reset

/-- What the caller sees: the returned flag and the bytes handed over. -/
structure NetOut where
  ok : Bool
  bytes : List UInt8

def NetOut.ofBytes : Option (List UInt8) → NetOut
  | none => ⟨false, []⟩
  | some l => ⟨true, l⟩

def NetOp.InRange : NetOp → Prop
  | .write data => data.length < 4294967296
  | .read length => length < 4294967296
  | .peek length => length < 4294967296
  | .reset => True

def NetBuffer.step (b : NetBuffer) : NetOp → Option (NetBuffer × NetOut)
  | .write data => (b.write data).map fun r => (r.1, ⟨r.2, []⟩)
  | .read length => (b.read length).map fun r => (r.1, NetOut.ofBytes r.2)
  | .peek length => (b.peek length).map fun r => (b, NetOut.ofBytes r)
  | .reset => some (b.reset, ⟨true, []⟩)

/-! ## The abstract machine -/

/-- A bounded queue of bytes, oldest first, and the sticky flag. -/
structure Fifo where
  capacity : Nat
  items : List UInt8
  overflow : Bool

/-- A write is taken when it is non-empty and fits; a read or a peek when that
many bytes are queued. -/
def Fifo.step (q : Fifo) : NetOp → Option (Fifo × NetOut)
  | .write data =>
    if data = [] then some (q, ⟨false, []⟩)
    else if data.length ≤ q.capacity - q.items.length then
      some ({ q with items := q.items ++ data }, ⟨true, []⟩)
    else some ({ q with overflow := true }, ⟨false, []⟩)
  | .read length =>
    if 0 < length ∧ length ≤ q.items.length then
      some ({ q with items := q.items.drop length }, ⟨true, q.items.take length⟩)
    else some (q, ⟨false, []⟩)
  | .peek length =>
    if 0 < length ∧ length ≤ q.items.length then some (q, ⟨true, q.items.take length⟩)
    else some (q, ⟨false, []⟩)
  | .reset => some ({ q with items := [], overflow := false }, ⟨true, []⟩)

/-! ## The ring invariant and the abstraction -/

/-- The queue a ring shows: `count` bytes from `readIndex` on. -/
def NetBuffer.contents (b : NetBuffer) : List UInt8 :=
  match b.data with
  | none => []
  | some d => window d.elems b.readIndex b.count

def NetBuffer.toFifo (b : NetBuffer) : Fifo := ⟨b.size, b.contents, b.overflow⟩

/-- What holds between calls of an initialised ring. -/
structure NetBuffer.RingInv (b : NetBuffer) : Prop where
  allocated : b.data ≠ none
  size_pos : 0 < b.size
  size_lt : b.size < 4294967296
  read_lt : b.readIndex < b.size
  write_eq : b.writeIndex = (b.readIndex + b.count) % b.size
  count_le : b.count ≤ b.size

namespace NetBuffer

variable {b : NetBuffer}

theorem RingInv.data_eq (h : b.RingInv) : ∃ d, b.data = some d := by
  cases hd : b.data with
  | none => exact absurd hd h.allocated
  | some d => exact ⟨d, rfl⟩

variable {d : Buf UInt8 b.size} {length : Nat}

theorem contents_of_data (hd : b.data = some d) :
    b.contents = window d.elems b.readIndex b.count := by
  simp only [contents, hd]

theorem RingInv.length_contents (h : b.RingInv) : b.contents.length = b.count := by
  obtain ⟨d, hd⟩ := h.data_eq
  rw [contents_of_data hd, length_window (by rw [d.size_eq]; exact h.count_le)]

theorem RingInv.getFree_eq (h : b.RingInv) : b.getFree = b.size - b.count :=
  u32_sub h.count_le h.size_lt

theorem toFifo_setOverflow (b : NetBuffer) :
    toFifo { b with overflow := true } = { b.toFifo with overflow := true } := by
  rcases b with ⟨size, _ | d, r, w, c, o⟩ <;> rfl

/-! ### Initialisation and reset -/

theorem reset_inv (hd : b.data ≠ none) (hpos : 0 < b.size) (hlt : b.size < 4294967296) :
    b.reset.RingInv where
  allocated := by simpa [reset] using hd
  size_pos := hpos
  size_lt := hlt
  read_lt := hpos
  write_eq := (Nat.zero_mod _).symm
  count_le := Nat.zero_le _

theorem reset_toFifo (hd : b.data ≠ none) : b.reset.toFifo = ⟨b.size, [], false⟩ := by
  obtain ⟨d, hd⟩ := Option.ne_none_iff_exists'.mp hd
  simp [toFifo, contents, reset, hd, window]

/-! ### Writing -/

theorem write_nil (b : NetBuffer) : b.write [] = some (b, false) := by
  unfold write
  cases b.data <;> rfl

section

variable (h : b.RingInv)
include h

theorem write_overlong (data : List UInt8) (hl : b.size - b.count < data.length) :
    b.write data = some ({ b with overflow := true }, false) := by
  obtain ⟨d, hd⟩ := h.data_eq
  simp only [write, hd, h.getFree_eq]
  rw [if_neg (by omega), if_pos hl]

theorem write_fits (hd : b.data = some d) {data : List UInt8}
    (hpos : 0 < data.length) (hfit : data.length ≤ b.size - b.count) :
    ∃ d' : Buf UInt8 b.size, RingWrite d.elems b.writeIndex data d'.elems ∧
      b.write data = some ({ b with
        data := some d'
        writeIndex := (b.writeIndex + data.length) % b.size
        count := b.count + data.length }, true) := by
  have hw : b.writeIndex < b.size := h.write_eq ▸ Nat.mod_lt _ h.size_pos
  have hlt := h.size_lt
  have hcount : u32 (b.count + data.length) = b.count + data.length :=
    u32_of_lt (n := b.count + data.length) (by omega)
  have hfirst := u32_sub hw.le hlt
  have hmod := mod_of_lt_two_mul (k := b.writeIndex + data.length) (N := b.size) (by omega)
  simp only [write, hd, h.getFree_eq, hfirst, hcount]
  rw [if_neg (by omega), if_neg (by omega)]
  by_cases hone : data.length ≤ b.size - b.writeIndex
  · rw [if_pos hone]
    obtain ⟨d', hd', he⟩ := d.blit_eq_some b.writeIndex data (by omega)
    have hwi : u32 (b.writeIndex + data.length) = b.writeIndex + data.length :=
      u32_of_lt (n := b.writeIndex + data.length) (by omega)
    have hfold : (if b.writeIndex + data.length ≥ b.size then 0 else b.writeIndex + data.length)
        = (b.writeIndex + data.length) % b.size := by
      rw [hmod]
      split <;> split <;> omega
    refine ⟨d', ?_, ?_⟩
    · rw [he]
      exact ringWrite_one (by rw [d.size_eq]; omega)
    · simp [hd', hwi, hfold]
  · rw [if_neg hone]
    obtain ⟨d', hd', he⟩ := d.blit_eq_some b.writeIndex
      (data.take (b.size - b.writeIndex)) (by rw [length_take]; omega)
    obtain ⟨d'', hd'', he'⟩ := d'.blit_eq_some 0
      (data.drop (b.size - b.writeIndex)) (by rw [length_drop]; omega)
    have hrest : u32 ((data.length : Int) - (b.size - b.writeIndex : Nat))
        = (b.writeIndex + data.length) % b.size := by
      rw [u32_sub (by omega) (by omega), hmod, if_neg (by omega)]
      omega
    refine ⟨d'', ?_, ?_⟩
    · rw [he', he]
      have key := ringWrite_two d.elems data (w := b.writeIndex)
        (by rw [d.size_eq]; exact hw) (by rw [d.size_eq]; omega) (by rw [d.size_eq]; omega)
      rwa [d.size_eq] at key
    · simp [hd', hd'', hrest]

theorem write_ok {data : List UInt8} (hpos : 0 < data.length)
    (hfit : data.length ≤ b.size - b.count) :
    ∃ b', b.write data = some (b', true) ∧ b'.RingInv ∧
      b'.toFifo = ⟨b.size, b.contents ++ data, b.overflow⟩ := by
  obtain ⟨d, hd⟩ := h.data_eq
  obtain ⟨d', hring, hstep⟩ := write_fits h hd hpos hfit
  refine ⟨_, hstep, ?_, ?_⟩
  · refine ⟨Option.some_ne_none _, h.size_pos, h.size_lt, h.read_lt, ?_, ?_⟩
    · rw [h.write_eq, Nat.mod_add_mod, Nat.add_assoc]
    · show b.count + data.length ≤ b.size
      omega
  · have hwrite := h.write_eq
    rw [← d.size_eq] at hwrite
    rw [hwrite] at hring
    simp only [toFifo, contents, hd]
    rw [window_append hring (by rw [d.size_eq]; omega)]

/-! ### Reading and peeking -/

theorem copyOut_eq (hd : b.data = some d) (hle : length ≤ b.count) :
    copyOut d b.readIndex length = some (b.contents.take length) := by
  have hr := h.read_lt
  have hlt := h.size_lt
  have hcount := h.count_le
  have hfirst := u32_sub hr.le hlt
  rw [contents_of_data hd, window_take hle]
  simp only [copyOut, hfirst]
  by_cases hone : length ≤ b.size - b.readIndex
  · rw [if_pos hone, Buf.slice_eq_some (by omega), window_eq_slice (by rw [d.size_eq]; omega)]
  · have hrest : u32 ((length : Int) - (b.size - b.readIndex : Nat))
        = length - (b.size - b.readIndex) := u32_sub (by omega) (by omega)
    rw [if_neg hone, hrest, Buf.slice_eq_some (by omega), Buf.slice_eq_some (by omega),
      window_eq_two (by rw [d.size_eq]; omega) (by rw [d.size_eq]; omega), d.size_eq,
      take_take, Nat.min_eq_left (by omega), take_of_length_le (by rw [length_drop, d.size_eq])]
    rfl

theorem read_none (hno : ¬ (0 < length ∧ length ≤ b.count)) : b.read length = some (b, none) := by
  obtain ⟨d, hd⟩ := h.data_eq
  simp only [read, hd]
  by_cases hz : length = 0
  · rw [if_pos hz]
  · rw [if_neg hz, if_pos (by omega)]

theorem read_ok (hpos : 0 < length) (hle : length ≤ b.count) :
    ∃ b', b.read length = some (b', some (b.contents.take length)) ∧ b'.RingInv ∧
      b'.toFifo = ⟨b.size, b.contents.drop length, b.overflow⟩ := by
  obtain ⟨d, hd⟩ := h.data_eq
  have hr := h.read_lt
  have hlt := h.size_lt
  have hcount := h.count_le
  have hfirst := u32_sub hr.le hlt
  have hmod := mod_of_lt_two_mul (k := b.readIndex + length) (N := b.size) (by omega)
  have hri : (if length ≤ b.size - b.readIndex
      then (if u32 (b.readIndex + length) ≥ b.size then 0 else u32 (b.readIndex + length))
      else u32 ((length : Int) - (b.size - b.readIndex : Nat)))
      = (b.readIndex + length) % b.size := by
    by_cases hone : length ≤ b.size - b.readIndex
    · have hsum : u32 (b.readIndex + length) = b.readIndex + length :=
        u32_of_lt (n := b.readIndex + length) (by omega)
      rw [if_pos hone, hmod]
      split <;> split <;> omega
    · rw [if_neg hone, u32_sub (by omega) (by omega), hmod, if_neg (by omega)]
      omega
  have hleft : u32 (b.count - length) = b.count - length := u32_sub hle (by omega)
  have hstep : b.read length = some ({ b with
      readIndex := (b.readIndex + length) % b.size
      count := b.count - length }, some (b.contents.take length)) := by
    simp only [read, hd, hfirst, hri, hleft, copyOut_eq h hd hle]
    rw [if_neg (by omega), if_neg (by omega)]
    rfl
  refine ⟨_, hstep, ⟨h.allocated, h.size_pos, h.size_lt, Nat.mod_lt _ h.size_pos, ?_, ?_⟩, ?_⟩
  · show b.writeIndex = ((b.readIndex + length) % b.size + (b.count - length)) % b.size
    rw [h.write_eq, Nat.mod_add_mod]
    congr 1
    omega
  · show b.count - length ≤ b.size
    omega
  · have hdrop := window_drop d.elems b.readIndex hle (by rw [d.size_eq]; omega)
    rw [d.size_eq] at hdrop
    simp only [toFifo, contents, hd, hdrop]

theorem peek_eq (length : Nat) :
    b.peek length =
      some (if 0 < length ∧ length ≤ b.count then some (b.contents.take length) else none) := by
  obtain ⟨d, hd⟩ := h.data_eq
  simp only [peek, hd]
  by_cases hz : length = 0
  · rw [if_pos hz, if_neg (by omega)]
  · by_cases hle : length ≤ b.count
    · rw [if_neg hz, if_neg (by omega), copyOut_eq h hd hle, if_pos (by omega)]
      rfl
    · rw [if_neg hz, if_pos (by omega), if_neg (by omega)]

end

end NetBuffer

/-! ## Refinement -/

theorem step_refines (b : NetBuffer) (q : Fifo) (op : NetOp) (h : b.RingInv ∧ q = b.toFifo) :
    ∃ b' q' out, b.step op = some (b', out) ∧ q.step op = some (q', out) ∧
      (b'.RingInv ∧ q' = b'.toFifo) := by
  obtain ⟨hb, rfl⟩ := h
  have hlen := hb.length_contents
  cases op with
  | write data =>
    by_cases hnil : data = []
    · subst hnil
      refine ⟨b, b.toFifo, ⟨false, []⟩, ?_, ?_, hb, rfl⟩
      · simp [NetBuffer.step, NetBuffer.write_nil]
      · simp [Fifo.step]
    · have hpos : 0 < data.length := length_pos_iff.mpr hnil
      by_cases hfit : data.length ≤ b.size - b.count
      · obtain ⟨b', hw, hb', hf⟩ := NetBuffer.write_ok hb hpos hfit
        refine ⟨b', b'.toFifo, ⟨true, []⟩, ?_, ?_, hb', rfl⟩
        · simp [NetBuffer.step, hw]
        · simp only [Fifo.step, if_neg hnil]
          rw [if_pos (by simpa [NetBuffer.toFifo, hlen] using hfit), hf]
          rfl
      · refine ⟨{ b with overflow := true }, { b.toFifo with overflow := true }, ⟨false, []⟩,
          ?_, ?_, { hb with }, (NetBuffer.toFifo_setOverflow b).symm⟩
        · have hw := NetBuffer.write_overlong hb data (by omega)
          simp [NetBuffer.step, hw]
        · simp only [Fifo.step, if_neg hnil]
          rw [if_neg (by simpa [NetBuffer.toFifo, hlen] using hfit)]
  | read length =>
    by_cases hc : 0 < length ∧ length ≤ b.count
    · obtain ⟨b', hr, hb', hf⟩ := NetBuffer.read_ok hb hc.1 hc.2
      refine ⟨b', b'.toFifo, ⟨true, b.contents.take length⟩, ?_, ?_, hb', rfl⟩
      · simp [NetBuffer.step, hr, NetOut.ofBytes]
      · simp only [Fifo.step]
        rw [if_pos (by simpa [NetBuffer.toFifo, hlen] using hc), hf]
        rfl
    · refine ⟨b, b.toFifo, ⟨false, []⟩, ?_, ?_, hb, rfl⟩
      · simp [NetBuffer.step, NetBuffer.read_none hb hc, NetOut.ofBytes]
      · simp only [Fifo.step]
        rw [if_neg (by simpa [NetBuffer.toFifo, hlen] using hc)]
  | peek length =>
    refine ⟨b, b.toFifo, NetOut.ofBytes (if 0 < length ∧ length ≤ b.count
      then some (b.contents.take length) else none), ?_, ?_, hb, rfl⟩
    · simp [NetBuffer.step, NetBuffer.peek_eq hb]
    · simp only [Fifo.step, NetBuffer.toFifo, hlen]
      split <;> rfl
  | reset =>
    refine ⟨b.reset, b.reset.toFifo, ⟨true, []⟩, rfl, ?_,
      NetBuffer.reset_inv hb.allocated hb.size_pos hb.size_lt, rfl⟩
    rw [NetBuffer.reset_toFifo hb.allocated]
    rfl

theorem Fifo.step_capacity {q q' : Fifo} {op : NetOp} {out : NetOut}
    (h : q.step op = some (q', out)) : q'.capacity = q.capacity := by
  cases op <;> simp only [Fifo.step] at h <;> (try split at h) <;> (try split at h) <;>
    (obtain ⟨rfl, -⟩ := Prod.mk.inj (Option.some.inj h); rfl)

theorem Fifo.run_capacity {q q' : Fifo} {ops : List NetOp} {outs : List NetOut}
    (h : run Fifo.step q ops = some (q', outs)) : q'.capacity = q.capacity :=
  run_inv (fun p => p.capacity = q.capacity)
    (fun _ _ _ _ hp hs => (Fifo.step_capacity hs).trans hp) rfl h

/-- **The ring is a bounded FIFO.** After any calls on a fresh ring the same calls on the empty
queue have given the same answers and end in the queue the ring shows; and from there each kind of
call does what its queue operation does. -/
theorem netBuffer_refines_fifo (size : Nat) (hpos : 0 < size) (hsize : size < 4294967296)
    (raw : Buf UInt8 size) (ops : List NetOp) (hops : ∀ op ∈ ops, op.InRange) :
    ∃ b₀ b outs,
      NetBuffer.init size (some raw) = some b₀ ∧
      run NetBuffer.step b₀ ops = some (b, outs) ∧
      run Fifo.step ⟨size, [], false⟩ ops = some (⟨size, b.contents, b.overflow⟩, outs) ∧
      b.size = size ∧ b.readIndex < size ∧
      b.writeIndex = (b.readIndex + b.count) % size ∧ b.count ≤ size ∧
      (∀ data : List UInt8, data.length < 4294967296 →
        (0 < data.length ∧ data.length ≤ size - b.count →
          ∃ b', b.write data = some (b', true) ∧ b'.contents = b.contents ++ data) ∧
        (¬ (0 < data.length ∧ data.length ≤ size - b.count) →
          b.write data = some ({ b with
            overflow := b.overflow || decide (size - b.count < data.length) }, false))) ∧
      (∀ length, length < 4294967296 →
        (0 < length ∧ length ≤ b.count →
          ∃ b', b.read length = some (b', some (b.contents.take length)) ∧
            b'.contents = b.contents.drop length) ∧
        (¬ (0 < length ∧ length ≤ b.count) → b.read length = some (b, none)) ∧
        b.peek length =
          some (if 0 < length ∧ length ≤ b.count then some (b.contents.take length)
            else none)) := by
  have hinit : NetBuffer.init size (some raw)
      = some (NetBuffer.reset ⟨size, some raw, 0, 0, 0, false⟩) := by
    simp only [NetBuffer.init, if_neg (by omega : ¬ size = 0)]
  have hinv := NetBuffer.reset_inv (b := ⟨size, some raw, 0, 0, 0, false⟩)
    (Option.some_ne_none _) hpos hsize
  obtain ⟨b, q, outs, hrun, hq, hb, rfl⟩ :=
    run_refines NetOp.InRange (fun s a i hR _ => step_refines s a i hR) ops
      ⟨hinv, rfl⟩ hops
  have hbsize : b.size = size := Fifo.run_capacity hq
  subst hbsize
  refine ⟨_, b, outs, hinit, hrun, hq, rfl, hb.read_lt, hb.write_eq, hb.count_le, ?_, ?_⟩
  · intro data _
    constructor
    · rintro ⟨hdpos, hfit⟩
      obtain ⟨b', hw, -, hf⟩ := NetBuffer.write_ok hb hdpos hfit
      exact ⟨b', hw, congrArg Fifo.items hf⟩
    · intro hno
      by_cases hlong : b.size - b.count < data.length
      · rw [NetBuffer.write_overlong hb data hlong, decide_eq_true hlong, Bool.or_true]
      · obtain rfl : data = [] := length_eq_zero_iff.mp (by omega)
        rw [NetBuffer.write_nil, decide_eq_false hlong, Bool.or_false]
  · intro length _
    refine ⟨?_, NetBuffer.read_none hb, NetBuffer.peek_eq hb length⟩
    rintro ⟨hlpos, hle⟩
    obtain ⟨b', hr, -, hf⟩ := NetBuffer.read_ok hb hlpos hle
    exact ⟨b', hr, congrArg Fifo.items hf⟩

/-- A ring of three bytes, written past its end after a read. -/
theorem netBuffer_refines_fifo_three :
    ∃ b₀ b outs,
      NetBuffer.init 3 (some (Buf.fill 3 0xA5)) = some b₀ ∧
      run NetBuffer.step b₀ [.write [1, 2], .read 2, .write [3, 4, 5]] = some (b, outs) ∧
      b.contents = [3, 4, 5] ∧ b.writeIndex = (b.readIndex + b.count) % 3 := by
  obtain ⟨b₀, b, outs, h₀, hrun, -, -, -, hw, -⟩ :=
    netBuffer_refines_fifo 3 (by decide) (by decide) (Buf.fill 3 0xA5)
      [.write [1, 2], .read 2, .write [3, 4, 5]]
      (by simp [NetOp.InRange])
  cases h₀
  cases hrun
  exact ⟨_, _, _, rfl, rfl, by decide, hw⟩

end Cant.Network
