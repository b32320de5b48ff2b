/-
# `ShiftRegister` — shift registers with feedback

A register of `w` bits goes out bit by bit, and the bit that goes out decides whether a word, the
polynomial, is exclusive-ored in. In which order the bits go out is all that distinguishes a
register shifted to the right from one shifted to the left, so that is what a `ShiftRegister` is:
`cell x i` is the bit of `x` that goes out after `i` shifts.

**Proved here.**

    bits fed one by one = bits put into the register at once, and then as many shifts (`feed_eq`)
    k shifts = the register moved by k places, and k shifts of what stood in front
      (`iterate_next_load`)
    two messages that differ in one window: what becomes of the window (`feed_xor_feed`)
    which windows leave no trace (`iterate_next_eq_zero`)
-/
import Mathlib.Logic.Function.Iterate

namespace Cant

open List Function

/-- The order in which the bits of a register go out. -/
structure ShiftRegister (w : Nat) where
  /-- The bit that goes out after so many shifts. -/
  cell : BitVec w → Nat → Bool
  /-- One place on. -/
  shift : BitVec w → BitVec w
  /-- The register that holds these bits, the first one to go out first. -/
  load : List Bool → BitVec w
  ext : ∀ {x y}, (∀ i, cell x i = cell y i) → x = y
  cell_zero : ∀ i, cell 0#w i = false
  cell_xor : ∀ x y i, cell (x ^^^ y) i = (cell x i ^^ cell y i)
  cell_shift : ∀ x i, cell (shift x) i = cell x (i + 1)
  cell_load : ∀ bits i, cell (load bits) i = (decide (i < w) && bits.getD i false)
  cell_of_le : ∀ x i, w ≤ i → cell x i = false

namespace ShiftRegister

def right (w : Nat) : ShiftRegister w where
  cell x i := x.getLsbD i
  shift x := x >>> 1
  load bits := (BitVec.ofBoolListLE bits).setWidth w
  ext h := BitVec.eq_of_getLsbD_eq fun i _ => h i
  cell_zero i := BitVec.getLsbD_zero
  cell_xor x y i := BitVec.getLsbD_xor
  cell_shift x i := by rw [BitVec.getLsbD_ushiftRight, Nat.add_comm]
  cell_load bits i := by rw [BitVec.getLsbD_setWidth, BitVec.getLsbD_ofBoolListLE]
  cell_of_le x i h := BitVec.getLsbD_of_ge x i h

def left (w : Nat) : ShiftRegister w where
  cell x i := x.getMsbD i
  shift x := x <<< 1
  load bits := ((BitVec.ofBoolListLE bits).setWidth w).reverse
  ext h := BitVec.eq_of_getMsbD_eq fun i _ => h i
  cell_zero i := BitVec.getMsbD_zero
  cell_xor x y i := BitVec.getMsbD_xor
  cell_shift x i := BitVec.getMsbD_shiftLeft x 1
  cell_load bits i := by
    rw [BitVec.getMsbD_reverse, BitVec.getLsbD_setWidth, BitVec.getLsbD_ofBoolListLE]
  cell_of_le x i h := BitVec.getMsbD_of_ge x i h

variable {w : Nat} (R : ShiftRegister w) (p : BitVec w)

/-- One shift; `p` is exclusive-ored in if a one goes out. -/
def next (x : BitVec w) : BitVec w := R.shift x ^^^ (if R.cell x 0 then p else 0#w)

def bitStep (x : BitVec w) (b : Bool) : BitVec w :=
  R.shift x ^^^ (if R.cell x 0 ^^ b then p else 0#w)

def bits (x : BitVec w) : List Bool := (List.range w).map (R.cell x)

def feed (x : BitVec w) (bits : List Bool) : BitVec w := bits.foldl (R.bitStep p) x

variable {R p}

/-! ## Cells -/

theorem cell_ite (c : Bool) (i : Nat) : R.cell (if c then p else 0#w) i = (c && R.cell p i) := by
  cases c with
  | false => rw [if_neg Bool.false_ne_true, R.cell_zero, Bool.false_and]
  | true => rw [if_pos rfl, Bool.true_and]

theorem cell_next (x : BitVec w) (i : Nat) :
    R.cell (R.next p x) i = (R.cell x (i + 1) ^^ (R.cell x 0 && R.cell p i)) := by
  rw [next, R.cell_xor, R.cell_shift, cell_ite]

theorem cell_bitStep (x : BitVec w) (b : Bool) (i : Nat) :
    R.cell (R.bitStep p x b) i = (R.cell x (i + 1) ^^ ((R.cell x 0 ^^ b) && R.cell p i)) := by
  rw [bitStep, R.cell_xor, R.cell_shift, cell_ite]

theorem length_bits (x : BitVec w) : (R.bits x).length = w := by
  rw [bits, length_map, length_range]

theorem getD_bits (x : BitVec w) (i : Nat) : (R.bits x).getD i false = R.cell x i := by
  rw [getD_eq_getElem?_getD, bits, getElem?_map]
  rcases Nat.lt_or_ge i w with hi | hi
  · rw [getElem?_range hi]
    rfl
  · rw [getElem?_eq_none (by rw [length_range]; exact hi), R.cell_of_le x i hi]
    rfl

variable (R) in
theorem eq_zero_iff {x : BitVec w} : x = 0#w ↔ ∀ i, R.cell x i = false := by
  constructor
  · rintro rfl i
    exact R.cell_zero i
  · intro h
    exact R.ext fun i => (h i).trans (R.cell_zero i).symm

theorem next_xor (x y : BitVec w) : R.next p (x ^^^ y) = R.next p x ^^^ R.next p y := by
  refine R.ext fun i => ?_
  simp only [cell_next, R.cell_xor]
  cases R.cell x 0 <;> cases R.cell y 0 <;> cases R.cell p i <;>
    cases R.cell x (i + 1) <;> cases R.cell y (i + 1) <;> rfl

theorem iterate_next_xor (n : Nat) (x y : BitVec w) :
    (R.next p)^[n] (x ^^^ y) = (R.next p)^[n] x ^^^ (R.next p)^[n] y := by
  induction n generalizing x y with
  | zero => rfl
  | succ n ih => rw [iterate_succ_apply, next_xor, ih, ← iterate_succ_apply,
      ← iterate_succ_apply]

theorem next_zero : R.next p 0#w = 0#w := by
  refine R.eq_zero_iff.mpr fun i => ?_
  rw [cell_next, R.cell_zero, R.cell_zero]
  rfl

theorem iterate_next_zero (n : Nat) : (R.next p)^[n] 0#w = 0#w := by
  induction n with
  | zero => rfl
  | succ n ih => rw [iterate_succ_apply, next_zero, ih]

/-! ## Messages -/

theorem bitStep_xor_load (x : BitVec w) (b : Bool) {bits : List Bool}
    (hbits : ∀ i, w ≤ i → (b :: bits).getD i false = false) :
    R.bitStep p x b ^^^ R.load bits = R.next p (x ^^^ R.load (b :: bits)) := by
  refine R.ext fun i => ?_
  simp only [R.cell_xor, cell_bitStep, cell_next, R.cell_load, getD_cons_succ, getD_cons_zero]
  rcases Nat.lt_or_ge (i + 1) w with hin | hout
  · have hi : i < w := Nat.lt_of_succ_lt hin
    have hpos : 0 < w := Nat.zero_lt_of_lt hi
    simp only [hin, hi, hpos, decide_true, Bool.true_and]
    cases R.cell x 0 <;> cases b <;> cases R.cell p i <;> cases R.cell x (i + 1) <;>
      cases bits.getD i false <;> rfl
  · have hlast : bits.getD i false = false := hbits (i + 1) hout
    rw [hlast]
    rcases Nat.eq_zero_or_pos w with rfl | hpos
    · simp [R.cell_of_le p i (Nat.zero_le i)]
    · simp [hpos]

/-- **Fed one by one or put in at once.** No bit may come when the register is full. -/
theorem feed_eq (bits : List Bool) (hbits : ∀ i, w ≤ i → bits.getD i false = false)
    (x : BitVec w) : R.feed p x bits = (R.next p)^[bits.length] (x ^^^ R.load bits) := by
  induction bits generalizing x with
  | nil =>
    have hload : R.load [] = 0#w := by
      refine R.eq_zero_iff.mpr fun i => ?_
      rw [R.cell_load, getD_nil, Bool.and_false]
    rw [hload, BitVec.xor_zero]
    rfl
  | cons b bits ih =>
    have hrest : ∀ i, w ≤ i → bits.getD i false = false :=
      fun i hi => hbits (i + 1) (Nat.le_succ_of_le hi)
    calc R.feed p x (b :: bits) = R.feed p (R.bitStep p x b) bits := rfl
      _ = (R.next p)^[bits.length] (R.bitStep p x b ^^^ R.load bits) := ih hrest _
      _ = (R.next p)^[bits.length] (R.next p (x ^^^ R.load (b :: bits))) := by
          rw [bitStep_xor_load x b hbits]
      _ = (R.next p)^[(b :: bits).length] (x ^^^ R.load (b :: bits)) := rfl

theorem feed_xor (a b : List Bool) (hlen : a.length = b.length) (x y : BitVec w) :
    R.feed p x a ^^^ R.feed p y b = R.feed p (x ^^^ y) (List.zipWith (· ^^ ·) a b) := by
  induction a generalizing b x y with
  | nil =>
    obtain rfl := length_eq_zero_iff.mp hlen.symm
    rfl
  | cons c a ih =>
    cases b with
    | nil => cases hlen
    | cons d b =>
      have hstep : R.bitStep p x c ^^^ R.bitStep p y d = R.bitStep p (x ^^^ y) (c ^^ d) := by
        refine R.ext fun i => ?_
        simp only [R.cell_xor, cell_bitStep]
        cases R.cell x 0 <;> cases R.cell y 0 <;> cases c <;> cases d <;> cases R.cell p i <;>
          cases R.cell x (i + 1) <;> cases R.cell y (i + 1) <;> rfl
      calc R.feed p x (c :: a) ^^^ R.feed p y (d :: b)
          = R.feed p (R.bitStep p x c) a ^^^ R.feed p (R.bitStep p y d) b := rfl
        _ = R.feed p (R.bitStep p (x ^^^ y) (c ^^ d)) (List.zipWith (· ^^ ·) a b) := by
            rw [ih b (Nat.succ.inj hlen), hstep]
        _ = R.feed p (x ^^^ y) (List.zipWith (· ^^ ·) (c :: a) (d :: b)) := rfl

/-! ## Several places at once -/

theorem cell_iterate_shift (n : Nat) (x : BitVec w) (i : Nat) :
    R.cell (R.shift^[n] x) i = R.cell x (i + n) := by
  induction n generalizing x with
  | zero => rfl
  | succ n ih =>
    rw [iterate_succ_apply, ih, R.cell_shift]
    rfl

theorem iterate_next_of_quiet {n : Nat} {x : BitVec w} (h : ∀ i < n, R.cell x i = false) :
    (R.next p)^[n] x = R.shift^[n] x := by
  induction n generalizing x with
  | zero => rfl
  | succ n ih =>
    have hquiet : R.next p x = R.shift x := by
      rw [next, h 0 (Nat.zero_lt_succ n)]
      exact BitVec.xor_zero
    have hrest : ∀ i < n, R.cell (R.shift x) i = false := by
      intro i hi
      rw [R.cell_shift]
      exact h (i + 1) (Nat.succ_lt_succ hi)
    rw [iterate_succ_apply, hquiet, ih hrest, iterate_succ_apply]

/-- **`k` shifts** of a register to which `bits` was added move it by `k` places, and add `k` shifts
of the `k` bits in front. -/
theorem iterate_next_load (x : BitVec w) {bits front : List Bool}
    (hlen : bits.length = front.length)
    (hfront : ∀ i < front.length, front.getD i false = (R.cell x i ^^ bits.getD i false)) :
    (R.next p)^[front.length] (x ^^^ R.load bits) =
      R.shift^[front.length] x ^^^ (R.next p)^[front.length] (R.load front) := by
  have hpast : ∀ {l : List Bool} {i : Nat}, l.length ≤ i → l.getD i false = false := by
    intro l i hi
    rw [getD_eq_getElem?_getD, getElem?_eq_none hi]
    rfl
  -- what does not stand in front
  have hrest : ∀ i, R.cell (x ^^^ R.load bits ^^^ R.load front) i =
      if i < front.length then false else R.cell x i := by
    intro i
    simp only [R.cell_xor, R.cell_load]
    split
    case isTrue hi =>
      rw [hfront i hi]
      rcases Nat.lt_or_ge i w with hw | hw
      · simp only [hw, decide_true, Bool.true_and]
        cases R.cell x i <;> cases bits.getD i false <;> rfl
      · simp [R.cell_of_le x i hw]
    case isFalse hi =>
      rw [hpast (Nat.not_lt.mp hi), hpast (hlen ▸ Nat.not_lt.mp hi)]
      simp
  have hquiet : (R.next p)^[front.length] (x ^^^ R.load bits ^^^ R.load front) =
      R.shift^[front.length] x := by
    rw [iterate_next_of_quiet fun i hi => (hrest i).trans (if_pos hi)]
    refine R.ext fun i => ?_
    rw [cell_iterate_shift, cell_iterate_shift, hrest,
      if_neg (Nat.not_lt.mpr (Nat.le_add_left _ _))]
  calc (R.next p)^[front.length] (x ^^^ R.load bits)
      = (R.next p)^[front.length] (x ^^^ R.load bits ^^^ R.load front ^^^ R.load front) := by
        rw [BitVec.xor_assoc (x ^^^ R.load bits), BitVec.xor_self, BitVec.xor_zero]
    _ = R.shift^[front.length] x ^^^ (R.next p)^[front.length] (R.load front) := by
        rw [iterate_next_xor, hquiet]

/-- **A table** of the `k` shifts of `k` bits takes a register over `k` bits of a message at
once. -/
theorem feed_table (x : BitVec w) {bits front : List Bool} (hlen : bits.length = front.length)
    (hw : front.length ≤ w)
    (hfront : ∀ i < front.length, front.getD i false = (R.cell x i ^^ bits.getD i false)) :
    R.feed p x bits = R.shift^[front.length] x ^^^ (R.next p)^[front.length] (R.load front) := by
  have hbits : ∀ i, w ≤ i → bits.getD i false = false := by
    intro i hi
    rw [getD_eq_getElem?_getD, getElem?_eq_none (by omega)]
    rfl
  rw [feed_eq bits hbits, hlen, iterate_next_load x hlen hfront]

theorem left_iterate_shift (n : Nat) (x : BitVec w) : (left w).shift^[n] x = x <<< n := by
  refine (left w).ext fun i => ?_
  rw [cell_iterate_shift]
  exact (BitVec.getMsbD_shiftLeft x n).symm

theorem right_load_bits {m : Nat} (y : BitVec m) :
    (right w).load ((right m).bits y) = y.setWidth w := by
  refine (right w).ext fun i => ?_
  rw [cell_load, getD_bits]
  exact (BitVec.getLsbD_setWidth w y i).symm

theorem left_load_bits {m : Nat} (hm : m ≤ w) (y : BitVec m) :
    (left w).load ((left m).bits y) = y.setWidth w <<< (w - m) := by
  refine (left w).ext fun i => ?_
  rw [cell_load, getD_bits]
  have hcell : (left w).cell (y.setWidth w <<< (w - m)) i = y.getMsbD i := by
    show (y.setWidth w <<< (w - m)).getMsbD i = y.getMsbD i
    have hback : i + (w - m) + m - w = i := by omega
    rw [BitVec.getMsbD_shiftLeft, BitVec.getMsbD_setWidth, hback,
      decide_eq_true (Nat.le_add_left _ _), Bool.true_and]
  rw [hcell]
  rcases Nat.lt_or_ge i w with hi | hi
  · rw [decide_eq_true hi]
    rfl
  · rw [decide_eq_false (Nat.not_lt.mpr hi), Bool.false_and,
      BitVec.getMsbD_of_ge y i (Nat.le_trans hm hi)]

/-! ## Differences in a window -/

theorem getD_zipWith_xor {a b : List Bool} (hlen : a.length = b.length) (i : Nat) :
    (List.zipWith (· ^^ ·) a b).getD i false = (a.getD i false ^^ b.getD i false) := by
  induction a generalizing b i with
  | nil =>
    obtain rfl := length_eq_zero_iff.mp hlen.symm
    rfl
  | cons c a ih =>
    cases b with
    | nil => cases hlen
    | cons d b =>
      cases i with
      | zero => rfl
      | succ i => exact ih (Nat.succ.inj hlen) i

theorem feed_of_zeros (bits : List Bool) (h : ∀ i, bits.getD i false = false) :
    R.feed p 0#w bits = 0#w := by
  have hload : R.load bits = 0#w := by
    refine R.eq_zero_iff.mpr fun i => ?_
    rw [R.cell_load, h, Bool.and_false]
  rw [feed_eq bits fun i _ => h i, hload, BitVec.xor_self, iterate_next_zero]

/-- **What becomes of a window.** Two messages that agree outside `w` bits from `start` on
leave the same register, up to what the shifts to the end of the message make of the bits in which
they differ. -/
theorem feed_xor_feed {a b : List Bool} (hlen : a.length = b.length) {start : Nat}
    (hsame : ∀ i, i < start ∨ start + w ≤ i → a.getD i false = b.getD i false) (x : BitVec w) :
    R.feed p x a ^^^ R.feed p x b =
      (R.next p)^[a.length - start] (R.load ((List.zipWith (· ^^ ·) a b).drop start)) := by
  have hzero : ∀ i, i < start ∨ start + w ≤ i →
      (List.zipWith (· ^^ ·) a b).getD i false = false := by
    intro i hi
    rw [getD_zipWith_xor hlen, hsame i hi, Bool.xor_self]
  have hfirst : ∀ i, ((List.zipWith (· ^^ ·) a b).take start).getD i false = false := by
    intro i
    rw [getD_eq_getElem?_getD, getElem?_take]
    split
    case isTrue hi =>
      exact hzero i (.inl hi)
    case isFalse => rfl
  have hlast : ∀ i, w ≤ i → ((List.zipWith (· ^^ ·) a b).drop start).getD i false = false := by
    intro i hi
    rw [getD_eq_getElem?_getD, getElem?_drop]
    exact hzero (start + i) (.inr (Nat.add_le_add_left hi start))
  have hcount : ((List.zipWith (· ^^ ·) a b).drop start).length = a.length - start := by
    rw [length_drop, length_zipWith, ← hlen, Nat.min_self]
  have hfeed : R.feed p 0#w (List.zipWith (· ^^ ·) a b) =
      R.feed p (R.feed p 0#w ((List.zipWith (· ^^ ·) a b).take start))
        ((List.zipWith (· ^^ ·) a b).drop start) := by
    rw [feed, feed, feed, ← foldl_append, take_append_drop]
  have hz : 0#w ^^^ R.load ((List.zipWith (· ^^ ·) a b).drop start) =
      R.load ((List.zipWith (· ^^ ·) a b).drop start) := BitVec.zero_xor
  rw [feed_xor a b hlen, BitVec.xor_self]
  exact hfeed.trans (by rw [feed_of_zeros _ hfirst, feed_eq _ hlast, hcount, hz])

/-! ## Which windows leave no trace -/

/-- All ones of the register go out within `k` shifts. -/
def Within (R : ShiftRegister w) (k : Nat) (x : BitVec w) : Prop := ∀ i, k ≤ i → R.cell x i = false

/-- The last one of the polynomial goes out with the `k`th shift. -/
structure HasLength (R : ShiftRegister w) (p : BitVec w) (k : Nat) : Prop where
  within : R.Within k p
  last : ∃ j, k = j + 1 ∧ R.cell p j = true

variable {k : Nat}

variable (hp : R.HasLength p k)
include hp

theorem within_next {m : Nat} {x : BitVec w} (hx : R.Within (m + 1) x) :
    R.Within (max m k) (R.next p x) := by
  intro i hi
  rw [cell_next, hx (i + 1) (by omega), hp.within i (by omega), Bool.and_false, Bool.xor_self]

theorem within_iterate_next (n : Nat) (x : BitVec w) :
    R.Within (max (w - n) k) ((R.next p)^[n] x) := by
  induction n with
  | zero => exact fun i hi => R.cell_of_le x i (by omega)
  | succ n ih =>
    rw [iterate_succ_apply']
    intro i hi
    exact within_next hp (m := max (w - n) k - 1) (fun j hj => ih j (by omega)) i (by omega)

theorem eq_zero_of_next {x : BitVec w} (hx : R.Within k x) (h : R.next p x = 0#w) : x = 0#w := by
  have hcell : ∀ i, (R.cell x (i + 1) ^^ (R.cell x 0 && R.cell p i)) = false := by
    intro i
    rw [← cell_next, h]
    exact R.cell_zero i
  obtain ⟨j, rfl, hlast⟩ := hp.last
  have hfirst : R.cell x 0 = false := by
    have hj := hcell j
    rw [hx (j + 1) .refl, hlast, Bool.and_true, Bool.false_xor] at hj
    exact hj
  refine R.eq_zero_iff.mpr fun i => ?_
  cases i with
  | zero => exact hfirst
  | succ i =>
    have hi := hcell i
    rw [hfirst, Bool.false_and, Bool.xor_false] at hi
    exact hi

theorem eq_zero_of_iterate_next (n : Nat) {x : BitVec w} (hx : R.Within k x)
    (h : (R.next p)^[n] x = 0#w) : x = 0#w := by
  induction n generalizing x with
  | zero => exact h
  | succ n ih =>
    have hnext : R.Within k (R.next p x) := by
      intro i hi
      have hle := within_next hp (m := k) (x := x) (fun j hj => hx j (by omega))
      exact hle i (by omega)
    exact eq_zero_of_next hp hx (ih hnext h)

/-- **Which registers come to nothing**, after at least as many shifts as the polynomial falls short
of the register, or from within its length. -/
theorem iterate_next_eq_zero {n : Nat} {x : BitVec w} (h : w - k ≤ n ∨ R.Within k x) :
    (R.next p)^[n] x = 0#w ↔ (R.next p)^[w - k] x = 0#w := by
  rcases h with hlong | hshort
  · obtain ⟨m, rfl⟩ := Nat.exists_eq_add_of_le hlong
    rw [Nat.add_comm, iterate_add_apply]
    constructor
    · intro hzero
      refine eq_zero_of_iterate_next hp m (fun i hi => ?_) hzero
      exact within_iterate_next hp (w - k) x i (by omega)
    · intro hzero
      rw [hzero, iterate_next_zero]
  · have hany : ∀ n, (R.next p)^[n] x = 0#w ↔ x = 0#w := by
      intro n
      constructor
      · exact eq_zero_of_iterate_next hp n hshort
      · rintro rfl
        exact iterate_next_zero n
    rw [hany, hany]

end ShiftRegister

end Cant
