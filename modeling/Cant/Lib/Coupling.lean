/-
# `Coupling` — memories with a coupling fault

A memory is a function from addresses to words. In one with an idempotent coupling fault, a
write that takes the aggressor bit from one value to the other also forces the victim bit, in
a word elsewhere, to a fixed value.

What a test can see of it: a triggered write leaves the victim bit at the forced value
(`write_forced`), and does nothing more than a write should if the bit has that value
already (`write_masked`).
-/
import Mathlib.Tactic.Common

namespace Cant.Coupling

open Function

variable {α : Type} {w : Nat}

def setBit (x : BitVec w) (i : Fin w) (b : Bool) : BitVec w :=
  if b then x ||| BitVec.twoPow w i else x &&& ~~~ BitVec.twoPow w i

theorem getLsbD_setBit (x : BitVec w) (i : Fin w) (b : Bool) (j : Nat) :
    (setBit x i b).getLsbD j = if j = i.val then b else x.getLsbD j := by
  unfold setBit
  cases b with
  | true =>
    simp only [if_true, BitVec.getLsbD_or, BitVec.getLsbD_twoPow]
    split
    case isTrue h =>
      subst h
      simp
    case isFalse h =>
      simp [Ne.symm h]
  | false =>
    simp only [Bool.false_eq_true, if_false, BitVec.getLsbD_and, BitVec.getLsbD_not,
      BitVec.getLsbD_twoPow]
    split
    case isTrue h =>
      subst h
      simp
    case isFalse h =>
      simp only [Ne.symm h, decide_false, Bool.and_false, Bool.not_false, Bool.and_true,
        Bool.and_eq_left_iff_imp, decide_eq_true_eq]
      exact BitVec.lt_of_getLsbD

theorem setBit_eq_self {x : BitVec w} {i : Fin w} {b : Bool} (h : x.getLsbD i = b) :
    setBit x i b = x := by
  refine BitVec.eq_of_getLsbD_eq fun j _ => ?_
  rw [getLsbD_setBit]
  split
  case isTrue hj =>
    rw [hj, h]
  case isFalse => rfl

/-- An idempotent coupling fault between two words. -/
structure Fault (α : Type) (w : Nat) where
  aggressor : α
  aggressorBit : Fin w
  victim : α
  victimBit : Fin w
  distinct : aggressor ≠ victim
  rises : Bool
  forced : Bool

namespace Fault

variable [DecidableEq α] (f : Fault α w) {mem : α → BitVec w} {p q : α} {x : BitVec w}

def Triggers (mem : α → BitVec w) (p : α) (x : BitVec w) : Prop :=
  p = f.aggressor ∧ (mem p).getLsbD f.aggressorBit = !f.rises ∧
    x.getLsbD f.aggressorBit = f.rises

instance (mem : α → BitVec w) (p : α) (x : BitVec w) : Decidable (f.Triggers mem p x) :=
  inferInstanceAs (Decidable (_ ∧ _ ∧ _))

def write (mem : α → BitVec w) (p : α) (x : BitVec w) : α → BitVec w :=
  if f.Triggers mem p x then
    update (update mem p x) f.victim
      (setBit (mem f.victim) f.victimBit f.forced)
  else update mem p x

theorem write_of_ne (h : p ≠ f.aggressor) : f.write mem p x = update mem p x :=
  if_neg fun htriggers => h htriggers.1

theorem write_self : f.write mem p x p = x := by
  unfold write
  split
  case isTrue htriggers =>
    rw [update_of_ne (htriggers.1 ▸ f.distinct), update_self]
  case isFalse => exact update_self ..

theorem write_other (hp : q ≠ p) (hq : q ≠ f.victim) : f.write mem p x q = mem q := by
  unfold write
  split
  · rw [update_of_ne hq, update_of_ne hp]
  · rw [update_of_ne hp]

theorem write_forced (h : f.Triggers mem p x) :
    (f.write mem p x f.victim).getLsbD f.victimBit = f.forced := by
  rw [write, if_pos h, update_self, getLsbD_setBit, if_pos rfl]

theorem write_masked (h : (mem f.victim).getLsbD f.victimBit = f.forced) :
    f.write mem p x = update mem p x := by
  unfold write
  split
  case isTrue htriggers =>
    rw [setBit_eq_self h]
    refine update_eq_self_iff.mpr ?_
    rw [update_of_ne (htriggers.1 ▸ f.distinct.symm)]
  case isFalse => rfl

end Fault

end Cant.Coupling
