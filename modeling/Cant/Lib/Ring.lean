/-
# `Ring` — a window that slides around a circular array

A ring buffer of `N` cells shows its user the `n` cells from position `r` on,
wrapping past the end: `window xs r n`. Cells are overwritten right behind
the window and become part of it (`window_append`), or the window gives up its front
(`window_drop`).

An implementation copies in one piece or, across the end of the array, in two.
-/
import Cant.Lib.Buf
import Mathlib.Data.List.Rotate

namespace Cant.Ring

open List

open Cant.Buf (blitList getElem?_blitList length_blitList)

variable {α : Type}

/-- The `n` cells from `r` on, going around. -/
def window (xs : List α) (r n : Nat) : List α := (xs.rotate r).take n

/-- `xs'` is `xs` with `ys` written around the ring from position `w` on. -/
structure RingWrite (xs : List α) (w : Nat) (ys xs' : List α) : Prop where
  length_eq : xs'.length = xs.length
  new : ∀ j, j < ys.length → xs'[(w + j) % xs.length]? = ys[j]?
  old : ∀ i, ys.length + i < xs.length →
    xs'[(w + (ys.length + i)) % xs.length]? = xs[(w + (ys.length + i)) % xs.length]?

/-! ## Reading the window -/

variable {xs : List α} {k n r : Nat}

theorem length_window (h : n ≤ xs.length) : (window xs r n).length = n := by
  rw [window, length_take, length_rotate]
  omega

theorem getElem?_window {i : Nat} (hn : n ≤ xs.length) (hi : i < n) :
    (window xs r n)[i]? = xs[(r + i) % xs.length]? := by
  rw [window, getElem?_take_of_lt hi, getElem?_rotate (by omega), Nat.add_comm]

theorem window_eq_slice (h : r + n ≤ xs.length) : window xs r n = (xs.drop r).take n := by
  rw [window, rotate_eq_drop_append_take (by omega),
    take_append_of_le_length (by rw [length_drop]; omega)]

theorem window_eq_two (hr : r ≤ xs.length) (h : xs.length ≤ r + n) :
    window xs r n = xs.drop r ++ (xs.take r).take (n - (xs.length - r)) := by
  have hlen : (xs.drop r).length = xs.length - r := length_drop
  rw [window, rotate_eq_drop_append_take hr, take_append, hlen, take_of_length_le (by omega)]

theorem window_take (hk : k ≤ n) : (window xs r n).take k = window xs r k := by
  rw [window, take_take, Nat.min_eq_left hk, window]

theorem window_drop (xs : List α) (r : Nat) (hk : k ≤ n) (hn : n ≤ xs.length) :
    (window xs r n).drop k = window xs ((r + k) % xs.length) (n - k) := by
  apply ext_getElem?
  intro i
  rw [getElem?_drop]
  by_cases hi : i < n - k
  · rw [getElem?_window hn (by omega), getElem?_window (by omega) hi, Nat.mod_add_mod,
      Nat.add_assoc]
  · rw [getElem?_eq_none (by rw [length_window hn]; omega),
      getElem?_eq_none (by rw [length_window (by omega)]; omega)]

/-! ## Writing behind it -/

theorem window_append {ys xs' : List α} (hw : RingWrite xs ((r + n) % xs.length) ys xs')
    (hroom : n + ys.length ≤ xs.length) : window xs' r (n + ys.length) = window xs r n ++ ys := by
  have hlen := hw.length_eq
  apply ext_getElem?
  intro i
  rw [getElem?_append, length_window (by omega)]
  by_cases hi : i < n + ys.length
  · rw [getElem?_window (by omega) hi, hlen]
    by_cases hin : i < n
    · -- an old cell: going around from the write position it comes after the new ones
      rw [if_pos hin, getElem?_window (by omega) hin]
      have key := hw.old (xs.length - n - ys.length + i) (by omega)
      have hpos : ((r + n) % xs.length + (ys.length + (xs.length - n - ys.length + i)))
          % xs.length = (r + i) % xs.length := by
        rw [Nat.mod_add_mod, show r + n + (ys.length + (xs.length - n - ys.length + i))
          = r + i + xs.length by omega, Nat.add_mod_right]
      rwa [hpos] at key
    · rw [if_neg hin]
      have key := hw.new (i - n) (by omega)
      rwa [Nat.mod_add_mod, show r + n + (i - n) = r + i by omega] at key
  · rw [getElem?_eq_none (by rw [length_window (by omega)]; omega), if_neg (by omega),
      getElem?_eq_none (by omega)]

theorem mod_of_lt_two_mul {N : Nat} (h : k < 2 * N) : k % N = if k < N then k else k - N := by
  split
  case isTrue hlt => exact Nat.mod_eq_of_lt hlt
  case isFalse hge =>
      rw [Nat.mod_eq_sub_mod (by omega), Nat.mod_eq_of_lt (by omega)]

theorem ringWrite_one {ys : List α} {w : Nat} (h : w + ys.length ≤ xs.length) :
    RingWrite xs w ys (blitList xs w ys) where
  length_eq := length_blitList h
  new := by
    intro j hj
    rw [getElem?_blitList h, Nat.mod_eq_of_lt (by omega), if_pos (by omega),
      Nat.add_sub_cancel_left]
  old := by
    intro i hi
    have hmod := mod_of_lt_two_mul (k := w + (ys.length + i)) (N := xs.length) (by omega)
    rw [getElem?_blitList h, if_neg]
    rw [hmod]
    split <;> omega

/-- A copy in two pieces, to the end of the array and then from its start,
writes around the ring. -/
theorem ringWrite_two (xs ys : List α) {w : Nat} (hw : w < xs.length)
    (h : xs.length < w + ys.length) (hlen : ys.length ≤ xs.length) :
    RingWrite xs w ys
      (blitList (blitList xs w (ys.take (xs.length - w))) 0 (ys.drop (xs.length - w))) := by
  have htake : (ys.take (xs.length - w)).length = xs.length - w := by
    rw [length_take]; omega
  have hdrop : (ys.drop (xs.length - w)).length = ys.length - (xs.length - w) := length_drop
  have h₁ : w + (ys.take (xs.length - w)).length ≤ xs.length := by omega
  have hl₁ := length_blitList h₁
  have h₂ : 0 + (ys.drop (xs.length - w)).length
      ≤ (blitList xs w (ys.take (xs.length - w))).length := by omega
  refine ⟨(length_blitList h₂).trans hl₁, ?_, ?_⟩
  · intro j hj
    have hmod := mod_of_lt_two_mul (k := w + j) (N := xs.length) (by omega)
    rw [getElem?_blitList h₂, getElem?_blitList h₁, hmod]
    by_cases hwrap : w + j < xs.length
    · rw [if_pos hwrap, if_neg (by omega), if_pos (by omega), Nat.add_sub_cancel_left,
        getElem?_take_of_lt (by omega)]
    · rw [if_neg hwrap, if_pos (by omega), getElem?_drop]
      congr 1
      omega
  · intro i hi
    have hmod := mod_of_lt_two_mul (k := w + (ys.length + i)) (N := xs.length) (by omega)
    have hpos : (w + (ys.length + i)) % xs.length = w + (ys.length + i) - xs.length := by
      rw [hmod, if_neg (by omega)]
    rw [getElem?_blitList h₂, getElem?_blitList h₁, if_neg (by omega), if_neg (by omega)]

end Cant.Ring
