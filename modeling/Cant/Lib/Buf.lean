/-
# `Buf` — fixed-size arrays with fallible copies

A C array of `n` elements is a list carrying the proof that it has `n`
elements. The only two ways the code touches one are `memcpy` into it and
`memcpy` out of it, and both are partial: `blit` and `slice` answer `none` when
the range does not lie inside the array. A function of the source that returns
`some` in the model has therefore made no access out of bounds, and a bounds
theorem is a theorem that `none` does not occur.
-/
import Mathlib.Data.List.Basic

namespace Cant

open List

/-- An array of exactly `n` elements. -/
structure Buf (α : Type) (n : Nat) where
  elems : List α
  size_eq : elems.length = n
  deriving DecidableEq

namespace Buf

variable {α : Type} {n : Nat}

variable {b c : Buf α n} {i off : Nat} {src : List α}

/-- The array every cell of which holds `a`: `memset`, `calloc`. -/
def fill (n : Nat) (a : α) : Buf α n := ⟨List.replicate n a, length_replicate⟩

/-- The array with `src` copied to the cells from `off` on. -/
def blitList (dst : List α) (off : Nat) (src : List α) : List α :=
  dst.take off ++ src ++ dst.drop (off + src.length)

theorem length_blitList {dst : List α} (h : off + src.length ≤ dst.length) :
    (blitList dst off src).length = dst.length := by
  simp only [blitList, length_append, length_take, length_drop]
  omega

/-- `memcpy(&b[off], src, |src|)`. -/
def blit (b : Buf α n) (off : Nat) (src : List α) : Option (Buf α n) :=
  if h : off + src.length ≤ n then
    some ⟨blitList b.elems off src, (length_blitList (by rw [b.size_eq]; exact h)).trans b.size_eq⟩
  else none

/-- `memcpy(dst, &b[off], len)`: the bytes copied out. -/
def slice (b : Buf α n) (off len : Nat) : Option (List α) :=
  if off + len ≤ n then some ((b.elems.drop off).take len) else none

/-- `b[i]`. -/
def get? (b : Buf α n) (i : Nat) : Option α := b.elems[i]?

def cell (b : Buf α n) (i : Fin n) : α := b.elems.get (i.cast b.size_eq.symm)

theorem get?_cell (b : Buf α n) (i : Fin n) : b.get? i = some (b.cell i) :=
  getElem?_eq_getElem (by rw [b.size_eq]; exact i.isLt)

theorem get?_of_lt (b : Buf α n) (h : i < n) : ∃ a, b.get? i = some a :=
  ⟨_, getElem?_eq_getElem (by rw [b.size_eq]; exact h)⟩

/-! ## What a copy does, cell by cell -/

theorem getElem?_blitList {dst : List α} (h : off + src.length ≤ dst.length) (i : Nat) :
    (blitList dst off src)[i]? =
      if off ≤ i ∧ i < off + src.length then src[i - off]? else dst[i]? := by
  have hlen : (dst.take off).length = off := by
    rw [length_take]; omega
  rw [blitList, append_assoc, getElem?_append, hlen]
  by_cases h₁ : i < off
  · rw [if_pos h₁, if_neg (by omega), getElem?_take_of_lt h₁]
  · rw [if_neg h₁, getElem?_append]
    by_cases h₂ : i - off < src.length
    · rw [if_pos h₂, if_pos (by omega)]
    · rw [if_neg h₂, if_neg (by omega), getElem?_drop]
      congr 1
      omega

theorem blit_eq_some (b : Buf α n) (off : Nat) (src : List α) (h : off + src.length ≤ n) :
    ∃ c, b.blit off src = some c ∧ c.elems = blitList b.elems off src :=
  ⟨_, dif_pos h, rfl⟩

theorem blit_isSome : (b.blit off src).isSome ↔ off + src.length ≤ n := by
  unfold blit
  split <;> simp_all

theorem getElem?_blit (h : b.blit off src = some c) (i : Nat) :
    c.elems[i]? = if off ≤ i ∧ i < off + src.length then src[i - off]? else b.elems[i]? := by
  have hle : off + src.length ≤ n := blit_isSome.mp (by rw [h]; rfl)
  obtain ⟨c', hc', he⟩ := blit_eq_some b off src hle
  obtain rfl : c' = c := Option.mem_unique hc' h
  rw [he, getElem?_blitList (by rw [b.size_eq]; exact hle)]

theorem get?_blit_self {a : α} (h : b.blit i [a] = some c) : c.get? i = some a := by
  rw [get?, getElem?_blit h, if_pos ⟨.refl, Nat.lt_succ_self _⟩, Nat.sub_self]
  rfl

theorem elems_blit_single {a : α} (h : b.blit i [a] = some c) : c.elems = b.elems.set i a := by
  have hi : i + [a].length ≤ n := blit_isSome.mp (by rw [h]; rfl)
  apply ext_getElem?
  intro j
  rw [getElem?_blit h, getElem?_set, b.size_eq]
  by_cases hj : i = j
  · subst hj
    have hlt : i < n := Nat.lt_of_succ_le hi
    rw [if_pos ⟨.refl, Nat.lt_succ_self _⟩, Nat.sub_self]
    simp [hlt]
  · rw [if_neg (by rw [length_singleton]; omega), if_neg hj]

theorem get?_blit_of_lt (h : b.blit off src = some c) (hi : i < off) : c.get? i = b.get? i := by
  rw [get?, getElem?_blit h, if_neg (by omega)]
  rfl

theorem slice_eq_some {len : Nat} (h : off + len ≤ n) :
    b.slice off len = some ((b.elems.drop off).take len) := if_pos h

theorem length_of_slice {len : Nat} {l : List α} (h : b.slice off len = some l) :
    l.length = len := by
  unfold slice at h
  split at h
  · cases h
    rw [length_take, length_drop, b.size_eq]
    omega
  · cases h

/-! ## The used part of an array

A program keeps `used` cells of an array and looks `i` cells ahead of a position
`pos` inside them. -/

theorem get?_used (b : Buf α n) (used pos i : Nat) (h : pos + i < used) :
    b.get? (pos + i) = ((b.elems.take used).drop pos)[i]? := by
  rw [getElem?_drop, getElem?_take_of_lt h]
  rfl

theorem slice_used (b : Buf α n) (used pos i len : Nat) (hu : used ≤ n) (h : pos + i + len ≤ used) :
    b.slice (pos + i) len = some ((((b.elems.take used).drop pos).drop i).take len) := by
  rw [slice_eq_some (by omega), drop_drop, drop_take, take_take, Nat.min_eq_left (by omega)]

/-! ## Filling an array from the front

The receivers all append segment after segment to a buffer whose first `off`
cells already hold the message so far. -/

theorem take_of_blit (h : b.blit off src = some c) :
    c.elems.take (off + src.length) = b.elems.take off ++ src := by
  have hle : off + src.length ≤ n := blit_isSome.mp (by rw [h]; rfl)
  obtain ⟨c', hc', he⟩ := blit_eq_some b off src hle
  obtain rfl : c' = c := Option.mem_unique hc' h
  have hlen : (b.elems.take off ++ src).length = off + src.length := by
    rw [length_append, length_take, b.size_eq]; omega
  rw [he, blitList, ← hlen, take_left']
  rfl

theorem drop_take_of_blit (h : b.blit off src = some c) :
    (c.elems.drop off).take src.length = src := by
  have hle : off + src.length ≤ n := blit_isSome.mp (by rw [h]; rfl)
  have hfront : (b.elems.take off).drop off = [] := drop_of_length_le (length_take_le _ _)
  have htake := congrArg (List.drop off) (take_of_blit h)
  rwa [drop_take, Nat.add_sub_cancel_left,
    drop_append_of_le_length (by rw [length_take, b.size_eq]; omega), hfront] at htake

theorem moveFront {used pos : Nat} (hu : used ≤ n) (hp : pos ≤ used) :
    ∃ rest moved, b.slice pos (used - pos) = some rest ∧ b.blit 0 rest = some moved ∧
      moved.elems.take (used - pos) = (b.elems.take used).drop pos := by
  have hkept : ((b.elems.take used).drop pos).length = used - pos := by
    rw [length_drop, length_take, b.size_eq]
    omega
  have hslice := b.slice_used used pos 0 (used - pos) hu (by omega)
  rw [drop_zero, take_of_length_le (Nat.le_of_eq hkept)] at hslice
  obtain ⟨moved, hblit, -⟩ :=
    b.blit_eq_some 0 ((b.elems.take used).drop pos) (by omega)
  have hfront := take_of_blit hblit
  rw [Nat.zero_add, hkept] at hfront
  exact ⟨_, moved, hslice, hblit, hfront⟩

end Buf

end Cant
