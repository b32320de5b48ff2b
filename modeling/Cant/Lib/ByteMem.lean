/-
# `ByteMem` — flat byte memory

A memory is a byte for every address. A word of `n` bytes is read and written little-endian; `fill`
and `copy` are `memset` and `memcpy`, and `load` and `store` move a list of bytes.

A read depends on its own bytes only (`rd_congr`), so what a write does to a read
is decided by where the two lie (`rd_wr_self`, `rd_wr_of_disjoint`).
-/
import Mathlib.Algebra.Group.Nat.Defs
import Mathlib.Tactic.Common

namespace Cant

open List

abbrev Mem : Type := Nat → UInt8

namespace Mem

variable {b : UInt8} {dst src i : Nat} {bs : List UInt8}
variable {m m' : Mem}

def rd (m : Mem) : Nat → Nat → Nat
  | _, 0 => 0
  | a, n + 1 => (m a).toNat + 256 * rd m (a + 1) n

def wr (m : Mem) (a n v : Nat) : Mem := fun x =>
  if a ≤ x ∧ x < a + n then UInt8.ofNat (v / 256 ^ (x - a)) else m x

def fill (m : Mem) (a n : Nat) (b : UInt8) : Mem := fun x =>
  if a ≤ x ∧ x < a + n then b else m x

def copy (m : Mem) (dst src n : Nat) : Mem := fun x =>
  if dst ≤ x ∧ x < dst + n then m (src + (x - dst)) else m x

variable {a n v x : Nat}

theorem wr_of_not (h : x < a ∨ a + n ≤ x) : m.wr a n v x = m x :=
  if_neg (by omega)

theorem fill_of_not (h : x < a ∨ a + n ≤ x) : m.fill a n b x = m x :=
  if_neg (by omega)

theorem copy_of_not (h : x < dst ∨ dst + n ≤ x) : m.copy dst src n x = m x :=
  if_neg (by omega)

theorem copy_at (h : i < n) : m.copy dst src n (dst + i) = m (src + i) := by
  rw [copy, if_pos ⟨Nat.le_add_right dst i, by omega⟩, Nat.add_sub_cancel_left]

theorem rd_lt (m : Mem) : ∀ a n : Nat, m.rd a n < 256 ^ n
  | _, 0 => Nat.one_pos
  | a, n + 1 => by
    have hbyte := (m a).toNat_lt
    have hrest := rd_lt m (a + 1) n
    rw [rd]
    omega

theorem rd_congr : ∀ {n a : Nat}, (∀ x, a ≤ x → x < a + n → m' x = m x) → m'.rd a n = m.rd a n
  | 0, _, _ => rfl
  | n + 1, a, h => by
    rw [rd, rd, h a (Nat.le_refl a) (by omega), rd_congr fun x hx hx' => h x (by omega) (by omega)]

theorem rd_wr_from : ∀ {j k : Nat}, k + j = n →
    (m.wr a n v).rd (a + k) j = v / 256 ^ k % 256 ^ j
  | 0, k, _ => by rw [rd, Nat.pow_zero, Nat.mod_one]
  | j + 1, k, h => by
    have hbyte : m.wr a n v (a + k) = UInt8.ofNat (v / 256 ^ k) := by
      rw [wr, if_pos ⟨Nat.le_add_right _ _, by omega⟩, Nat.add_sub_cancel_left]
    have hrest : v / 256 ^ (k + 1) = v / 256 ^ k / 256 := by
      rw [Nat.pow_succ, Nat.div_div_eq_div_mul]
    have hcut : v / 256 ^ k % 256 ^ (j + 1)
        = v / 256 ^ k % 256 + 256 * (v / 256 ^ k / 256 % 256 ^ j) := by
      rw [Nat.pow_succ', Nat.mod_mul]
    rw [rd, hbyte, Nat.add_assoc, rd_wr_from (by omega : (k + 1) + j = n), hrest, hcut,
      UInt8.toNat_ofNat']

theorem rd_wr_self (m : Mem) (a n v : Nat) : (m.wr a n v).rd a n = v % 256 ^ n := by
  have h := rd_wr_from (m := m) (a := a) (v := v) (Nat.zero_add n)
  rwa [Nat.pow_zero, Nat.div_one] at h

theorem rd_wr_of_lt (h : v < 256 ^ n) : (m.wr a n v).rd a n = v :=
  (rd_wr_self m a n v).trans (Nat.mod_eq_of_lt h)

theorem rd_wr_of_disjoint {b k : Nat} (h : b + k ≤ a ∨ a + n ≤ b) :
    (m.wr a n v).rd b k = m.rd b k :=
  rd_congr fun _ _ _ => wr_of_not (by omega)

/-! ## Lists of bytes -/

def load (m : Mem) (a n : Nat) : List UInt8 := (List.range n).map fun i => m (a + i)

def store (m : Mem) (a : Nat) (bs : List UInt8) : Mem := fun x =>
  if a ≤ x ∧ x < a + bs.length then bs.getD (x - a) 0 else m x

@[simp] theorem length_load (m : Mem) (a n : Nat) : (m.load a n).length = n := by
  rw [load, length_map, length_range]

theorem store_of_not (h : x < a ∨ a + bs.length ≤ x) : m.store a bs x = m x :=
  if_neg (by omega)

theorem store_single_of_ne (h : x ≠ a) : m.store a [b] x = m x :=
  store_of_not (by rw [length_singleton]; omega)

theorem store_of_mem (h : i < bs.length) : m.store a bs (a + i) = bs.getD i 0 := by
  rw [store, if_pos ⟨Nat.le_add_right a i, by omega⟩, Nat.add_sub_cancel_left]

theorem load_congr (h : ∀ x, a ≤ x → x < a + n → m' x = m x) : m'.load a n = m.load a n := by
  refine map_congr_left fun i hi => h _ (Nat.le_add_right a i) ?_
  have := mem_range.mp hi
  omega

theorem load_store_self (m : Mem) (a : Nat) (bs : List UInt8) :
    (m.store a bs).load a bs.length = bs := by
  apply ext_getElem
  · rw [length_load]
  · intro i h₁ h₂
    simp only [load, getElem_map, getElem_range, store_of_mem h₂]
    rw [getD_eq_getElem?_getD, getElem?_eq_getElem h₂]
    rfl

/-- `bs` laid over the front of `old`. -/
def overlay (bs old : List UInt8) : List UInt8 := (bs ++ old.drop bs.length).take old.length

theorem load_store_overlay (m : Mem) (a n : Nat) (bs : List UInt8) :
    (m.store a bs).load a n = overlay bs (m.load a n) := by
  apply ext_getElem?
  intro i
  rw [overlay, length_load]
  by_cases hi : i < n
  · rw [getElem?_take_of_lt hi, getElem?_append]
    by_cases hb : i < bs.length
    · simp [load, hi, store_of_mem hb, hb]
    · rw [if_neg hb, getElem?_drop, Nat.add_sub_cancel' (Nat.le_of_not_lt hb)]
      simp [load, hi, store_of_not (Or.inr (by omega : a + bs.length ≤ a + i))]
  · have h₁ : ((m.store a bs).load a n).length ≤ i := by rw [length_load]; omega
    have h₂ : ((bs ++ (m.load a n).drop bs.length).take n).length ≤ i :=
      Nat.le_trans (length_take_le _ _) (by omega)
    rw [getElem?_eq_none h₁, getElem?_eq_none h₂]

theorem overlay_eq_iff (bs old : List UInt8) : overlay bs old = old ↔ bs <+: old ∨ old <+: bs := by
  rw [overlay]
  by_cases hle : bs.length ≤ old.length
  · have hlength : (bs ++ old.drop bs.length).length ≤ old.length := by
      rw [length_append, length_drop]
      omega
    rw [take_of_length_le hlength, ← prefix_iff_eq_append]
    constructor
    · exact Or.inl
    · rintro (hbegins | hbegins)
      · exact hbegins
      · obtain rfl := hbegins.eq_of_length_le hle
        exact prefix_refl old
  · have hdrop : old.drop bs.length = [] := drop_eq_nil_of_le (by omega)
    rw [hdrop, append_nil, eq_comm, ← prefix_iff_eq_take]
    constructor
    · exact Or.inr
    · rintro (hbegins | hbegins)
      · exact absurd hbegins.length_le hle
      · exact hbegins

theorem load_copy (m : Mem) (dst src n : Nat) : (m.copy dst src n).load dst n = m.load src n := by
  exact map_congr_left fun i hi => copy_at (mem_range.mp hi)

end Mem

end Cant
