/-
# `Slots` — tables of slots, some of them in use

A table of `n` slots is looked at through its flags, `Fin n → Bool`: which slots are in use.
Programs ask three things of it:

    the first slot that is free                      `firstFree`
    how many are in use                              `used`, a loop that counts
    a bound below which all those in use lie,
    lowered after one of them goes out of use        `trim`

Where the slots in use have keys, each in one slot, the table is a map (`Maps`): taking a free slot
for a new key and giving back the slot of a key are the two updates of it.
-/
import Mathlib.Data.Fintype.Card

namespace Cant.Slots

open Function List

variable {n : Nat} {flags : Fin n → Bool} {i : Fin n}

def firstFree (flags : Fin n → Bool) : Option (Fin n) := (List.finRange n).find? fun i => !flags i

theorem firstFree_some (h : firstFree flags = some i) : flags i = false := by
  have hfree := find?_some (p := fun i => !flags i) h
  exact Bool.not_inj hfree

/-! ## Counting -/

def used (flags : Fin n → Bool) : Finset (Fin n) := Finset.univ.filter fun i => flags i = true

theorem mem_used : i ∈ used flags ↔ flags i = true := by
  rw [used, Finset.mem_filter]
  exact and_iff_right (Finset.mem_univ i)

theorem length_filter (flags : Fin n → Bool) :
    ((List.finRange n).filter flags).length = (used flags).card := by
  rw [← toFinset_card_of_nodup ((nodup_finRange n).filter flags), toFinset_filter,
    toFinset_finRange]
  rfl

theorem card_used_of_firstFree_none (h : firstFree flags = none) : (used flags).card = n := by
  have hall : used flags = Finset.univ := by
    refine Finset.eq_univ_iff_forall.mpr fun j => mem_used.mpr ?_
    have hj := find?_eq_none.mp h j (mem_finRange j)
    rwa [Bool.not_eq_true', Bool.not_eq_false] at hj
  rw [hall, Finset.card_univ, Fintype.card_fin]

theorem card_used_take (h : flags i = false) :
    (used (update flags i true)).card = (used flags).card + 1 := by
  have heq : used (update flags i true) = insert i (used flags) := by
    ext j
    rw [mem_used, Finset.mem_insert, mem_used]
    rcases eq_or_ne j i with rfl | hne
    · rw [update_self]
      exact iff_of_true rfl (.inl rfl)
    · rw [update_of_ne hne]
      exact (or_iff_right hne).symm
  have hnew : i ∉ used flags := fun hi => Bool.false_ne_true (h.symm.trans (mem_used.mp hi))
  rw [heq, Finset.card_insert_of_notMem hnew]

theorem card_used_giveBack (h : flags i = true) :
    (used (update flags i false)).card + 1 = (used flags).card := by
  have hfree : update flags i false i = false := update_self ..
  rw [← card_used_take hfree, update_idem, ← h, update_eq_self]

/-! ## The bound -/

def trim (flags : Fin n → Bool) : Nat → Nat
  | 0 => 0
  | m + 1 => if h : m < n then if flags ⟨m, h⟩ then m + 1 else trim flags m else m + 1

theorem lt_trim : ∀ {m : Nat}, i.val < m → flags i = true → i.val < trim flags m
  | 0, hlt, _ => hlt
  | m + 1, hlt, hused => by
    unfold trim
    split
    case isTrue hm =>
      split
      · exact hlt
      case isFalse hfree =>
        rcases Nat.lt_succ_iff_lt_or_eq.mp hlt with hbefore | rfl
        · exact lt_trim hbefore hused
        · exact absurd hused hfree
    · exact hlt

/-! ## Keys -/

section

variable {κ β : Type} {slots : Fin n → Option (κ × β)} {m : κ → Option β}

/-- The slots hold a map: every key of it stands in one slot, with its value. -/
structure Maps (slots : Fin n → Option (κ × β)) (m : κ → Option β) : Prop where
  value : ∀ i k v, slots i = some (k, v) → m k = some v
  slot : ∀ k v, m k = some v → ∃ i, slots i = some (k, v)
  unique : ∀ i j k v w, slots i = some (k, v) → slots j = some (k, w) → i = j

namespace Maps

variable [DecidableEq κ] {k : κ} {v : β}

theorem erase (h : Maps slots m) (hi : slots i = some (k, v)) :
    Maps (update slots i none) (update m k none) := by
  have hother : ∀ {j : Fin n} {l : κ} {w : β}, update slots i none j = some (l, w) →
      slots j = some (l, w) ∧ l ≠ k := by
    intro j l w hj
    rcases eq_or_ne j i with rfl | hne
    · rw [update_self] at hj
      cases hj
    · rw [update_of_ne hne] at hj
      refine ⟨hj, ?_⟩
      rintro rfl
      exact hne (h.unique j i l w v hj hi)
  refine ⟨fun j l w hj => ?_, fun l w hl => ?_, fun j j' l w w' hj hj' => ?_⟩
  · rw [update_of_ne (hother hj).2]
    exact h.value j l w (hother hj).1
  · have hne : l ≠ k := by
      rintro rfl
      rw [update_self] at hl
      cases hl
    rw [update_of_ne hne] at hl
    obtain ⟨j, hj⟩ := h.slot l w hl
    have hji : j ≠ i := by
      rintro rfl
      rw [hi] at hj
      cases hj
      exact hne rfl
    exact ⟨j, (update_of_ne hji ..).trans hj⟩
  · exact h.unique j j' l w w' (hother hj).1 (hother hj').1

theorem insert (h : Maps slots m) (hi : slots i = none) (hk : m k = none) (v : β) :
    Maps (update slots i (some (k, v))) (update m k (some v)) := by
  -- a slot of the new table is the one that was taken, or an old one with another key
  have hcases : ∀ {j : Fin n} {l : κ} {w : β},
      update slots i (some (k, v)) j = some (l, w) →
        j = i ∧ l = k ∧ w = v ∨ l ≠ k ∧ slots j = some (l, w) := by
    intro j l w hj
    rcases eq_or_ne j i with rfl | hne
    · rw [update_self] at hj
      cases hj
      exact .inl ⟨rfl, rfl, rfl⟩
    · rw [update_of_ne hne] at hj
      refine .inr ⟨?_, hj⟩
      rintro rfl
      cases hk.symm.trans (h.value j l w hj)
  refine ⟨fun j l w hj => ?_, fun l w hl => ?_, fun j j' l w w' hj hj' => ?_⟩
  · rcases hcases hj with ⟨-, rfl, rfl⟩ | ⟨hne, hold⟩
    · exact update_self ..
    · exact (update_of_ne hne ..).trans (h.value j l w hold)
  · rcases eq_or_ne l k with rfl | hne
    · rw [update_self] at hl
      cases hl
      exact ⟨i, update_self ..⟩
    · rw [update_of_ne hne] at hl
      obtain ⟨j, hj⟩ := h.slot l w hl
      have hji : j ≠ i := by
        rintro rfl
        rw [hi] at hj
        cases hj
      exact ⟨j, (update_of_ne hji ..).trans hj⟩
  · rcases hcases hj with ⟨rfl, rfl, -⟩ | ⟨hne, hold⟩
    · rcases hcases hj' with ⟨rfl, -⟩ | ⟨hne', -⟩
      · rfl
      · exact absurd rfl hne'
    · rcases hcases hj' with ⟨-, rfl, -⟩ | ⟨-, hold'⟩
      · exact absurd rfl hne
      · exact h.unique j j' l w w' hold hold'

end Maps

end

end Cant.Slots
