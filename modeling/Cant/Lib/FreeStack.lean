/-
# `FreeStack` — a stack of free indices beside an array of flags

A fixed pool of slots is often kept as an array of flags, one for each slot, and
an array used as a stack whose first `n` entries are the slots that are free.
`FreeStack` says that the two agree: the stack holds exactly the slots whose flag
is down, each once. Taking a slot off the stack and putting a used one back keep
it, and there is always room to put one back.
-/
import Mathlib.Data.List.Perm.Subperm

namespace Cant

open List

theorem take_succ_set {α : Type} {stack : List α} {n : Nat} (h : n < stack.length) (a : α) :
    (stack.set n a).take (n + 1) = stack.take n ++ [a] := by
  rw [take_set, set_eq_take_append_cons_drop, if_pos (by rw [length_take]; omega),
    take_take, Nat.min_eq_left (Nat.le_succ n), drop_take, Nat.sub_self, take_zero]

/-- The first `n` entries of `stack` are the slots not `used`, each once. -/
structure FreeStack (stack : List Nat) (n : Nat) (used : List Bool) : Prop where
  length : stack.length = used.length
  le : n ≤ stack.length
  nodup : (stack.take n).Nodup
  mem_iff : ∀ k, k ∈ stack.take n ↔ used[k]? = some false

theorem countP_range_getElem? {α : Type} [DecidableEq α] (a : α) :
    ∀ l : List α, (List.range l.length).countP (fun k => l[k]? = some a) = l.count a
  | [] => rfl
  | b :: l => by
    have hrest : (List.range l.length).countP ((fun k => (b :: l)[k]? = some a) ∘ Nat.succ) =
        l.count a := by
      rw [← countP_range_getElem? a l]
      rfl
    rw [length_cons, range_succ_eq_map, countP_cons, countP_map, hrest, count_cons]
    simp

namespace FreeStack

variable {stack : List Nat} {n k : Nat} {used : List Bool}

theorem init (n : Nat) : FreeStack (List.range n) n (List.replicate n false) := by
  have htake : (List.range n).take n = List.range n := take_of_length_le (by simp)
  refine ⟨by simp, by simp, ?_, fun k => ?_⟩
  · rw [htake]
    exact nodup_range
  · rw [htake, List.mem_range, getElem?_replicate]
    split
    · next h => exact ⟨fun _ => rfl, fun _ => h⟩
    · next h => exact ⟨fun h' => absurd h' h, fun h' => by cases h'⟩

theorem pop (h : FreeStack stack (n + 1) used) :
    ∃ k, stack[n]? = some k ∧ used[k]? = some false ∧ FreeStack stack n (used.set k true) := by
  have hlt : n < stack.length := h.le
  have htake := take_succ_eq_append_getElem hlt
  have hnodup := h.nodup
  rw [htake, nodup_append] at hnodup
  have hmem : ∀ k, k ∈ stack.take n ∨ k = stack[n] ↔ used[k]? = some false := by
    intro k
    rw [← h.mem_iff k, htake, mem_append, mem_singleton]
  have htop : used[stack[n]]? = some false := (hmem _).mp (.inr rfl)
  refine ⟨stack[n], getElem?_eq_getElem hlt, htop, ?_, Nat.le_of_lt hlt, hnodup.1, fun k => ?_⟩
  · rw [length_set]
    exact h.length
  · rw [getElem?_set]
    split
    · next heq =>
      subst heq
      refine ⟨fun hk => absurd rfl (hnodup.2.2 _ hk _ (mem_singleton_self _)), fun hk => ?_⟩
      split at hk
      · cases hk
      · cases hk
    · next hne =>
      rw [← hmem k]
      exact ⟨.inl, fun hk => hk.resolve_right fun heq => hne heq.symm⟩

theorem eq_count (h : FreeStack stack n used) : n = used.count false := by
  have hperm : (stack.take n).Perm
      ((List.range used.length).filter fun k => used[k]? = some false) := by
    refine (perm_ext_iff_of_nodup h.nodup (nodup_range.filter _)).mpr fun k => ?_
    rw [h.mem_iff, mem_filter, List.mem_range, decide_eq_true_iff]
    exact ⟨fun hk => ⟨(List.getElem?_eq_some_iff.mp hk).1, hk⟩, And.right⟩
  have hlength := hperm.length_eq
  rwa [length_take, Nat.min_eq_left h.le, ← countP_eq_length_filter,
    countP_range_getElem? false used] at hlength

theorem push (h : FreeStack stack n used) (hk : used[k]? = some true) :
    n < stack.length ∧ FreeStack (stack.set n k) (n + 1) (used.set k false) := by
  have hklt : k < used.length := (List.getElem?_eq_some_iff.mp hk).1
  have hnot : k ∉ stack.take n := by
    intro hmem
    rw [h.mem_iff, hk] at hmem
    cases hmem
  have hlt : n < stack.length := by
    -- `k` and the free slots are different slots, so there are at most as many
    have hsub : k :: stack.take n ⊆ List.range used.length := by
      intro j hj
      rcases mem_cons.mp hj with rfl | hj
      · exact List.mem_range.mpr hklt
      · exact List.mem_range.mpr (List.getElem?_eq_some_iff.mp ((h.mem_iff j).mp hj)).1
    have hle := ((nodup_cons.mpr ⟨hnot, h.nodup⟩).subperm hsub).length_le
    rw [length_cons, length_take, length_range, Nat.min_eq_left h.le, ← h.length] at hle
    exact hle
  have htake := take_succ_set hlt k
  refine ⟨hlt, by rw [length_set, length_set]; exact h.length,
    by rw [length_set]; exact hlt, ?_, fun j => ?_⟩
  · rw [htake, nodup_append]
    refine ⟨h.nodup, pairwise_singleton _ _, fun a ha b hb => ?_⟩
    rw [mem_singleton.mp hb]
    exact fun heq => hnot (heq ▸ ha)
  · rw [htake, mem_append, mem_singleton, getElem?_set]
    split
    · next heq =>
      subst heq
      exact ⟨fun _ => rfl, fun _ => .inr rfl⟩
    · next hne =>
      rw [h.mem_iff j]
      exact ⟨fun hj => hj.resolve_right fun heq => hne heq.symm, .inl⟩

end FreeStack

end Cant
