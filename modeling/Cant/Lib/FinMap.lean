/-
# `FinMap` — a table without two entries of a key is a finite map

`toMap` forgets the order of a table. As long as its keys are unique, what an update, a
removal, an insertion and a `filterMap` do to the table is a change of the map at one key, or
the same change at every key; and the map has as many entries as the table.
-/
import Cant.Lib.Keyed
import Mathlib.Data.Set.Card

namespace Cant.Keyed

open List Function

variable {α κ : Type} [DecidableEq κ]

section

variable (key : α → κ)

def Unique (l : List α) : Prop := (l.map key).Nodup

def toMap (l : List α) : κ → Option α := fun k => lookup key k l

end

noncomputable def size (m : κ → Option α) : Nat := {k | m k ≠ none}.ncard

variable {key : α → κ} {k : κ} {f : α → α} {l : List α}

variable {a : α}

theorem Unique.lookup_of_mem (h : Unique key l) (ha : a ∈ l) : lookup key (key a) l = some a := by
  induction l with
  | nil => cases ha
  | cons b l ih =>
    obtain ⟨hnew, htail⟩ := nodup_cons.mp h
    rcases mem_cons.mp ha with rfl | hmem
    · exact if_pos rfl
    · have hne : key b ≠ key a := fun heq => hnew (heq ▸ mem_map_of_mem hmem)
      rw [lookup_cons_ne hne]
      exact ih htail hmem

theorem Unique.lookup_of_sublist (h : Unique key l) {l' : List α} (hsub : l'.Sublist l)
    (ha : lookup key k l' = some a) : lookup key k l = some a := by
  obtain ⟨hmem, hkey⟩ := mem_of_lookup ha
  rw [← hkey]
  exact h.lookup_of_mem (hsub.subset hmem)

/-! ## Keys -/

omit [DecidableEq κ] in
theorem Unique.of_sublist {l' : List α} (h : Unique key l) (hsub : l'.Sublist l) : Unique key l' :=
  List.Nodup.sublist (hsub.map key) h

theorem Unique.remove (h : Unique key l) : Unique key (remove key k l) :=
  h.of_sublist (remove_sublist l)

theorem update_perm (h : lookup key k l = some a) :
    ∃ rest, l.Perm (a :: rest) ∧ ∀ f, (Keyed.update key k f l).Perm (f a :: rest) := by
  induction l with
  | nil => cases h
  | cons b l ih =>
    by_cases hb : key b = k
    · rw [lookup, if_pos hb] at h
      cases h
      exact ⟨l, .refl _, fun f => by rw [Keyed.update, if_pos hb]⟩
    · rw [lookup, if_neg hb] at h
      obtain ⟨rest, hperm, hupdate⟩ := ih h
      refine ⟨b :: rest, (hperm.cons b).trans (.swap ..), fun f => ?_⟩
      rw [Keyed.update, if_neg hb]
      exact ((hupdate f).cons b).trans (.swap ..)

theorem Unique.update (hf : ∀ a, key (f a) = key a) (h : Unique key l) :
    Unique key (update key k f l) := by
  unfold Unique
  rw [map_update hf]
  exact h

theorem Unique.append (h : Unique key l) (hnew : lookup key (key a) l = none) :
    Unique key (l ++ [a]) := by
  unfold Unique
  rw [map_append, nodup_append]
  refine ⟨h, nodup_singleton _, ?_⟩
  intro b hb c hc
  rw [mem_singleton.mp hc]
  exact fun heq => lookup_eq_none_iff.mp hnew (heq ▸ hb)

omit [DecidableEq κ] in
theorem Unique.filterMap {g : α → Option α} (hg : ∀ a b, g a = some b → key b = key a)
    (h : Unique key l) : Unique key (l.filterMap g) := by
  have hsub : ((l.filterMap g).map key).Sublist (l.map key) := by
    clear h
    induction l with
    | nil => exact List.Sublist.refl _
    | cons a l ih =>
      cases ha : g a with
      | none =>
        rw [filterMap_cons_none ha]
        exact ih.cons _
      | some b =>
        rw [filterMap_cons_some ha, map_cons, hg a b ha]
        exact ih.cons_cons _
  exact List.Nodup.sublist hsub h

/-! ## The map -/

theorem toMap_update (hf : ∀ a, key (f a) = key a) (l : List α) :
    toMap key (update key k f l) = Function.update (toMap key l) k ((toMap key l k).map f) := by
  funext k'
  by_cases hk : k' = k
  · rw [hk, update_self]
    exact lookup_update_self (fun a ha => (hf a).trans ha) l
  · rw [update_of_ne hk]
    exact lookup_update_ne hf hk l

theorem toMap_append (hnew : lookup key (key a) l = none) :
    toMap key (l ++ [a]) = Function.update (toMap key l) (key a) (some a) := by
  funext k'
  unfold toMap
  rw [lookup_append_singleton]
  by_cases hk : k' = key a
  · rw [hk, update_self, hnew, if_pos rfl]
    rfl
  · rw [update_of_ne hk, if_neg fun heq => hk heq.symm, Option.or_none]

section

variable (h : Unique key l)
include h

theorem Unique.lookup_remove_self : lookup key k (Keyed.remove key k l) = none := by
  induction l with
  | nil => rfl
  | cons a l ih =>
    obtain ⟨hnew, htail⟩ := nodup_cons.mp h
    rw [Keyed.remove]
    split
    case isTrue ha =>
      rw [← ha]
      exact lookup_eq_none_iff.mpr hnew
    case isFalse ha =>
      rw [lookup_cons_ne ha]
      exact ih htail

theorem Unique.toMap_remove :
    toMap key (Keyed.remove key k l) = Function.update (toMap key l) k none := by
  funext k'
  by_cases hk : k' = k
  · rw [hk, update_self]
    exact h.lookup_remove_self
  · rw [update_of_ne hk]
    exact lookup_remove_ne hk l

theorem Unique.lookup_perm {l' : List α} (hperm : l.Perm l') :
    lookup key k l' = lookup key k l := by
  cases ha : lookup key k l with
  | none =>
    exact lookup_eq_none_iff.mpr fun hk => lookup_eq_none_iff.mp ha ((hperm.map key).mem_iff.mpr hk)
  | some a =>
    obtain ⟨hmem, rfl⟩ := mem_of_lookup ha
    have h' : Unique key l' := (hperm.map key).nodup_iff.mp h
    exact h'.lookup_of_mem (hperm.mem_iff.mp hmem)

theorem Unique.swapRemove : Unique key (swapRemove key k l) :=
  ((swapRemove_perm l).map key).nodup_iff.mpr h.remove

theorem Unique.toMap_swapRemove :
    toMap key (Keyed.swapRemove key k l) = Function.update (toMap key l) k none := by
  rw [← h.toMap_remove]
  exact funext fun _ => h.remove.lookup_perm (swapRemove_perm l).symm

end

theorem Unique.toMap_filterMap {g : α → Option α} (hg : ∀ a b, g a = some b → key b = key a)
    (h : Unique key l) : toMap key (l.filterMap g) = fun k => (toMap key l k).bind g := by
  funext k
  unfold toMap
  induction l with
  | nil => rfl
  | cons a l ih =>
    obtain ⟨hnew, htail⟩ := nodup_cons.mp h
    have hrest := ih htail
    by_cases hk : key a = k
    · -- The rest of the table has no entry of this key, whatever becomes of this one.
      have hnone : lookup key k l = none := lookup_eq_none_iff.mpr (hk ▸ hnew)
      rw [hnone] at hrest
      rw [lookup, if_pos hk, Option.bind_some]
      cases ha : g a with
      | none =>
        rw [filterMap_cons_none ha]
        exact hrest
      | some b =>
        rw [filterMap_cons_some ha, lookup, if_pos ((hg a b ha).trans hk)]
    · rw [lookup_cons_ne hk, ← hrest]
      cases ha : g a with
      | none => rw [filterMap_cons_none ha]
      | some b =>
        rw [filterMap_cons_some ha]
        exact lookup_cons_ne (fun hb => hk ((hg a b ha).symm.trans hb)) _

theorem Unique.size_toMap (h : Unique key l) : size (toMap key l) = l.length := by
  have hkeys : {k | toMap key l k ≠ none} = ((l.map key).toFinset : Set κ) := by
    ext k
    rw [Set.mem_ofPred_eq, coe_toFinset, Set.mem_ofPred_eq, toMap, ne_eq, lookup_eq_none_iff,
      not_not]
  rw [size, hkeys, Set.ncard_coe_finset, toFinset_card_of_nodup h, length_map]

theorem length_remove (h : lookup key k l = some a) : (remove key k l).length + 1 = l.length := by
  induction l with
  | nil => cases h
  | cons b l ih =>
    rw [lookup] at h
    rw [remove]
    split
    · rfl
    case isFalse hb =>
      rw [if_neg hb] at h
      rw [length_cons, ih h, length_cons]

end Cant.Keyed
