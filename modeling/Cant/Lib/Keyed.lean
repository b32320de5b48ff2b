/-
# `Keyed` — tables searched by a key

A table is a list whose entries have a key; a search returns the first entry of a key, and
so do an update and a removal find theirs. Nothing says that keys are unique: a later
entry of a key is out of sight until those before it are removed. `Shadowed Q` says that
what comes to light then meets `Q`.
-/
import Mathlib.Data.List.Pairwise

namespace Cant.Keyed

open List

variable {α κ : Type} [DecidableEq κ]

section

variable (key : α → κ)

def lookup (k : κ) : List α → Option α
  | [] => none
  | a :: l => if key a = k then some a else lookup k l

def update (k : κ) (f : α → α) : List α → List α
  | [] => []
  | a :: l => if key a = k then f a :: l else a :: update k f l

def remove (k : κ) : List α → List α
  | [] => []
  | a :: l => if key a = k then l else a :: remove k l

/-- Every later entry of a key meets `Q`. -/
def Shadowed (Q : α → Prop) (l : List α) : Prop := l.Pairwise fun a b => key a = key b → Q b

end

variable {key : α → κ} {k k' : κ} {f : α → α} {Q : α → Prop}

variable {l : List α} {a : α}

theorem lookup_cons_ne (h : key a ≠ k) (l : List α) :
    lookup key k (a :: l) = lookup key k l := if_neg h

theorem mem_of_lookup : ∀ {l : List α} {a : α}, lookup key k l = some a → a ∈ l ∧ key a = k
  | b :: l, a, h => by
    by_cases hb : key b = k
    · rw [lookup, if_pos hb] at h
      cases h
      exact ⟨.head _, hb⟩
    · rw [lookup, if_neg hb] at h
      obtain ⟨hmem, hkey⟩ := mem_of_lookup h
      exact ⟨.tail _ hmem, hkey⟩

theorem lookup_eq_none_iff : lookup key k l = none ↔ k ∉ l.map key := by
  induction l with
  | nil => exact iff_of_true rfl not_mem_nil
  | cons a l ih =>
    rw [lookup, map_cons, mem_cons, not_or]
    by_cases ha : key a = k
    · rw [if_pos ha]
      exact iff_of_false (Option.some_ne_none a) fun h => h.1 ha.symm
    · rw [if_neg ha, ih]
      exact ⟨fun h => ⟨fun heq => ha heq.symm, h⟩, And.right⟩

theorem lookup_append_singleton (l : List α) (a : α) :
    lookup key k (l ++ [a]) = (lookup key k l).or (if key a = k then some a else none) := by
  induction l with
  | nil => rfl
  | cons b l ih =>
    by_cases hb : key b = k
    · rw [cons_append, lookup, if_pos hb, lookup, if_pos hb]
      rfl
    · rw [cons_append, lookup, if_neg hb, lookup, if_neg hb, ih]

theorem length_update (l : List α) : (update key k f l).length = l.length := by
  induction l with
  | nil => rfl
  | cons a l ih =>
    rw [update]
    split
    · rfl
    · rw [length_cons, ih, length_cons]

theorem map_update {β : Type} {g : α → β} (hg : ∀ a, g (f a) = g a) (l : List α) :
    (update key k f l).map g = l.map g := by
  induction l with
  | nil => rfl
  | cons a l ih =>
    rw [update]
    split
    · rw [map_cons, map_cons, hg]
    · rw [map_cons, map_cons, ih]

theorem lookup_update_self (hf : ∀ a, key a = k → key (f a) = k) (l : List α) :
    lookup key k (update key k f l) = (lookup key k l).map f := by
  induction l with
  | nil => rfl
  | cons b l ih =>
    by_cases hb : key b = k
    · rw [update, if_pos hb, lookup, if_pos (hf b hb), lookup, if_pos hb]
      rfl
    · rw [update, if_neg hb, lookup, if_neg hb, lookup, if_neg hb, ih]

theorem lookup_update_new (hnew : lookup key k' l = none) (ha : lookup key k l = some a)
    (hf : key (f a) = k') : lookup key k' (update key k f l) = some (f a) := by
  induction l with
  | nil => cases ha
  | cons b l ih =>
    rw [lookup] at hnew ha
    split at hnew
    case isTrue => cases hnew
    case isFalse hb' =>
      split at ha
      case isTrue hb =>
        cases ha
        rw [update, if_pos hb, lookup, if_pos hf]
      case isFalse hb =>
        rw [update, if_neg hb, lookup, if_neg hb']
        exact ih hnew ha

theorem lookup_update_ne (hf : ∀ a, key (f a) = key a) (hne : k' ≠ k) (l : List α) :
    lookup key k' (update key k f l) = lookup key k' l := by
  induction l with
  | nil => rfl
  | cons b l ih =>
    by_cases hb : key b = k
    · have hb' : key b ≠ k' := fun heq => hne (heq.symm.trans hb)
      rw [update, if_pos hb, lookup, if_neg (by rwa [hf b]), lookup, if_neg hb']
    · rw [update, if_neg hb, lookup, lookup, ih]

theorem lookup_remove_ne (hne : k' ≠ k) (l : List α) :
    lookup key k' (remove key k l) = lookup key k' l := by
  induction l with
  | nil => rfl
  | cons b l ih =>
    by_cases hb : key b = k
    · have hb' : key b ≠ k' := fun heq => hne (heq.symm.trans hb)
      rw [remove, if_pos hb, lookup, if_neg hb']
    · rw [remove, if_neg hb, lookup, lookup, ih]

section

variable {p : α → Bool}

theorem lookup_filter (hp : ∀ a, key a = k → p a) (l : List α) :
    lookup key k (l.filter p) = lookup key k l := by
  induction l with
  | nil => rfl
  | cons a l ih =>
    by_cases ha : key a = k
    · rw [filter_cons_of_pos (hp a ha), lookup, if_pos ha, lookup, if_pos ha]
    · rw [filter_cons, lookup_cons_ne ha, ← ih]
      split
      · exact lookup_cons_ne ha _
      · rfl

theorem filter_remove (hp : ∀ a, key a = k → p a) (l : List α) :
    (remove key k l).filter p = remove key k (l.filter p) := by
  induction l with
  | nil => rfl
  | cons a l ih =>
    by_cases ha : key a = k
    · rw [filter_cons_of_pos (hp a ha), remove, if_pos ha, remove, if_pos ha]
    · rw [remove, if_neg ha, filter_cons, filter_cons, ih]
      split
      · rw [remove, if_neg ha]
      · rfl

theorem filter_remove_of_neg (hp : ∀ a, key a = k → ¬ p a) (l : List α) :
    (remove key k l).filter p = l.filter p := by
  induction l with
  | nil => rfl
  | cons a l ih =>
    by_cases ha : key a = k
    · rw [remove, if_pos ha, filter_cons_of_neg (hp a ha)]
    · rw [remove, if_neg ha, filter_cons, filter_cons, ih]

end

theorem lookup_mapIdx {g : Nat → α → α} (hg : ∀ i a, key (g i a) = key a) (k : κ) (l : List α) :
    ∃ i, lookup key k (l.mapIdx g) = (lookup key k l).map (g i) := by
  induction l generalizing g with
  | nil => exact ⟨0, rfl⟩
  | cons a l ih =>
    rw [mapIdx_cons]
    by_cases ha : key a = k
    · refine ⟨0, ?_⟩
      rw [lookup, if_pos ((hg 0 a).trans ha), lookup, if_pos ha]
      rfl
    · obtain ⟨i, hi⟩ := ih fun i => hg (i + 1)
      refine ⟨i + 1, ?_⟩
      rw [lookup, if_neg (by rwa [hg]), lookup_cons_ne ha, hi]

/-! ## Entries out of sight -/

theorem Shadowed.lookup_remove {b : α} (h : Shadowed key Q l)
    (hb : lookup key k (remove key k l) = some b) : Q b := by
  induction l with
  | nil => cases hb
  | cons a l ih =>
    obtain ⟨hhead, htail⟩ := pairwise_cons.mp h
    by_cases ha : key a = k
    · rw [remove, if_pos ha] at hb
      obtain ⟨hmem, hkey⟩ := mem_of_lookup hb
      exact hhead b hmem (ha.trans hkey.symm)
    · rw [remove, if_neg ha, lookup_cons_ne ha] at hb
      exact ih htail hb

theorem remove_sublist (l : List α) : (remove key k l).Sublist l := by
  induction l with
  | nil => exact List.Sublist.refl _
  | cons a l ih =>
    rw [remove]
    split
    · exact sublist_cons_self a l
    · exact ih.cons_cons a

theorem Shadowed.remove (h : Shadowed key Q l) : Shadowed key Q (remove key k l) :=
  List.Pairwise.sublist (remove_sublist l) h

theorem mem_update {b : α} (h : b ∈ update key k f l) : b ∈ l ∨ ∃ a ∈ l, key a = k ∧ b = f a := by
  induction l with
  | nil => cases h
  | cons a l ih =>
    rw [update] at h
    split at h
    case isTrue ha =>
      rcases mem_cons.mp h with rfl | hmem
      · exact .inr ⟨a, .head _, ha, rfl⟩
      · exact .inl (.tail _ hmem)
    case isFalse ha =>
      rcases mem_cons.mp h with rfl | hmem
      · exact .inl mem_cons_self
      · rcases ih hmem with hold | ⟨c, hc, hkey, heq⟩
        · exact .inl (.tail _ hold)
        · exact .inr ⟨c, .tail _ hc, hkey, heq⟩

theorem Shadowed.update (hf : ∀ a, key (f a) = key a) (h : Shadowed key Q l) :
    Shadowed key Q (update key k f l) := by
  induction l with
  | nil => exact h
  | cons a l ih =>
    obtain ⟨hhead, htail⟩ := pairwise_cons.mp h
    rw [Keyed.update]
    split
    case isTrue ha =>
      refine pairwise_cons.mpr ⟨fun b hb heq => ?_, htail⟩
      exact hhead b hb ((hf a).symm.trans heq)
    case isFalse ha =>
      refine pairwise_cons.mpr ⟨fun b hb heq => ?_, ih htail⟩
      rcases mem_update hb with hold | ⟨c, hc, hkey, rfl⟩
      · exact hhead b hold heq
      · exact absurd (heq.trans ((hf c).trans hkey)) ha

theorem Shadowed.append (h : Shadowed key Q l) (ha : lookup key (key a) l = none) :
    Shadowed key Q (l ++ [a]) := by
  refine pairwise_append.mpr ⟨h, pairwise_singleton _ _, fun b hb c hc heq => ?_⟩
  rw [mem_singleton.mp hc] at heq
  exact absurd (heq ▸ mem_map_of_mem hb) (lookup_eq_none_iff.mp ha)

omit [DecidableEq κ] in
theorem Shadowed.mapIdx {g : Nat → α → α} (hg : ∀ i a, key (g i a) = key a)
    (hQ : ∀ i a, Q a → Q (g i a)) (h : Shadowed key Q l) : Shadowed key Q (l.mapIdx g) := by
  induction l generalizing g with
  | nil => exact List.Pairwise.nil
  | cons a l ih =>
    obtain ⟨hhead, htail⟩ := pairwise_cons.mp h
    rw [mapIdx_cons]
    refine pairwise_cons.mpr
      ⟨fun b hb heq => ?_, ih (fun i => hg (i + 1)) (fun i => hQ (i + 1)) htail⟩
    obtain ⟨i, hi, rfl⟩ := mem_mapIdx.mp hb
    rw [hg, hg] at heq
    exact hQ _ _ (hhead _ (getElem_mem hi) heq)

omit [DecidableEq κ] in
theorem Shadowed.of_forall (h : ∀ a ∈ l, Q a) : Shadowed key Q l :=
  pairwise_of_forall_mem_list fun _ _ b hb _ => h b hb

/-! ## The last entry in the place of another -/

section

variable (key)

def swapRemove (k : κ) : List α → List α
  | [] => []
  | a :: l => if key a = k then l.getLast?.toList ++ l.dropLast else a :: swapRemove k l

end

theorem swapRemove_perm (l : List α) : (swapRemove key k l).Perm (remove key k l) := by
  induction l with
  | nil => exact .refl _
  | cons a l ih =>
    rw [swapRemove, remove]
    split
    · rcases eq_nil_or_concat l with rfl | ⟨front, last, rfl⟩
      · exact .refl _
      · rw [concat_eq_append, getLast?_concat, dropLast_concat]
        exact (perm_append_singleton last front).symm
    · exact ih.cons a

section

variable {β : Type} {key' : β → κ} (g : α → β) (hg : ∀ a, key' (g a) = key a)

include hg

theorem lookup_map (l : List α) : lookup key' k (l.map g) = (lookup key k l).map g := by
  induction l with
  | nil => rfl
  | cons a l ih =>
    rw [map_cons, lookup, lookup, hg, ih]
    split <;> rfl

end

end Cant.Keyed
