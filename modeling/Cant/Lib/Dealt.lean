/-
# `Dealt` — tokens that are in one place at a time

Some parties deal with a stock of tokens. `Dealt` says that every token is in one place
only: once in the stock, or once in the hands of one party. To deal one out and to give one
back keep this, and so does whatever a party does with its own.
-/
import Mathlib.Data.List.Perm.Subperm

namespace Cant

open List Function

variable {τ β : Type}

/-- No token is in two places, in the stock `free` or with the parties, who have `has`. -/
structure Dealt (free : List β) (has : τ → List β) : Prop where
  free_nodup : free.Nodup
  has_nodup : ∀ t, (has t).Nodup
  apart : ∀ t, ∀ b ∈ has t, b ∉ free
  exclusive : ∀ t u b, b ∈ has t → b ∈ has u → t = u

namespace Dealt

variable {free : List β} {has has' : τ → List β} {b : β} {t : τ}

theorem init (h : free.Nodup) : Dealt free fun _ : τ => [] :=
  ⟨h, fun _ => nodup_nil, fun _ _ hb => absurd hb not_mem_nil, fun _ _ _ hb =>
    absurd hb not_mem_nil⟩

theorem sub (h : Dealt free has) (hsub : ∀ u, has' u <+~ has u) : Dealt free has' := by
  refine ⟨h.free_nodup, fun u => ?_, fun u b hb => h.apart u b ((hsub u).subset hb),
    fun u v b hu hv => h.exclusive u v b ((hsub u).subset hu) ((hsub v).subset hv)⟩
  obtain ⟨l, hperm, hl⟩ := hsub u
  exact hperm.nodup_iff.mp ((h.has_nodup u).sublist hl)

theorem deal [DecidableEq τ] (h : Dealt (free ++ [b]) has) (t : τ) :
    Dealt free (update has t (b :: has t)) := by
  have hstock := List.nodup_append.mp h.free_nodup
  have hnew : b ∉ free := fun hb => hstock.2.2 b hb b (mem_singleton_self b) rfl
  have hout : ∀ u, b ∉ has u :=
    fun u hb => h.apart u b hb (mem_append_right _ (mem_singleton_self b))
  have hold : ∀ u, ∀ c ∈ has u, c ∉ free :=
    fun u c hc hfree => h.apart u c hc (mem_append_left _ hfree)
  refine ⟨hstock.1, fun u => ?_, fun u c hc => ?_, fun u v c hu hv => ?_⟩
  · rcases eq_or_ne u t with rfl | hne
    · rw [update_self]
      exact nodup_cons.mpr ⟨hout u, h.has_nodup u⟩
    · rw [update_of_ne hne]
      exact h.has_nodup u
  · rcases eq_or_ne u t with rfl | hne
    · rw [update_self] at hc
      rcases mem_cons.mp hc with rfl | hc
      · exact hnew
      · exact hold u c hc
    · rw [update_of_ne hne] at hc
      exact hold u c hc
  · rcases eq_or_ne u t with rfl | hne
    · rcases eq_or_ne v u with rfl | hne'
      · rfl
      · rw [update_of_ne hne'] at hv
        rw [update_self] at hu
        rcases mem_cons.mp hu with rfl | hu
        · exact absurd hv (hout v)
        · exact h.exclusive u v c hu hv
    · rw [update_of_ne hne] at hu
      rcases eq_or_ne v t with rfl | hne'
      · rw [update_self] at hv
        rcases mem_cons.mp hv with rfl | hv
        · exact absurd hu (hout u)
        · exact h.exclusive u v c hu hv
      · rw [update_of_ne hne'] at hv
        exact h.exclusive u v c hu hv

theorem giveBack (h : Dealt free has) (hb : b ∈ has t) (hsub : ∀ u, has' u <+~ has u)
    (hgone : b ∉ has' t) : Dealt (free ++ [b]) has' := by
  have hless := h.sub hsub
  refine ⟨?_, hless.has_nodup, fun u c hc hfree => ?_, hless.exclusive⟩
  · refine List.nodup_append.mpr ⟨h.free_nodup, pairwise_singleton _ _, fun c hc d hd => ?_⟩
    obtain rfl := mem_singleton.mp hd
    rintro rfl
    exact h.apart t c hb hc
  · rcases mem_append.mp hfree with hfree | hlast
    · exact hless.apart u c hc hfree
    · obtain rfl := mem_singleton.mp hlast
      obtain rfl := h.exclusive u t c ((hsub u).subset hc) hb
      exact hgone hc

end Dealt

end Cant
