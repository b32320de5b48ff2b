/-
# `Extent` — stretches of addresses

A stretch is a start and a size, over the naturals: nothing wraps here, and a stretch of
size zero has no address. One stretch lies `Within` another or `Apart` from it by what
addresses it has; `within_iff` and `apart_iff` are the comparisons of end points a program
makes instead.
-/
import Cant.Lib.ByteMem

namespace Cant

/-- `size` addresses from `start` on. -/
structure Extent where
  start : Nat
  size : Nat

namespace Extent

instance : Membership Nat Extent := ⟨fun e a => e.start ≤ a ∧ a < e.start + e.size⟩

variable {e f : Extent} {a : Nat}

theorem mem_iff : a ∈ e ↔ e.start ≤ a ∧ a < e.start + e.size := Iff.rfl

theorem mem_mk {start size : Nat} : a ∈ mk start size ↔ start ≤ a ∧ a < start + size := Iff.rfl

def Within (e f : Extent) : Prop := ∀ a ∈ e, a ∈ f

def Apart (e f : Extent) : Prop := ∀ a ∈ e, a ∉ f

theorem within_iff (hsize : 0 < e.size) :
    e.Within f ↔ f.start ≤ e.start ∧ e.start + e.size ≤ f.start + f.size := by
  constructor
  · intro h
    have hfirst := mem_iff.mp (h e.start (mem_iff.mpr ⟨.refl, by omega⟩))
    have hlast := mem_iff.mp (h (e.start + e.size - 1) (mem_iff.mpr ⟨by omega, by omega⟩))
    exact ⟨hfirst.1, by omega⟩
  · rintro ⟨hstart, hend⟩ a ha
    obtain ⟨hle, hlt⟩ := mem_iff.mp ha
    exact mem_iff.mpr ⟨Nat.le_trans hstart hle, Nat.lt_of_lt_of_le hlt hend⟩

theorem apart_iff : e.Apart f ↔
    e.size = 0 ∨ f.size = 0 ∨ e.start + e.size ≤ f.start ∨ f.start + f.size ≤ e.start := by
  constructor
  · intro h
    by_contra hnot
    -- The later of the two starts is an address of both.
    refine h (max e.start f.start) (mem_iff.mpr ⟨Nat.le_max_left _ _, by omega⟩) ?_
    exact mem_iff.mpr ⟨Nat.le_max_right _ _, by omega⟩
  · intro h a he hf
    obtain ⟨hle, hlt⟩ := mem_iff.mp he
    obtain ⟨hle', hlt'⟩ := mem_iff.mp hf
    omega

instance (e f : Extent) : Decidable (e.Apart f) := decidable_of_iff _ apart_iff.symm

theorem Apart.symm (h : e.Apart f) : f.Apart e := fun a hf he => h a he hf

theorem Apart.load_store {bs : List UInt8} (h : Apart ⟨a, bs.length⟩ f) (m : Mem) :
    (m.store a bs).load f.start f.size = m.load f.start f.size := by
  refine Mem.load_congr fun x hle hlt => Mem.store_of_not ?_
  by_contra hnot
  exact h x (mem_mk.mpr (by omega)) (mem_iff.mpr ⟨hle, hlt⟩)

end Extent

end Cant
