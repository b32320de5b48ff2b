/-
# `Keystream` — bytes under a key stream

A key stream has a byte for every position, or for some only. `mask` takes the exclusive or
of a text with it, from a position on; where the stream has no byte there is no result.

Masking is its own inverse (`mask_mask`), and keeps whether one text begins with another
(`mask_isPrefix_iff`): both hold position by position.
-/
import Mathlib.Data.List.Infix

namespace Cant.Keystream

variable {key : Nat → Option UInt8} {i : Nat} {b : UInt8} {bs bs' cs cs' : List UInt8}

/-- A text under a key stream, from position `i` on. -/
def mask (key : Nat → Option UInt8) : Nat → List UInt8 → Option (List UInt8)
  | _, [] => some []
  | i, b :: bs => do
    let k ← key i
    let cs ← mask key (i + 1) bs
    some ((b ^^^ k) :: cs)

theorem mask_cons_iff : mask key i (b :: bs) = some cs ↔
    ∃ k cs', key i = some k ∧ mask key (i + 1) bs = some cs' ∧ cs = (b ^^^ k) :: cs' := by
  rw [mask]
  constructor
  · intro h
    obtain ⟨k, hk, hrest⟩ := Option.bind_eq_some_iff.mp h
    obtain ⟨cs', hcs', heq⟩ := Option.bind_eq_some_iff.mp hrest
    exact ⟨k, cs', hk, hcs', (Option.some.inj heq).symm⟩
  · rintro ⟨k, cs', hk, hcs', rfl⟩
    rw [hk, hcs']
    rfl

theorem mask_isSome_iff :
    (∃ cs, mask key i bs = some cs) ↔ ∀ j < bs.length, key (i + j) ≠ none := by
  induction bs generalizing i with
  | nil => exact iff_of_true ⟨[], rfl⟩ fun j hj => absurd hj (Nat.not_lt_zero j)
  | cons b bs ih =>
    constructor
    · rintro ⟨cs, hcs⟩ j hj
      obtain ⟨k, cs', hk, hcs', -⟩ := mask_cons_iff.mp hcs
      cases j with
      | zero =>
        rw [Nat.add_zero, hk]
        exact Option.some_ne_none k
      | succ j =>
        rw [Nat.add_comm j, ← Nat.add_assoc]
        exact ih.mp ⟨cs', hcs'⟩ j (Nat.lt_of_succ_lt_succ hj)
    · intro hall
      obtain ⟨k, hk⟩ := Option.ne_none_iff_exists'.mp (hall 0 (Nat.zero_lt_succ _))
      have hrest : ∀ j < bs.length, key (i + 1 + j) ≠ none := by
        intro j hj
        rw [Nat.add_assoc, Nat.add_comm 1]
        exact hall (j + 1) (Nat.succ_lt_succ hj)
      obtain ⟨cs', hcs'⟩ := ih.mpr hrest
      exact ⟨_, mask_cons_iff.mpr ⟨k, cs', hk, hcs', rfl⟩⟩

section

variable (h : mask key i bs = some cs)
include h

theorem length_mask : cs.length = bs.length := by
  induction bs generalizing i cs with
  | nil => rw [← Option.some.inj h]
  | cons b bs ih =>
    obtain ⟨k, cs', -, hcs', rfl⟩ := mask_cons_iff.mp h
    rw [List.length_cons, List.length_cons, ih hcs']

theorem mask_mask : mask key i cs = some bs := by
  induction bs generalizing i cs with
  | nil =>
    cases h
    rfl
  | cons b bs ih =>
    obtain ⟨k, cs', hk, hcs', rfl⟩ := mask_cons_iff.mp h
    refine mask_cons_iff.mpr ⟨k, bs, hk, ih hcs', ?_⟩
    rw [UInt8.xor_assoc, UInt8.xor_self, UInt8.xor_zero]

theorem mask_isPrefix (h' : mask key i bs' = some cs') (hle : bs <+: bs') : cs <+: cs' := by
  induction bs generalizing i bs' cs cs' with
  | nil =>
    cases h
    exact List.nil_prefix
  | cons b bs ih =>
    obtain ⟨rest, rfl⟩ := hle
    obtain ⟨k, ds, hk, hds, rfl⟩ := mask_cons_iff.mp h
    obtain ⟨k', ds', hk', hds', rfl⟩ := mask_cons_iff.mp h'
    obtain rfl := Option.mem_unique hk hk'
    exact List.cons_prefix_cons.mpr ⟨rfl, ih hds hds' (List.prefix_append bs rest)⟩

theorem mask_isPrefix_iff (h' : mask key i bs' = some cs') : cs <+: cs' ↔ bs <+: bs' :=
  ⟨mask_isPrefix (mask_mask h) (mask_mask h'), mask_isPrefix h h'⟩

end

end Cant.Keystream
