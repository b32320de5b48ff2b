/-
# `March` — memory tests, word by word

A test is a list of accesses: a word is written, or read and compared with what it should
hold, and the test ends at the first that does not. How a write changes the word is a
parameter, `g p x` for the value `x` at the word `p`; in a memory without a fault it is `x`.

The words do not see each other, so a test is passed just when each word passes its own part of it
(`passes_iff_words`): a test over any number of words comes down to a few accesses of one.
-/
import Mathlib.Data.List.Range
import Cant.Lib.Coupling

namespace Cant.March

open Cant.Coupling List

variable {α ρ : Type} {w : Nat}

/-- What is done to a word; `failure` is reported if it does not hold what is expected. -/
inductive Act (w : Nat) (ρ : Type) where
  | write (x : BitVec w)
  | expect (x : BitVec w) (failure : ρ)

structure Op (α : Type) (w : Nat) (ρ : Type) where
  word : α
  act : Act w ρ

section

variable {q : α} {ops : List (Op α w ρ)} {mem : α → BitVec w}
variable (store : (α → BitVec w) → α → BitVec w → α → BitVec w)

/-- The test on a memory, with the first failure. -/
def run : List (Op α w ρ) → (α → BitVec w) → Option ρ × (α → BitVec w)
  | [], mem => (none, mem)
  | ⟨p, .write x⟩ :: ops, mem => run ops (store mem p x)
  | ⟨p, .expect x failure⟩ :: ops, mem => if mem p = x then run ops mem else (some failure, mem)

def touched : List (Op α w ρ) → (α → BitVec w) → List α
  | [], _ => []
  | ⟨p, .write x⟩ :: ops, mem => p :: touched ops (store mem p x)
  | ⟨p, .expect x _⟩ :: ops, mem => p :: if mem p = x then touched ops mem else []

variable {store}

theorem run_append (ops ops' : List (Op α w ρ)) (mem : α → BitVec w) :
    run store (ops ++ ops') mem = match run store ops mem with
      | (none, mem') => run store ops' mem'
      | failed => failed := by
  induction ops generalizing mem with
  | nil => rfl
  | cons op ops ih =>
    obtain ⟨p, act⟩ := op
    cases act with
    | write x => exact ih (store mem p x)
    | expect x failure =>
      simp only [cons_append, run]
      split
      · exact ih mem
      · rfl

theorem exists_op_of_touched
    (h : q ∈ touched store ops mem) : ∃ op ∈ ops, op.word = q := by
  induction ops generalizing mem with
  | nil => cases h
  | cons op ops ih =>
    obtain ⟨p, act⟩ := op
    have hcases : q = p ∨ ∃ mem', q ∈ touched store ops mem' := by
      cases act with
      | write x =>
        rcases mem_cons.mp h with hp | hrest
        · exact .inl hp
        · exact .inr ⟨_, hrest⟩
      | expect x failure =>
        rcases mem_cons.mp h with hp | hrest
        · exact .inl hp
        · split at hrest
          · exact .inr ⟨_, hrest⟩
          · cases hrest
    rcases hcases with rfl | ⟨mem', hrest⟩
    · exact ⟨_, .head _, rfl⟩
    · obtain ⟨op', hop', hword⟩ := ih hrest
      exact ⟨op', .tail _ hop', hword⟩

theorem touched_of_writes {ops' : List (Op α w ρ)}
    (hwrites : ∀ op ∈ ops, ∃ x, op.act = .write x) (hq : ∃ op ∈ ops, op.word = q) :
    q ∈ touched store (ops ++ ops') mem := by
  induction ops generalizing mem with
  | nil =>
    obtain ⟨op, hop, -⟩ := hq
    cases hop
  | cons op ops ih =>
    obtain ⟨p, act⟩ := op
    obtain ⟨x, rfl⟩ : ∃ x, act = .write x := hwrites ⟨p, act⟩ mem_cons_self
    obtain ⟨op', hop', rfl⟩ := hq
    rcases mem_cons.mp hop' with rfl | hrest
    · exact .head _
    · exact .tail _
        (ih (fun op hop => hwrites op (.tail _ hop)) ⟨op', hrest, rfl⟩)

end

/-! ## One word -/

/-- The word passes its accesses, from the value `v` on. -/
def passes (g : BitVec w → BitVec w) : List (Act w ρ) → BitVec w → Bool
  | [], _ => true
  | .write x :: acts, _ => passes g acts (g x)
  | .expect x _ :: acts, v => v = x && passes g acts v

/-- What the word is expected to hold at one time or another. -/
def expected : List (Act w ρ) → List (BitVec w)
  | [] => []
  | .write _ :: acts => expected acts
  | .expect x _ :: acts => x :: expected acts

theorem setBit_eq_self_iff {x : BitVec w} {i : Fin w} {b : Bool} :
    setBit x i b = x ↔ x.getLsbD i = b := by
  constructor
  · intro h
    rw [← h, getLsbD_setBit, if_pos rfl]
  · exact setBit_eq_self

/-- A word with a stuck bit passes what it should pass just when no comparison expects the
other value. -/
theorem passes_setBit_iff {i : Fin w} {b : Bool} {acts : List (Act w ρ)} {v : BitVec w}
    (h : passes id acts v = true) :
    passes (setBit · i b) acts (setBit v i b) = true ↔ ∀ x ∈ expected acts, x.getLsbD i = b := by
  induction acts generalizing v with
  | nil => exact iff_of_true rfl nofun
  | cons act acts ih =>
    cases act with
    | write x => exact ih h
    | expect x failure =>
      rw [passes, Bool.and_eq_true, decide_eq_true_eq] at h
      obtain ⟨rfl, hrest⟩ := h
      rw [passes, Bool.and_eq_true, decide_eq_true_eq, setBit_eq_self_iff, ih hrest, expected,
        forall_mem_cons]

/-! ## All words -/

section

variable [DecidableEq α]

def onWord (p : α) (ops : List (Op α w ρ)) : List (Act w ρ) :=
  ops.filterMap fun op => if op.word = p then some op.act else none

def storing (g : α → BitVec w → BitVec w) (mem : α → BitVec w) (p : α) (x : BitVec w) :
    α → BitVec w :=
  Function.update mem p (g p x)

def sound : α → BitVec w → BitVec w := fun _ => id

/-- A memory with a bit of one word stuck at `b`. -/
def stuck (word : α) (bit : Fin w) (b : Bool) : α → BitVec w → BitVec w :=
  fun p x => if p = word then setBit x bit b else x

theorem onWord_cons (p : α) (op : Op α w ρ) (ops : List (Op α w ρ)) :
    onWord p (op :: ops) = if op.word = p then op.act :: onWord p ops else onWord p ops := by
  rw [onWord, filterMap_cons]
  split
  case h_1 heq =>
    rw [if_neg fun h => by rw [if_pos h] at heq; cases heq]
    rfl
  case h_2 act heq =>
    obtain ⟨hword, hact⟩ := Option.ite_none_right_eq_some.mp heq
    rw [if_pos hword, Option.some.inj hact]
    rfl

theorem passes_iff_words (g : α → BitVec w → BitVec w) (ops : List (Op α w ρ))
    (mem : α → BitVec w) : (run (storing g) ops mem).1 = none ↔
      ∀ p, passes (g p) (onWord p ops) (mem p) = true := by
  induction ops generalizing mem with
  | nil => exact iff_of_true rfl fun p => rfl
  | cons op ops ih =>
    obtain ⟨p, act⟩ := op
    cases act with
    | write x =>
      rw [run, ih]
      refine forall_congr' fun q => ?_
      rw [onWord_cons]
      rcases eq_or_ne p q with rfl | hne
      · rw [if_pos rfl, storing, Function.update_self]
        rfl
      · rw [if_neg hne, storing, Function.update_of_ne hne.symm]
    | expect x failure =>
      rw [run]
      split
      case isTrue heq =>
        rw [ih]
        refine forall_congr' fun q => ?_
        rw [onWord_cons]
        rcases eq_or_ne p q with rfl | hne
        · rw [if_pos rfl, passes, decide_eq_true heq, Bool.true_and]
        · rw [if_neg hne]
      case isFalse hne =>
        refine iff_of_false (Option.some_ne_none failure) fun h => ?_
        have hp := h p
        rw [onWord_cons, if_pos rfl, passes, decide_eq_false hne] at hp
        cases hp

/-- **A stuck bit.** A test that a memory without a fault passes is passed by one with a bit
stuck just when no comparison of its word expects the other value. -/
theorem passes_stuck_iff {ops : List (Op α w ρ)} {mem : α → BitVec w} {word : α} {bit : Fin w}
    {b : Bool} (hsound : (run (storing sound) ops mem).1 = none)
    (hstuck : (mem word).getLsbD bit = b) :
    (run (storing (stuck word bit b)) ops mem).1 = none ↔
      ∀ x ∈ expected (onWord word ops), x.getLsbD bit = b := by
  rw [passes_iff_words] at hsound ⊢
  have hword : passes (stuck word bit b word) (onWord word ops) (mem word) = true ↔
      ∀ x ∈ expected (onWord word ops), x.getLsbD bit = b := by
    have hg : stuck word bit b word = (setBit · bit b) := funext fun x => if_pos rfl
    have hmem : mem word = setBit (mem word) bit b := (setBit_eq_self hstuck).symm
    rw [hg, hmem]
    exact passes_setBit_iff (hsound word)
  refine ⟨fun h => hword.mp (h word), fun h p => ?_⟩
  rcases eq_or_ne p word with rfl | hne
  · exact hword.mpr h
  · have hg : stuck word bit b p = id := funext fun x => if_neg hne
    rw [hg]
    exact hsound p

end

/-! ## Loops over the words -/

def sweep (count : Nat) (body : Nat → List (Act w ρ)) : List (Op Nat w ρ) :=
  (List.range count).flatMap fun p => (body p).map (Op.mk p)

def sweeps (count : Nat) (loops : List (Nat → List (Act w ρ))) : List (Op Nat w ρ) :=
  loops.flatMap (sweep count)

section

variable {count p : Nat} {body : Nat → List (Act w ρ)} {loops : List (Nat → List (Act w ρ))}

theorem onWord_append [DecidableEq α] (p : α) (ops ops' : List (Op α w ρ)) :
    onWord p (ops ++ ops') = onWord p ops ++ onWord p ops' :=
  filterMap_append

theorem onWord_map (p q : Nat) (acts : List (Act w ρ)) :
    onWord p (acts.map (Op.mk q)) = if q = p then acts else [] := by
  rw [onWord, filterMap_map]
  split
  case isTrue heq =>
    refine (filterMap_congr fun act _ => ?_).trans filterMap_some
    exact if_pos heq
  case isFalse hne => exact filterMap_eq_nil_iff.mpr fun act _ => if_neg hne

theorem onWord_sweep : onWord p (sweep count body) = if p < count then body p else [] := by
  induction count with
  | zero => exact (if_neg (Nat.not_lt_zero p)).symm
  | succ count ih =>
    have hlast : sweep (count + 1) body = sweep count body ++ (body count).map (Op.mk count) := by
      rw [sweep, range_succ, flatMap_append, flatMap_singleton]
      rfl
    rw [hlast, onWord_append, ih, onWord_map]
    rcases Nat.lt_trichotomy p count with hlt | rfl | hgt
    · rw [if_pos hlt, if_neg hlt.ne', if_pos (Nat.lt_succ_of_lt hlt), append_nil]
    · rw [if_neg (Nat.lt_irrefl p), if_pos rfl, if_pos (Nat.lt_succ_self p), nil_append]
    · rw [if_neg (Nat.lt_asymm hgt), if_neg hgt.ne, if_neg (Nat.not_lt.mpr hgt), append_nil]

theorem onWord_sweeps :
    onWord p (sweeps count loops) = if p < count then loops.flatMap (· p) else [] := by
  induction loops with
  | nil => exact (ite_self []).symm
  | cons body loops ih =>
    rw [sweeps, flatMap_cons, onWord_append, onWord_sweep]
    rw [sweeps] at ih
    rw [ih]
    split <;> rfl

theorem word_lt_of_sweeps {op : Op Nat w ρ} (h : op ∈ sweeps count loops) : op.word < count := by
  obtain ⟨body, -, hop⟩ := mem_flatMap.mp h
  obtain ⟨p, hp, hact⟩ := mem_flatMap.mp hop
  obtain ⟨act, -, rfl⟩ := mem_map.mp hact
  exact mem_range.mp hp

theorem sweeps_pass_iff (mem : Nat → BitVec w) :
    (run (storing sound) (sweeps count loops) mem).1 = none ↔
      ∀ p < count, passes id (loops.flatMap (· p)) (mem p) = true := by
  rw [passes_iff_words]
  refine forall_congr' fun p => ?_
  rw [onWord_sweeps]
  split
  case isTrue hlt => exact ⟨fun h _ => h, fun h => h hlt⟩
  case isFalse hnot => exact iff_of_true rfl fun hlt => absurd hlt hnot

end

end Cant.March
