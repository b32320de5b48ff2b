/-
# `BufferManager` — buffers that are taken back after five seconds

`buffer_manager.c`. A pointer to the data of a buffer is the number of the buffer; a
pointer to anything else, NULL included, is `none`. What is in a buffer is the business of the
clients and left out, and so is `peak_usage`, which nothing touches.

`BufferManager_Process` takes a buffer back from a client that has it for more than 5000 ms, and
tells nobody; `BufferManager_Free` takes it back from whoever has it. `accounts_kept_iff` says that
nothing else goes wrong.
-/
import Cant.Lib.Past
import Cant.Lib.Slots

namespace Cant.Network

open Past Run Cant.Slots Function

/-- `Buffer`, without its data. -/
structure Buffer where
  length : UInt32
  inUse : Bool
  timestamp : UInt32

structure BufferManager where
  buffers : Fin 8 → Buffer
  allocCount : UInt32
  freeCount : UInt32

namespace BufferManager

/-- `BufferManager_Init`, whatever was there before. -/
def init : BufferManager := ⟨fun _ => ⟨0, false, 0⟩, 0, 0⟩

def alloc (m : BufferManager) (now : UInt32) : BufferManager × Option (Fin 8) :=
  match (List.finRange 8).find? fun i => !(m.buffers i).inUse with
  | some i =>
    ({ m with
      buffers := update m.buffers i ⟨0, true, now⟩
      allocCount := m.allocCount + 1 }, some i)
  | none => (m, none)

def free (m : BufferManager) (buffer : Option (Fin 8)) : BufferManager :=
  match buffer with
  | some i =>
    { m with
      buffers := update m.buffers i { m.buffers i with inUse := false }
      freeCount := m.freeCount + 1 }
  | none => m

def expired (b : Buffer) (currentTime : UInt32) : Bool :=
  b.inUse && currentTime - b.timestamp > 5000

def process (m : BufferManager) (now : UInt32) : BufferManager :=
  { m with
    buffers := fun i =>
      if expired (m.buffers i) now then { m.buffers i with inUse := false } else m.buffers i
    freeCount := m.freeCount +
      .ofNat ((List.finRange 8).filter fun i => expired (m.buffers i) now).length }

def getUsage (m : BufferManager) : UInt32 :=
  .ofNat ((List.finRange 8).filter fun i => (m.buffers i).inUse).length

/-! ## The clients -/

variable {κ : Type}

/-- The calls, each with the client that makes it, or with the clock. -/
inductive Call (κ : Type) where
  | alloc (client : κ) (now : UInt32)
  | free (client : κ) (buffer : Option (Fin 8))
  | process (now : UInt32)

/-- One call; the output is the buffer a client is given. -/
def step (m : BufferManager) : Call κ → Option (BufferManager × Option (Fin 8))
  | .alloc _ now => some (m.alloc now)
  | .free _ buffer => some (m.free buffer, none)
  | .process now => some (m.process now, none)

abbrev Entry (κ : Type) := Taken BufferManager (Call κ) (Option (Fin 8))

def Given (client : κ) (i : Fin 8) (e : Entry κ) (_ : List (Entry κ)) : Prop :=
  (∃ now, e.input = .alloc client now) ∧ e.output = some i

def Frees (client : κ) (i : Fin 8) (e : Entry κ) : Prop := e.input = .free client (some i)

def Holds (client : κ) (i : Fin 8) : List (Entry κ) → Prop :=
  Since (fun e => ¬ Frees client i e) (Given client i)

def Released (i : Fin 8) (e : Entry κ) : Prop :=
  (e.pre.buffers i).inUse = true ∧ (e.post.buffers i).inUse = false

/-- The buffer was taken from the client while it held it, and it has not freed it since. -/
def Lost (client : κ) (i : Fin 8) : List (Entry κ) → Prop :=
  Since (fun e => ¬ Frees client i e) fun e past =>
    Released i e ∧ ¬ Frees client i e ∧ Holds client i past

def Exclusive (e : Entry κ) (past : List (Entry κ)) : Prop :=
  ∀ client now i, e.input = .alloc client now → e.output = some i →
    ∀ other, other ≠ client → ¬ Holds other i past

def Balanced (m : BufferManager) : Prop := m.allocCount - m.freeCount = m.getUsage

def Accounts (x : List (Entry κ) × BufferManager) : Prop :=
  Balanced x.2 ∧ Historically Exclusive x.1

def flags (buffers : Fin 8 → Buffer) (i : Fin 8) : Bool := (buffers i).inUse

/-- What a call must not do: free a buffer that is not in use, or come to a buffer that another
client has lost. -/
def Careful (x : List (Entry κ) × BufferManager) : Call κ → Prop
  | .alloc client _ =>
    ∀ i ∈ firstFree (flags x.2.buffers), ∀ other, other ≠ client → ¬ Lost other i x.1
  | .free _ buffer => ∀ i ∈ buffer, (x.2.buffers i).inUse = true
  | .process _ => True

/-! ## The books -/

section

variable {m : BufferManager}

theorem flags_update (buffers : Fin 8 → Buffer) (i : Fin 8) (b : Buffer) :
    flags (update buffers i b) = update (flags buffers) i b.inUse :=
  comp_update Buffer.inUse buffers i b

theorem balanced_iff :
    Balanced m ↔ m.allocCount - m.freeCount = .ofNat (used (flags m.buffers)).card := by
  rw [← length_filter]
  rfl

theorem alloc_eq (m : BufferManager) (now : UInt32) :
    (∃ i, (m.buffers i).inUse = false ∧ m.alloc now = ({ m with
      buffers := update m.buffers i ⟨0, true, now⟩
      allocCount := m.allocCount + 1 }, some i)) ∨ m.alloc now = (m, none) := by
  unfold alloc
  split
  next i hfind => exact .inl ⟨i, firstFree_some hfind, rfl⟩
  · exact .inr rfl

theorem alloc_answer (m : BufferManager) (now : UInt32) :
    (m.alloc now).2 = firstFree (flags m.buffers) := by
  unfold alloc
  split
  next i hfind => exact hfind.symm
  next hfind => exact hfind.symm

theorem Balanced.alloc (h : Balanced m) (now : UInt32) : Balanced (m.alloc now).1 := by
  rcases alloc_eq m now with ⟨i, hi, heq⟩ | heq
  · rw [balanced_iff] at h
    rw [heq, balanced_iff, flags_update, card_used_take hi, UInt32.ofNat_add]
    grind
  · rw [heq]
    exact h

theorem Balanced.free_iff (h : Balanced m) (i : Fin 8) :
    Balanced (m.free (some i)) ↔ (m.buffers i).inUse = true := by
  rw [balanced_iff] at h ⊢
  show m.allocCount - (m.freeCount + 1) =
    .ofNat (used (flags (update m.buffers i { m.buffers i with inUse := false }))).card ↔ _
  rw [flags_update]
  cases hi : (m.buffers i).inUse with
  | true =>
    rw [← card_used_giveBack (i := i) hi, UInt32.ofNat_add] at h
    grind
  | false =>
    have hsame : update (flags m.buffers) i false = flags m.buffers :=
      update_eq_self_iff.mpr hi.symm
    grind

theorem Balanced.process (h : Balanced m) (now : UInt32) : Balanced (m.process now) := by
  have hleft : used (flags (m.process now).buffers) =
      (used (flags m.buffers)).filter fun i => ¬ expired (m.buffers i) now = true := by
    ext i
    rw [Finset.mem_filter, mem_used, mem_used]
    show (if expired (m.buffers i) now then _ else m.buffers i).inUse = true ↔ _
    by_cases hexp : expired (m.buffers i) now = true
    · rw [if_pos hexp]
      exact iff_of_false Bool.false_ne_true fun h => h.2 hexp
    · rw [if_neg hexp]
      exact (and_iff_left hexp).symm
  have hfreed : ((List.finRange 8).filter fun i => expired (m.buffers i) now).length =
      ((used (flags m.buffers)).filter fun i => expired (m.buffers i) now = true).card := by
    rw [length_filter, used, used, Finset.filter_filter]
    refine congrArg Finset.card (Finset.filter_congr fun i _ => ?_)
    rw [expired, Bool.and_eq_true]
    exact ⟨fun h => ⟨h.1, h⟩, And.right⟩
  have hsum := Finset.card_filter_add_card_filter_not (s := used (flags m.buffers))
    fun i => expired (m.buffers i) now = true
  rw [balanced_iff] at h ⊢
  show m.allocCount - (m.freeCount + .ofNat _) = _
  rw [← hsum, UInt32.ofNat_add] at h
  grind

end

/-! ## Who holds what -/

theorem Lost.holds {client : κ} {i : Fin 8} {log : List (Entry κ)} (h : Lost client i log) :
    Holds client i log :=
  h.carry (fun _ _ hlost => .inr ⟨hlost.2.1, hlost.2.2⟩) fun _ _ hkept hheld => .inr ⟨hkept, hheld⟩

/-- The invariant: a buffer that a client holds is in use, or the client has lost it. -/
structure Inv (x : List (Entry κ) × BufferManager) : Prop where
  accounts : Accounts x
  held : ∀ client i, Holds client i x.1 → (x.2.buffers i).inUse = true ∨ Lost client i x.1

variable {m : BufferManager} {call : Call κ} {out : Option (Fin 8)}
  {x : List (Entry κ) × BufferManager}

theorem inUse_of_given {m' : BufferManager} {past : List (Entry κ)} {client : κ} {i : Fin 8}
    (h : m.step call = some (m', out)) (hgiven : Given client i ⟨m, call, out, m'⟩ past) :
    (m'.buffers i).inUse = true := by
  obtain ⟨⟨now, rfl⟩, rfl⟩ := hgiven
  have heq : m.alloc now = (m', some i) := Option.some.inj h
  rcases alloc_eq m now with ⟨j, -, hj⟩ | hnone
  · obtain ⟨rfl, hout⟩ := Prod.mk.inj (hj.symm.trans heq)
    obtain rfl := Option.some.inj hout
    show (update m.buffers j _ j).inUse = true
    rw [update_self]
  · cases hnone.symm.trans heq

theorem Inv.held_step (h : Inv x) (hstep : x.2.step call = some (m, out)) :
    ∀ client i, Holds client i (⟨x.2, call, out, m⟩ :: x.1) →
      (m.buffers i).inUse = true ∨ Lost client i (⟨x.2, call, out, m⟩ :: x.1) := by
  rintro client i (hgiven | ⟨hkept, hheld⟩)
  · exact .inl (inUse_of_given hstep hgiven)
  · rcases h.held client i hheld with huse | hlost
    · cases hafter : (m.buffers i).inUse with
      | true => exact .inl rfl
      | false => exact .inr (.inl ⟨⟨huse, hafter⟩, hkept, hheld⟩)
    · exact .inr (.inr ⟨hkept, hlost⟩)

theorem balanced_step {m' : BufferManager} (h : Balanced m) (hstep : m.step call = some (m', out)) :
    Balanced m' ↔ ∀ client i, call = .free client (some i) → (m.buffers i).inUse = true := by
  cases call with
  | alloc client now =>
    obtain rfl : (m.alloc now).1 = m' := congrArg Prod.fst (Option.some.inj hstep)
    exact iff_of_true (h.alloc now) fun _ _ heq => by cases heq
  | process now =>
    obtain rfl : m.process now = m' := congrArg Prod.fst (Option.some.inj hstep)
    exact iff_of_true (h.process now) fun _ _ heq => by cases heq
  | free client buffer =>
    obtain rfl : m.free buffer = m' := congrArg Prod.fst (Option.some.inj hstep)
    cases buffer with
    | none => exact iff_of_true h fun _ _ heq => by cases heq
    | some i =>
      rw [h.free_iff i]
      constructor
      · rintro huse client' i' heq
        cases heq
        exact huse
      · exact fun hall => hall client i rfl

theorem step_total (m : BufferManager) (call : Call κ) :
    ∃ m' out, m.step call = some (m', out) := by
  cases call with
  | alloc client now | free client buffer | process now => exact ⟨_, _, rfl⟩

theorem Inv.step (h : Inv x) (hok : Careful x call) (hstep : x.2.step call = some (m, out)) :
    Inv (⟨x.2, call, out, m⟩ :: x.1, m) := by
  refine ⟨⟨(balanced_step h.accounts.1 hstep).mpr ?_, ?_, h.accounts.2⟩, h.held_step hstep⟩
  · rintro client i rfl
    exact hok i rfl
  · rintro client now i rfl rfl other hother hheld
    have heq : x.2.alloc now = (m, some i) := Option.some.inj hstep
    rcases h.held other i hheld with huse | hlost
    · rcases alloc_eq x.2 now with ⟨j, hj, hfound⟩ | hnone
      · obtain rfl := Option.some.inj (Prod.mk.inj (hfound.symm.trans heq)).2
        cases hj.symm.trans huse
      · cases hnone.symm.trans heq
    · exact hok i ((alloc_answer x.2 now).symm.trans (congrArg Prod.snd heq)) other hother hlost

theorem careful_of_accounts (h : Balanced x.2) (hstep : x.2.step call = some (m, out))
    (hafter : Accounts (⟨x.2, call, out, m⟩ :: x.1, m)) : Careful x call := by
  cases call with
  | alloc client now =>
    intro i hi other hother hlost
    have hout : (x.2.alloc now).2 = out := congrArg Prod.snd (Option.some.inj hstep)
    rw [alloc_answer] at hout
    exact hafter.2.1 client now i rfl (hout.symm.trans hi) other hother hlost.holds
  | free client buffer =>
    intro i hi
    exact (balanced_step h hstep).mp hafter.1 client i (congrArg _ hi)
  | process now => trivial

end BufferManager

open BufferManager

/-- **The accounts are kept exactly by careful clients.** The two counters differ by the usage and
no buffer is given to two clients, exactly if every `BufferManager_Free` finds its buffer in use and
no `BufferManager_Alloc` comes to a buffer that another client has lost. -/
theorem accounts_kept_iff {κ : Type} (calls : List (Call κ)) :
    Throughout (logged BufferManager.step) Accounts ([], BufferManager.init) calls ↔
      Along (logged BufferManager.step) Careful ([], BufferManager.init) calls := by
  have hinit : BufferManager.Balanced BufferManager.init := rfl
  refine throughout_logged_iff Inv (fun x h => h.accounts) ?_ ?_ calls
    ⟨⟨hinit, trivial⟩, fun _ _ hheld => absurd hheld id⟩
  · intro x call h hok
    obtain ⟨m, out, hstep⟩ := step_total x.2 call
    exact ⟨m, out, hstep, h.step hok hstep⟩
  · intro x call m out h hstep hafter
    exact careful_of_accounts h.accounts.1 hstep hafter

def freedTwice : List (Call Nat) := [.alloc 1 0, .free 1 (some 0), .free 1 (some 0)]

def takenBack : List (Call Nat) := [.alloc 1 0, .process 5001, .alloc 2 5001]

/-- After the first of these runs one buffer has been handed out and two have come back; in the
second both clients are given buffer 0, and client 1 has not freed it. -/
theorem accounts_not_kept :
    ((run BufferManager.step BufferManager.init freedTwice).map fun r =>
      (r.1.allocCount, r.1.freeCount, r.1.getUsage)) = some (1, 2, 0) ∧
    ((run BufferManager.step BufferManager.init takenBack).map Prod.snd) =
      some [some 0, none, some 0] ∧
    ¬ Throughout (logged BufferManager.step) Accounts ([], BufferManager.init) freedTwice ∧
    ¬ Throughout (logged BufferManager.step) Accounts ([], BufferManager.init) takenBack := by
  refine ⟨by decide +kernel, by decide +kernel, fun h => ?_, fun h => ?_⟩
  · exact absurd (h.last rfl).1 (by unfold BufferManager.Balanced; decide +kernel)
  · refine (h.last rfl).2.1 2 5001 0 rfl rfl 1 (by decide) ?_
    exact .inr ⟨(fun h => by cases h), .inl ⟨⟨0, rfl⟩, rfl⟩⟩

end Cant.Network
