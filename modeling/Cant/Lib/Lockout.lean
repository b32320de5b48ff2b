/-
# `Lockout` — a delay after wrong answers in a row

Someone answers challenges, and `limit` wrong answers in a row are to be followed by
`delay` units of time in which something guarded does not happen. A log entry says
by its `Mark` whether it was a wrong answer or ends a row of them. `row` counts the
wrong ones in a row; the one that makes the row `limit` long completes it, and the next
starts a new row.
-/
import Cant.Lib.Past

namespace Cant.Lockout

open Past

variable {ε : Type}

inductive Mark where
  | ends | wrong | neither
  deriving DecidableEq

/-- The mark of an answer that was right or wrong, if there was one. -/
def Mark.ofAnswer : Option Bool → Mark
  | some true => .ends
  | some false => .wrong
  | none => .neither

section

variable (limit : Nat) (mark : ε → Mark) (time : ε → Nat)

def row : List ε → Nat
  | [] => 0
  | e :: past =>
    match mark e with
    | .ends => 0
    | .wrong => if limit ≤ row past + 1 then 0 else row past + 1
    | .neither => row past

def Completes (e : ε) (past : List ε) : Prop :=
  mark e = .wrong ∧ limit ≤ row limit mark past + 1
  deriving Decidable

def completed : List ε → List Nat
  | [] => []
  | e :: past =>
    if Completes limit mark e past then time e :: completed past else completed past

/-- **The lockout.** Nothing guarded within `delay` of a completed row. -/
def Kept (delay : Nat) (guarded : ε → Prop) : List ε → Prop :=
  Historically fun e past =>
    guarded e → ∀ t ∈ completed limit mark time past, t + delay ≤ time e

end

/-- The automaton: so many wrong answers, or shut or held since some time. -/
inductive Lock where
  | counting (count : Nat) | shut (since : Nat) | held (since : Nat)

section

variable {limit delay now now' n t : Nat} {mark : ε → Mark} {time : ε → Nat}
  {log : List ε} {e : ε} {l : Lock}

theorem completed_cons (he : mark e ≠ .wrong) :
    completed limit mark time (e :: log) = completed limit mark time log := by
  have hnot : ¬ Completes limit mark e log := fun hc => he hc.1
  rw [completed, if_neg hnot]

variable (limit delay mark time) in
/-- What the automaton knows at time `now`. -/
def Lock.Tracks (log : List ε) (now : Nat) : Lock → Prop
  | .counting n => row limit mark log = n ∧ ∀ t ∈ completed limit mark time log, t + delay ≤ now
  | .shut t => row limit mark log = 0 ∧ ∀ t' ∈ completed limit mark time log, t' ≤ t
  | .held t => ∀ t' ∈ completed limit mark time log, t' ≤ t

namespace Lock.Tracks

theorem wait (h : l.Tracks limit delay mark time log now) (hle : now ≤ now') :
    l.Tracks limit delay mark time log now' := by
  cases l with
  | counting n => exact ⟨h.1, fun t ht => Nat.le_trans (h.2 t ht) hle⟩
  | shut t | held t => exact h

theorem reopen (h : (Lock.shut t).Tracks limit delay mark time log now) (hover : t + delay ≤ now) :
    (Lock.counting 0).Tracks limit delay mark time log now := by
  refine ⟨h.1, fun t' ht' => ?_⟩
  have := h.2 t' ht'
  omega

theorem neither (h : l.Tracks limit delay mark time log now) (he : mark e = .neither) :
    l.Tracks limit delay mark time (e :: log) now := by
  have hsame : completed limit mark time (e :: log) = completed limit mark time log :=
    completed_cons (by rw [he]; decide)
  cases l with
  | counting n | shut t =>
    unfold Tracks at h ⊢
    rwa [row, he, hsame]
  | held t =>
    unfold Tracks at h ⊢
    rwa [hsame]

theorem of_ends (hover : ∀ t ∈ completed limit mark time log, t + delay ≤ now)
    (he : mark e = .ends) : (Lock.counting 0).Tracks limit delay mark time (e :: log) now := by
  have hsame : completed limit mark time (e :: log) = completed limit mark time log :=
    completed_cons (by rw [he]; decide)
  unfold Tracks
  rw [row, he, hsame]
  exact ⟨rfl, hover⟩

section

variable (h : (Lock.counting n).Tracks limit delay mark time log now)
include h

theorem wrong
    (he : mark e = .wrong) (hlt : n + 1 < limit) :
    (Lock.counting (n + 1)).Tracks limit delay mark time (e :: log) now := by
  have hrow : ¬ limit ≤ row limit mark log + 1 := by
    rw [h.1]
    omega
  have hnot : ¬ Completes limit mark e log := fun hc => hrow hc.2
  unfold Tracks
  rw [row, he, completed, if_neg hnot]
  exact ⟨(if_neg hrow).trans (congrArg (· + 1) h.1), h.2⟩

theorem shuts
    (he : mark e = .wrong) (hle : limit ≤ n + 1) (ht : time e = now) :
    (Lock.shut now).Tracks limit delay mark time (e :: log) now := by
  have hrow : limit ≤ row limit mark log + 1 := by rwa [h.1]
  have hdone : Completes limit mark e log := ⟨he, hrow⟩
  unfold Tracks
  rw [row, he, completed, if_pos hdone]
  refine ⟨if_pos hrow, ?_⟩
  intro t' ht'
  rcases List.mem_cons.mp ht' with rfl | ht'
  · exact Nat.le_of_eq ht
  · have := h.2 t' ht'
    omega

end

theorem hold (h : (Lock.shut t).Tracks limit delay mark time log now) :
    (Lock.held t).Tracks limit delay mark time log now := h.2

theorem prolong (h : (Lock.held t).Tracks limit delay mark time log now) (hle : t ≤ now)
    (ht : time e = now) : (Lock.held now).Tracks limit delay mark time (e :: log) now := by
  have hold : ∀ t' ∈ completed limit mark time log, t' ≤ now :=
    fun t' ht' => Nat.le_trans (h t' ht') hle
  intro t' ht'
  rw [completed] at ht'
  split at ht'
  · rcases List.mem_cons.mp ht' with rfl | ht'
    · exact Nat.le_of_eq ht
    · exact hold t' ht'
  · exact hold t' ht'

end Lock.Tracks

end

end Cant.Lockout
