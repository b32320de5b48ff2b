/-
# `Past` — what a log says about the past

A log lists what has happened, the newest entry first, so an entry stands in front
of its own past. Two operators speak about it: `Since p q`, that an entry meeting `q`
has happened and only entries meeting `p` after it, and `Historically q`, that every
entry met `q` when it happened. Both give `q` the past of the entry, so they nest.
-/
import Cant.Lib.Run

namespace Cant.Past

variable {ε : Type} {p p' : ε → Prop} {q q' : ε → List ε → Prop} {log : List ε}

/-- An entry meets `q` at its past, and every later one meets `p`. -/
def Since (p : ε → Prop) (q : ε → List ε → Prop) : List ε → Prop
  | [] => False
  | e :: past => q e past ∨ p e ∧ Since p q past

/-- Every entry meets `q` at its past. -/
def Historically (q : ε → List ε → Prop) : List ε → Prop
  | [] => True
  | e :: past => q e past ∧ Historically q past

theorem Since.mono (hp : ∀ e, p e → p' e) (hq : ∀ e past, q e past → q' e past) :
    ∀ {log : List ε}, Since p q log → Since p' q' log
  | _ :: _, .inl h => .inl (hq _ _ h)
  | _ :: _, .inr ⟨h, hrest⟩ => .inr ⟨hp _ h, hrest.mono hp hq⟩

theorem Since.carry {I : List ε → Prop} (hq : ∀ e past, q e past → I (e :: past))
    (hp : ∀ e past, p e → I past → I (e :: past)) : ∀ {log : List ε}, Since p q log → I log
  | _ :: _, .inl h => hq _ _ h
  | _ :: _, .inr ⟨h, hrest⟩ => hp _ _ h (hrest.carry hq hp)

theorem Since.exists_entry (h : Since p q log) : ∃ e past, q e past :=
  h.carry (I := fun _ => ∃ e past, q e past) (fun e past hq => ⟨e, past, hq⟩) fun _ _ _ hI => hI

/-! ## The log of a run -/

section

open Run

variable {σ ι ο : Type} {step : σ → ι → Option (σ × ο)}

variable {x : List (Taken σ ι ο) × σ} {i : ι} {ok : List (Taken σ ι ο) × σ → ι → Prop}

theorem logged_eq {s' : σ} {o : ο} (h : step x.2 i = some (s', o)) :
    logged step x i = some ((⟨x.2, i, o, s'⟩ :: x.1, s'), o) := by
  simp [logged, h]

theorem logged_iff {x' : List (Taken σ ι ο) × σ} {o : ο} :
    logged step x i = some (x', o) ↔
      ∃ s', step x.2 i = some (s', o) ∧ x' = (⟨x.2, i, o, s'⟩ :: x.1, s') := by
  constructor
  · intro h
    obtain ⟨⟨s', o'⟩, hs, heq⟩ := Option.map_eq_some_iff.mp h
    cases heq
    exact ⟨s', hs, rfl⟩
  · rintro ⟨s', hs, rfl⟩
    exact logged_eq hs

theorem isSome_logged : (logged step x i).isSome ↔ (step x.2 i).isSome := by
  rw [logged, Option.isSome_map]

theorem along_logged {ok : σ → ι → Prop} : ∀ {is : List ι} {x : List (Taken σ ι ο) × σ},
    Along step ok x.2 is → Along (logged step) (fun x i => ok x.2 i) x is
  | [], _, _ => trivial
  | _ :: _, _, h => by
    refine ⟨h.1, fun x' o hx' => ?_⟩
    obtain ⟨s', hs, rfl⟩ := logged_iff.mp hx'
    exact along_logged (h.2 s' o hs)

section

variable (Inv : List (Taken σ ι ο) × σ → Prop)

/-- **The exactness rule for logs.** If, where `Inv` holds, a step that meets `ok` is defined
and keeps `Inv`, and a step behind which `P` holds meets `ok`, then `P` holds all the way
exactly in the runs whose steps meet `ok`. -/
theorem throughout_logged_iff {P : List (Taken σ ι ο) × σ → Prop} (hP : ∀ x, Inv x → P x)
    (hkeep : ∀ x i, Inv x → ok x i →
      ∃ s' o, step x.2 i = some (s', o) ∧ Inv (⟨x.2, i, o, s'⟩ :: x.1, s'))
    (hback : ∀ x i s' o, Inv x → step x.2 i = some (s', o) → P (⟨x.2, i, o, s'⟩ :: x.1, s') →
      ok x i) (is : List ι) (hx : Inv x) :
    Throughout (logged step) P x is ↔ Along (logged step) ok x is := by
  refine throughout_iff_along Inv hP ?_ ?_ is (fun _ _ => trivial) hx
  · intro x i _ h
    constructor
    · intro hok
      obtain ⟨s', o, hs, hnext⟩ := hkeep x i h hok
      exact ⟨_, o, logged_eq hs, hP _ hnext⟩
    · rintro ⟨x', o, hx', hholds⟩
      obtain ⟨s', hs, rfl⟩ := logged_iff.mp hx'
      exact hback x i s' o h hs hholds
  · intro x i x' o _ h hok hx'
    obtain ⟨s', hs, rfl⟩ := logged_iff.mp hx'
    obtain ⟨s₁, o₁, hs₁, hnext⟩ := hkeep x i h hok
    cases hs₁.symm.trans hs
    exact hnext

theorem historically_iff {q : Taken σ ι ο → List (Taken σ ι ο) → Prop}
    (hstep : ∀ x i, Inv x → (ok x i ↔ ∃ s' o, step x.2 i = some (s', o) ∧ q ⟨x.2, i, o, s'⟩ x.1))
    (hkeep : ∀ x i s' o, Inv x → ok x i → step x.2 i = some (s', o) →
      Inv (⟨x.2, i, o, s'⟩ :: x.1, s')) (is : List ι) (hx : Inv x) (hq : Historically q x.1) :
    Throughout (logged step) (fun x => Historically q x.1) x is ↔
      Along (logged step) ok x is := by
  refine throughout_logged_iff (fun x => Inv x ∧ Historically q x.1) (fun _ h => h.2) ?_ ?_ is
    ⟨hx, hq⟩
  · intro x i h hok
    obtain ⟨s', o, hs, hentry⟩ := (hstep x i h.1).mp hok
    exact ⟨s', o, hs, hkeep x i s' o h.1 hok hs, hentry, h.2⟩
  · intro x i s' o h hs hall
    exact (hstep x i h.1).mpr ⟨s', o, hs, hall.1⟩

theorem historically_iff_of_total {q : Taken σ ι ο → List (Taken σ ι ο) → Prop}
    (hstep : ∀ x i, Inv x → ∃ s' o, step x.2 i = some (s', o) ∧
      (ok x i → Inv (⟨x.2, i, o, s'⟩ :: x.1, s')) ∧ (ok x i ↔ q ⟨x.2, i, o, s'⟩ x.1)) (is : List ι)
    (hx : Inv x) (hq : Historically q x.1) :
    Throughout (logged step) (fun x => Historically q x.1) x is ↔
      Along (logged step) ok x is := by
  refine historically_iff Inv ?_ ?_ is hx hq
  · intro x i h
    obtain ⟨s', o, hs, -, hiff⟩ := hstep x i h
    constructor
    · intro hok
      exact ⟨s', o, hs, hiff.mp hok⟩
    · rintro ⟨s₁, o₁, hs₁, hentry⟩
      cases hs.symm.trans hs₁
      exact hiff.mpr hentry
  · intro x i s₁ o₁ h hok hs₁
    obtain ⟨s', o, hs, hkeep, -⟩ := hstep x i h
    cases hs.symm.trans hs₁
    exact hkeep hok

end

end

end Cant.Past
