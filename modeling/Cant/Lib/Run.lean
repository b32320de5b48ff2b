/-
# `Run` — runs of a partial machine

A component is a partial step function `σ → ι → Option (σ × ο)`: a state, an
input, and either the next state with an output or no answer at all (an access
out of bounds, a call that does not return). `run` threads a list of inputs
through it and collects the outputs.

`timed` puts a machine on a clock, and `logged` makes it keep the steps it has taken, so that a
property of the past is a property of a state.
-/
import Mathlib.Data.List.Basic

namespace Cant.Run

variable {σ τ ι ο : Type}

def run (step : σ → ι → Option (σ × ο)) : σ → List ι → Option (σ × List ο)
  | s, [] => some (s, [])
  | s, i :: is =>
    match step s i with
    | none => none
    | some (s', o) =>
      match run step s' is with
      | none => none
      | some (t, os) => some (t, o :: os)

variable {step : σ → ι → Option (σ × ο)}

variable {P : σ → Prop} {ok : σ → ι → Prop} {o : ο} {s s' t : σ} {is : List ι} {i : ι} {os : List ο}

theorem eq_of_some {r : σ × ο} (h : some r = some (t, o)) : r.1 = t ∧ r.2 = o := by
  cases h
  exact ⟨rfl, rfl⟩

theorem some_bind {α β : Type} {x : Option α} {a : α} (h : x = some a) (f : α → Option β) :
    (x >>= f) = f a := by
  rw [h]
  rfl

theorem exists_some {r : σ × ο} : (∃ t o, some r = some (t, o) ∧ P t) ↔ P r.1 := by
  constructor
  · rintro ⟨t, o, heq, h⟩
    exact (eq_of_some heq).1 ▸ h
  · intro h
    exact ⟨r.1, r.2, rfl, h⟩

theorem run_cons :
    run step s (i :: is) = some (t, os) ↔
      ∃ s' o os', step s i = some (s', o) ∧ run step s' is = some (t, os') ∧ os = o :: os' := by
  constructor
  · intro h
    simp only [run] at h
    cases hs : step s i with
    | none => rw [hs] at h; cases h
    | some p =>
      rw [hs] at h
      cases hr : run step p.1 is with
      | none => simp only [hr] at h; cases h
      | some q =>
        simp only [hr, Option.some.injEq, Prod.mk.injEq] at h
        obtain ⟨rfl, rfl⟩ := h
        exact ⟨p.1, p.2, q.2, rfl, hr, rfl⟩
  · rintro ⟨s', o, os', hs, hr, rfl⟩
    simp only [run, hs, hr]

theorem run_cons_of (hs : step s i = some (s', o)) :
    run step s (i :: is) = some (t, os) ↔ ∃ os', run step s' is = some (t, os') ∧
      os = o :: os' := by
  constructor
  · intro h
    obtain ⟨s₁, o₁, os', h₁, hr, rfl⟩ := run_cons.mp h
    cases hs.symm.trans h₁
    exact ⟨os', hr, rfl⟩
  · rintro ⟨os', hr, rfl⟩
    exact run_cons.mpr ⟨s', o, os', hs, hr, rfl⟩

theorem run_append : ∀ {is js : List ι} {s t u : σ} {os ps : List ο},
    run step s is = some (t, os) → run step t js = some (u, ps) →
    run step s (is ++ js) = some (u, os ++ ps)
  | [], js, s, t, u, os, ps, h, hj => by
    obtain ⟨rfl, rfl⟩ := h
    exact hj
  | i :: is, js, s, t, u, os, ps, h, hj => by
    obtain ⟨s', o, os', h₁, h₂, rfl⟩ := run_cons.mp h
    exact run_cons.mpr ⟨s', o, os' ++ ps, h₁, run_append h₂ hj, rfl⟩

/-- **The invariant rule.** What every step preserves, a run preserves. -/
theorem run_inv (Inv : σ → Prop) (hstep : ∀ s i s' o, Inv s → step s i = some (s', o) → Inv s') :
    ∀ {is : List ι} {s t : σ} {os : List ο}, Inv s → run step s is = some (t, os) → Inv t
  | [], s, t, os, hs, h => by
    simp only [run, Option.some.injEq, Prod.mk.injEq] at h
    exact h.1 ▸ hs
  | i :: is, s, t, os, hs, h => by
    obtain ⟨s', o, os', h₁, h₂, -⟩ := run_cons.mp h
    exact run_inv Inv hstep (hstep s i s' o hs h₁) h₂

/-- Every step of a run, at the state it is taken from, meets `ok`. -/
def Along (step : σ → ι → Option (σ × ο)) (ok : σ → ι → Prop) : σ → List ι → Prop
  | _, [] => True
  | s, i :: is => ok s i ∧ ∀ s' o, step s i = some (s', o) → Along step ok s' is

theorem along_cons_of (hs : step s i = some (s', o)) :
    Along step ok s (i :: is) ↔ ok s i ∧ Along step ok s' is := by
  constructor
  · rintro ⟨hok, hrest⟩
    exact ⟨hok, hrest s' o hs⟩
  · rintro ⟨hok, hrest⟩
    refine ⟨hok, fun s₁ o₁ h₁ => ?_⟩
    cases hs.symm.trans h₁
    exact hrest

theorem along_of_forall {P : ι → Prop} : ∀ {is : List ι} {s : σ}, (∀ i ∈ is, P i) →
    Along step (fun _ i => P i) s is
  | [], _, _ => trivial
  | _ :: _, _, h => ⟨h _ List.mem_cons_self, fun _ _ _ =>
    along_of_forall fun i hi => h i (.tail _ hi)⟩

theorem along_and {ok' : σ → ι → Prop} : ∀ {is : List ι} {s : σ}, Along step ok s is →
    Along step ok' s is → Along step (fun s i => ok s i ∧ ok' s i) s is
  | [], _, _, _ => trivial
  | _ :: _, _, h, h' => ⟨⟨h.1, h'.1⟩, fun s' o hs => along_and (h.2 s' o hs) (h'.2 s' o hs)⟩

theorem along_mono {ok' : σ → ι → Prop} (himp : ∀ s i, ok s i → ok' s i) :
    ∀ {is : List ι} {s : σ}, Along step ok s is → Along step ok' s is
  | [], _, _ => trivial
  | _ :: _, _, h => ⟨himp _ _ h.1, fun s' o hs => along_mono himp (h.2 s' o hs)⟩

theorem along_isSome_of_run : ∀ {is : List ι} {s t : σ} {os : List ο},
    run step s is = some (t, os) → Along step (fun s i => (step s i).isSome) s is
  | [], _, _, _, _ => trivial
  | _ :: _, _, _, _, h => by
    obtain ⟨s', o, os', hs, hrest, -⟩ := run_cons.mp h
    exact (along_cons_of hs).mpr
      ⟨Option.isSome_iff_exists.mpr ⟨_, hs⟩, along_isSome_of_run hrest⟩

instance Along.decidable (ok : σ → ι → Prop) [∀ s i, Decidable (ok s i)] :
    ∀ s is, Decidable (Along step ok s is)
  | _, [] => isTrue trivial
  | s, i :: is =>
    match hstep : step s i with
    | none => decidable_of_iff (ok s i) ⟨fun h => ⟨h, fun _ _ h' => by
      rw [hstep] at h'
      cases h'⟩, And.left⟩
    | some (s', o) =>
      have := Along.decidable ok s' is
      decidable_of_iff (ok s i ∧ Along step ok s' is) ⟨fun h => ⟨h.1, fun _ _ h' => by
        rw [hstep] at h'
        cases h'
        exact h.2⟩, fun h => ⟨h.1, h.2 s' o hstep⟩⟩

/-- **The invariant rule along a condition.** `Inv` is about the inputs so far
and the state. If every step that meets `ok` is defined and keeps `Inv`, a run
whose steps all meet `ok` is defined and keeps `Inv`. -/
theorem run_along (Inv : List ι → σ → Prop) (hstep : ∀ past s i, Inv past s → ok s i →
      ∃ s' o, step s i = some (s', o) ∧ Inv (past ++ [i]) s') :
    ∀ (is past : List ι) {s : σ}, Inv past s → Along step ok s is →
      ∃ t os, run step s is = some (t, os) ∧ Inv (past ++ is) t
  | [], past, s, hs, _ => ⟨s, [], rfl, by rwa [List.append_nil]⟩
  | i :: is, past, s, hs, hok => by
    obtain ⟨s', o, h₁, hs'⟩ := hstep past s i hs hok.1
    obtain ⟨t, os, h₂, ht⟩ := run_along Inv hstep is _ hs' (hok.2 s' o h₁)
    rw [List.append_assoc] at ht
    exact ⟨t, o :: os, run_cons.mpr ⟨s', o, os, h₁, h₂, rfl⟩, ht⟩

/-- If every step from a state in `Inv` is defined and stays in `Inv`, so is and does every run. -/
theorem run_total (Inv : σ → Prop)
    (hstep : ∀ s i, Inv s → ∃ s' o, step s i = some (s', o) ∧ Inv s') (is : List ι) (hs : Inv s) :
    ∃ t os, run step s is = some (t, os) ∧ Inv t :=
  run_along (fun _ => Inv) (fun _ s i h _ => hstep s i h) is [] hs
    (along_of_forall fun _ _ => trivial)

/-- **The output rule along a condition.** If every step that meets `ok` is defined,
keeps `Inv` and answers what `good` allows, so does a run whose steps all meet `ok`. -/
theorem run_outputs {good : ι → ο → Prop} (Inv : σ → Prop)
    (hstep : ∀ s i, Inv s → ok s i → ∃ s' o, step s i = some (s', o) ∧ good i o ∧ Inv s') :
    ∀ (is : List ι) {s : σ}, Inv s → Along step ok s is →
      ∃ t os, run step s is = some (t, os) ∧ List.Forall₂ good is os
  | [], s, _, _ => ⟨s, [], rfl, .nil⟩
  | i :: is, s, hs, hok => by
    obtain ⟨s', o, h₁, hgood, hs'⟩ := hstep s i hs hok.1
    obtain ⟨t, os, h₂, hall⟩ := run_outputs Inv hstep is hs' (hok.2 s' o h₁)
    exact ⟨t, o :: os, run_cons.mpr ⟨s', o, os, h₁, h₂, rfl⟩, .cons hgood hall⟩

/-! ## Every state on the way -/

/-- Every step is defined, and every state the run reaches, the first one included,
meets `P`. -/
def Throughout (step : σ → ι → Option (σ × ο)) (P : σ → Prop) : σ → List ι → Prop
  | s, [] => P s
  | s, i :: is => P s ∧ ∃ s' o, step s i = some (s', o) ∧ Throughout step P s' is

theorem Throughout.head : ∀ {is : List ι} {s : σ}, Throughout step P s is → P s
  | [], _, h => h
  | _ :: _, _, h => h.1

theorem Throughout.run : ∀ {is : List ι} {s : σ}, Throughout step P s is →
    ∃ t os, run step s is = some (t, os) ∧ P t
  | [], s, h => ⟨s, [], rfl, h⟩
  | _ :: _, _, ⟨_, s', o, hs, hrest⟩ => by
    obtain ⟨t, os, hrun, ht⟩ := hrest.run
    exact ⟨t, o :: os, run_cons.mpr ⟨s', o, os, hs, hrun, rfl⟩, ht⟩

theorem Throughout.last (h : Throughout step P s is) (hrun : Run.run step s is = some (t, os)) :
    P t := by
  obtain ⟨t', os', hrun', ht⟩ := h.run
  cases hrun'.symm.trans hrun
  exact ht

theorem throughout_cons_of (hs : step s i = some (s', o)) :
    Throughout step P s (i :: is) ↔ P s ∧ Throughout step P s' is := by
  refine and_congr_right fun _ => ⟨?_, fun h => ⟨s', o, hs, h⟩⟩
  rintro ⟨s₁, o₁, h₁, hrest⟩
  cases hs.symm.trans h₁
  exact hrest

theorem throughout_of_along (Inv : σ → Prop) (hP : ∀ s, Inv s → P s)
    (hstep : ∀ s i, Inv s → ok s i → ∃ s' o, step s i = some (s', o) ∧ Inv s') :
    ∀ (is : List ι) {s : σ}, Inv s → Along step ok s is → Throughout step P s is
  | [], s, hs, _ => hP s hs
  | i :: is, s, hs, hok => by
    obtain ⟨s', o, h, hs'⟩ := hstep s i hs hok.1
    exact ⟨hP s hs, s', o, h, throughout_of_along Inv hP hstep is hs' (hok.2 s' o h)⟩

theorem throughout_of_inv (Inv : σ → Prop) (hP : ∀ s, Inv s → P s)
    (hstep : ∀ s i, Inv s → ∃ s' o, step s i = some (s', o) ∧ Inv s') (is : List ι) (hs : Inv s) :
    Throughout step P s is :=
  throughout_of_along Inv hP (fun s i h _ => hstep s i h) is hs (along_of_forall fun _ _ => trivial)

/-- Along a condition that keeps an invariant, properties that agree under it agree on the whole
way. -/
theorem throughout_congr {Q : σ → Prop} (Inv : σ → Prop) (hPQ : ∀ s, Inv s → (P s ↔ Q s))
    (hkeep : ∀ s i s' o, Inv s → ok s i → step s i = some (s', o) → Inv s') :
    ∀ (is : List ι) {s : σ}, Inv s → Along step ok s is →
      (Throughout step P s is ↔ Throughout step Q s is)
  | [], s, hs, _ => hPQ s hs
  | i :: is, s, hs, hok => by
    refine and_congr (hPQ s hs) (exists_congr fun s' => exists_congr fun o => ?_)
    refine and_congr_right fun h => ?_
    exact throughout_congr Inv hPQ hkeep is (hkeep s i s' o hs hok.1 h) (hok.2 s' o h)

/-- **The exactness rule.** If, where `Inv` holds, `ok` says of a step just that it is
defined and `P` holds behind it, and such a step keeps `Inv`, then `P` holds all the way
exactly in the runs whose steps meet `ok`. -/
theorem throughout_iff_along {good : ι → Prop} (Inv : σ → Prop) (hP : ∀ s, Inv s → P s)
    (hstep : ∀ s i, good i → Inv s → (ok s i ↔ ∃ s' o, step s i = some (s', o) ∧ P s'))
    (hkeep : ∀ s i s' o, good i → Inv s → ok s i → step s i = some (s', o) → Inv s') :
    ∀ (is : List ι) {s : σ}, (∀ i ∈ is, good i) → Inv s →
      (Throughout step P s is ↔ Along step ok s is)
  | [], s, _, hs => iff_of_true (hP s hs) trivial
  | i :: is, s, hgood, hs => by
    have hnow := hgood i List.mem_cons_self
    have hlater : ∀ j ∈ is, good j := fun j hj => hgood j (.tail _ hj)
    constructor
    · rintro ⟨-, s', o, h, hrest⟩
      have hok := (hstep s i hnow hs).mpr ⟨s', o, h, hrest.head⟩
      refine (along_cons_of h).mpr ⟨hok, ?_⟩
      exact (throughout_iff_along Inv hP hstep hkeep is hlater
        (hkeep s i s' o hnow hs hok h)).mp hrest
    · rintro ⟨hok, hall⟩
      obtain ⟨s', o, h, -⟩ := (hstep s i hnow hs).mp hok
      refine ⟨hP s hs, s', o, h, ?_⟩
      exact (throughout_iff_along Inv hP hstep hkeep is hlater
        (hkeep s i s' o hnow hs hok h)).mpr (hall s' o h)

theorem throughout_iff {good : ι → Prop} (Inv : σ → Prop)
    (hinv : ∀ s i s' o, Inv s → step s i = some (s', o) → Inv s')
    (hstep : ∀ s i, good i → Inv s → P s → (ok s i ↔ ∃ s' o, step s i = some (s', o) ∧ P s'))
    (is : List ι) (hgood : ∀ i ∈ is, good i) (hs : Inv s) (hP : P s) :
    Throughout step P s is ↔ Along step ok s is := by
  refine throughout_iff_along (fun s => Inv s ∧ P s) (fun _ h => h.2) ?_ ?_ is hgood ⟨hs, hP⟩
  · intro s i hnow h
    exact hstep s i hnow h.1 h.2
  · intro s i s' o hnow h hok hs'
    obtain ⟨t, o', ht, hPt⟩ := (hstep s i hnow h.1 h.2).mp hok
    cases ht.symm.trans hs'
    exact ⟨hinv s i _ o h.1 hs', hPt⟩

theorem throughout_iff_of_total (htotal : ∀ s i, ∃ s' o, step s i = some (s', o))
    (hnext : ∀ s i s' o, P s → step s i = some (s', o) → (ok s i ↔ P s')) (is : List ι) (hP : P s) :
    Throughout step P s is ↔ Along step ok s is := by
  refine throughout_iff (fun _ => True) (fun _ _ _ _ _ _ => trivial) ?_ is (fun _ _ => trivial)
    trivial hP
  intro s i _ _ h
  obtain ⟨s', o, hs'⟩ := htotal s i
  rw [hnext s i s' o h hs']
  refine ⟨fun hP' => ⟨s', o, hs', hP'⟩, ?_⟩
  rintro ⟨t, o', ht, hPt⟩
  cases ht.symm.trans hs'
  exact hPt

/-! ## Clocks and logs -/

def timed (step : Nat → σ → ι → Option (σ × ο)) (s : Nat × σ) (i : Nat × ι) :
    Option ((Nat × σ) × ο) :=
  (step (s.1 + i.1) s.2 i.2).map fun r => ((s.1 + i.1, r.1), r.2)

structure Taken (σ ι ο : Type) where
  pre : σ
  input : ι
  output : ο
  post : σ

def logged (step : σ → ι → Option (σ × ο)) (s : List (Taken σ ι ο) × σ) (i : ι) :
    Option ((List (Taken σ ι ο) × σ) × ο) :=
  (step s.2 i).map fun r => ((⟨s.2, i, r.2, r.1⟩ :: s.1, r.1), r.2)

section

variable {step : Nat → σ → ι → Option (σ × ο)} {i : Nat × ι}
  {x : List (Taken (Nat × σ) (Nat × ι) ο) × (Nat × σ)}

theorem timed_eq {s : Nat × σ}
    (h : step (s.1 + i.1) s.2 i.2 = some (s', o)) : timed step s i = some ((s.1 + i.1, s'), o) := by
  rw [timed, h, Option.map_some]

theorem timed_iff {s x : Nat × σ} :
    timed step s i = some (x, o) ↔
      ∃ s', step (s.1 + i.1) s.2 i.2 = some (s', o) ∧ x = (s.1 + i.1, s') := by
  constructor
  · intro h
    obtain ⟨⟨s', o'⟩, hs, heq⟩ := Option.map_eq_some_iff.mp h
    cases heq
    exact ⟨s', hs, rfl⟩
  · rintro ⟨s', hs, rfl⟩
    exact timed_eq hs

theorem logged_timed (h : step (x.2.1 + i.1) x.2.2 i.2 = some (s', o)) :
    logged (timed step) x i =
      some ((⟨x.2, i, o, (x.2.1 + i.1, s')⟩ :: x.1, (x.2.1 + i.1, s')), o) := by
  rw [logged, timed_eq h, Option.map_some]

theorem throughout_logged
    {ok : List (Taken (Nat × σ) (Nat × ι) ο) × (Nat × σ) → Nat × ι → Prop}
    {P : List (Taken (Nat × σ) (Nat × ι) ο) × (Nat × σ) → Prop}
    (Inv : List (Taken (Nat × σ) (Nat × ι) ο) × (Nat × σ) → Prop) (hP : ∀ x, Inv x → P x)
    (htotal : ∀ t s i, ∃ s' o, step t s i = some (s', o))
    (hstep : ∀ x i s' o, Inv x → ok x i → step (x.2.1 + i.1) x.2.2 i.2 = some (s', o) →
      Inv (⟨x.2, i, o, (x.2.1 + i.1, s')⟩ :: x.1, (x.2.1 + i.1, s')))
    (is : List (Nat × ι)) (hx : Inv x)
    (hok : Along (logged (timed step)) ok x is) : Throughout (logged (timed step)) P x is := by
  refine throughout_of_along Inv hP ?_ is hx hok
  intro x i h hnow
  obtain ⟨s', o, hcall⟩ := htotal (x.2.1 + i.1) x.2.2 i.2
  exact ⟨_, o, logged_timed hcall, hstep x i s' o h hnow hcall⟩

end

/-! ## Every step on the way -/

/-- Every step is defined, and meets `q`. -/
def Every (step : σ → ι → Option (σ × ο)) (q : Taken σ ι ο → Prop) : σ → List ι → Prop
  | _, [] => True
  | s, i :: is => ∃ s' o, step s i = some (s', o) ∧ q ⟨s, i, o, s'⟩ ∧ Every step q s' is

section

variable {q : Taken σ ι ο → Prop} (Inv : σ → Prop)

theorem every_of_along
    (hstep : ∀ s i, Inv s → ok s i → ∃ s' o, step s i = some (s', o) ∧ Inv s' ∧ q ⟨s, i, o, s'⟩) :
    ∀ (is : List ι) {s : σ}, Inv s → Along step ok s is → Every step q s is
  | [], _, _, _ => trivial
  | i :: is, s, hs, hok => by
    obtain ⟨s', o, h, hs', hq⟩ := hstep s i hs hok.1
    exact ⟨s', o, h, hq, every_of_along hstep is hs' (hok.2 s' o h)⟩

theorem every_of_inv
    (hstep : ∀ s i, Inv s → ∃ s' o, step s i = some (s', o) ∧ Inv s' ∧ q ⟨s, i, o, s'⟩)
    (is : List ι) (hs : Inv s) : Every step q s is :=
  every_of_along Inv (fun s i h _ => hstep s i h) is hs (along_of_forall fun _ _ => trivial)

/-- **The exactness rule for steps.** If every step is defined, meets `q` just when it meets `ok`,
and then keeps `Inv`, all steps of a run meet `q` exactly if they meet `ok`. -/
theorem every_iff_along
    (hstep : ∀ s i, Inv s → ∃ s' o, step s i = some (s', o) ∧ (ok s i → Inv s') ∧
      (ok s i ↔ q ⟨s, i, o, s'⟩)) :
    ∀ (is : List ι) {s : σ}, Inv s → (Every step q s is ↔ Along step ok s is)
  | [], _, _ => Iff.rfl
  | i :: is, s, hs => by
    obtain ⟨s', o, h, hkeep, hiff⟩ := hstep s i hs
    rw [along_cons_of h, hiff]
    constructor
    · rintro ⟨s₁, o₁, h₁, hq, hrest⟩
      cases h₁.symm.trans h
      exact ⟨hq, (every_iff_along hstep is (hkeep (hiff.mpr hq))).mp hrest⟩
    · rintro ⟨hq, hrest⟩
      exact ⟨s', o, h, hq, (every_iff_along hstep is (hkeep (hiff.mpr hq))).mpr hrest⟩

end

/-! ## Specifications -/

/-- The inputs and outputs are a behaviour `spec` allows, from `a` to `b`. -/
inductive Trace (spec : τ → ι → ο → τ → Prop) : τ → List ι → List ο → τ → Prop
  | nil {a : τ} : Trace spec a [] [] a
  | cons {a a' b : τ} {i : ι} {is : List ι} {o : ο} {os : List ο} :
      spec a i o a' → Trace spec a' is os b → Trace spec a (i :: is) (o :: os) b

/-- **The refinement rule.** If every step that meets `ok` is defined and allowed
by `spec` on the abstract states, a run whose steps all meet `ok` is defined and a
behaviour of `spec`. -/
theorem run_traces {spec : τ → ι → ο → τ → Prop} (R : σ → τ → Prop)
    (hstep : ∀ s a i, R s a → ok s i →
      ∃ s' o a', step s i = some (s', o) ∧ spec a i o a' ∧ R s' a') :
    ∀ (is : List ι) {s : σ} {a : τ}, R s a → Along step ok s is →
      ∃ t os b, run step s is = some (t, os) ∧ Trace spec a is os b ∧ R t b
  | [], s, a, hR, _ => ⟨s, [], a, rfl, .nil, hR⟩
  | i :: is, s, a, hR, hok => by
    obtain ⟨s', o, a', h₁, hspec, hR'⟩ := hstep s a i hR hok.1
    obtain ⟨t, os, b, h₂, htrace, hRt⟩ := run_traces R hstep is hR' (hok.2 s' o h₁)
    exact ⟨t, o :: os, b, run_cons.mpr ⟨s', o, os, h₁, h₂, rfl⟩, .cons hspec htrace, hRt⟩

/-- **The simulation rule.** Every step from a related state is defined, and is
matched by an abstract step with the same output into related states; then every
run is defined and matched. -/
theorem run_refines {astep : τ → ι → Option (τ × ο)} {R : σ → τ → Prop} (P : ι → Prop)
    (hstep : ∀ s a i, R s a → P i →
      ∃ s' a' o, step s i = some (s', o) ∧ astep a i = some (a', o) ∧ R s' a') :
    ∀ (is : List ι) {s : σ} {a : τ}, R s a → (∀ i ∈ is, P i) →
      ∃ s' a' os, run step s is = some (s', os) ∧ run astep a is = some (a', os) ∧ R s' a'
  | [], s, a, h, _ => ⟨s, a, [], rfl, rfl, h⟩
  | i :: is, s, a, h, hP => by
    obtain ⟨s₁, a₁, o, hs, ha, hR⟩ := hstep s a i h (hP i List.mem_cons_self)
    obtain ⟨s₂, a₂, os, hs', ha', hR'⟩ :=
      run_refines P hstep is hR fun j hj => hP j (.tail _ hj)
    exact ⟨s₂, a₂, o :: os, run_cons.mpr ⟨s₁, o, os, hs, hs', rfl⟩,
      run_cons.mpr ⟨a₁, o, os, ha, ha', rfl⟩, hR'⟩

end Cant.Run
