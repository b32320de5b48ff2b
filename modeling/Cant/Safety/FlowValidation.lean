/-
# `FlowValidation` — is there a way from one checkpoint to another (`flow_monitor.c`)

The loop marks each checkpoint it comes to in a table of 256 entries and stops at one that is
marked, so it always ends. It goes on along `expected_next` only: `alternate_next` is looked at to
tell whether there is any way on, and never taken.

`validateFlow_exact_iff` says for which tables and pairs it stays inside both tables and
finds the way there is.
-/
import Mathlib.Data.Fintype.Card
import Cant.Safety.FlowMonitor

namespace Cant.Safety.FlowMonitor

open Relation

/-- The loop of `Flow_Monitor_ValidateFlow`; `visited` are the entries that are not zero. -/
def validateFrom (m : FlowMonitor) (target : UInt32) (visited : Finset (Fin 256))
    (current : UInt32) : Option Bool :=
  if current = target then some true
  else if hmark : current.toNat < 256 then
    if _hseen : ⟨current.toNat, hmark⟩ ∈ visited then some false
    else
      match m.config.checkpoints[current.toNat]? with
      | none => none
      | some c =>
        if !m.validateCheckpointId c.expectedNext && !m.validateCheckpointId c.alternateNext then
          some false
        else m.validateFrom target (insert ⟨current.toNat, hmark⟩ visited) c.expectedNext
  else none
termination_by visitedᶜ.card
decreasing_by
  rw [Finset.compl_insert]
  exact Finset.card_erase_lt_of_mem (Finset.mem_compl.mpr _hseen)

def validateFlow (m : FlowMonitor) (startCheckpoint endCheckpoint : UInt32) : Option Bool :=
  if !m.initialized || !m.validateCheckpointId startCheckpoint ||
      !m.validateCheckpointId endCheckpoint then
    some false
  else m.validateFrom endCheckpoint ∅ startCheckpoint

/-! ## The way the loop takes -/

/-- The loop goes on from `a` to `b`, on its way to `target`. -/
def Onward (config : FlowMonitorConfig) (target a b : UInt32) : Prop :=
  a ≠ target ∧ b.toNat < config.checkpoints.length ∧
    ∃ c ∈ config.checkpoints[a.toNat]?, b = c.expectedNext

/-- The loop can look at `v` and go on from there without leaving the tables. -/
def Passable (config : FlowMonitorConfig) (v : UInt32) : Prop :=
  v.toNat < 256 ∧ ∀ c ∈ config.checkpoints[v.toNat]?,
    c.alternateNext.toNat < config.checkpoints.length →
      c.expectedNext.toNat < config.checkpoints.length

variable {config : FlowMonitorConfig} {m : FlowMonitor} {target current v w : UInt32}
  {visited : Finset (Fin 256)}

theorem Onward.follows (h : Onward config target v w) : Follows config v w := by
  obtain ⟨-, -, c, hc, rfl⟩ := h
  exact ⟨c, hc, .inl rfl⟩

theorem Onward.unique {w' : UInt32} (h : Onward config target v w)
    (h' : Onward config target v w') : w = w' := by
  obtain ⟨-, -, c, hc, rfl⟩ := h
  obtain ⟨-, -, c', hc', rfl⟩ := h'
  rw [Option.mem_unique hc hc']

/-- What the marks say when the loop is at `current`: a marked checkpoint was passable, and the
way on from it leads to a marked one or is where the loop is now. -/
structure Marked (config : FlowMonitorConfig) (target : UInt32) (visited : Finset (Fin 256))
    (current : UInt32) : Prop where
  inTable : ∀ k ∈ visited, k.val < config.checkpoints.length
  passed : ∀ v : UInt32, ∀ h : v.toNat < 256, ⟨v.toNat, h⟩ ∈ visited → v ≠ target ∧
    Passable config v
  onward : ∀ v w : UInt32, ∀ h : v.toNat < 256, ⟨v.toNat, h⟩ ∈ visited → Onward config target v w →
    (∃ h : w.toNat < 256, ⟨w.toNat, h⟩ ∈ visited) ∨ w = current

theorem Marked.closed (h : Marked config target visited current) (hcurrent : current.toNat < 256)
    (hseen : ⟨current.toNat, hcurrent⟩ ∈ visited)
    (hv : ReflTransGen (Onward config target) current v) :
    ∃ h : v.toNat < 256, ⟨v.toNat, h⟩ ∈ visited := by
  induction hv with
  | refl => exact ⟨hcurrent, hseen⟩
  | tail _ hstep ih =>
    obtain ⟨hlt, hmem⟩ := ih
    rcases h.onward _ _ hlt hmem hstep with hmarked | rfl
    · exact hmarked
    · exact ⟨hcurrent, hseen⟩

theorem Marked.step (h : Marked config target visited current) (hcurrent : current.toNat < 256)
    {c : FlowCheckpointConfig} (hc : config.checkpoints[current.toNat]? = some c)
    (hne : current ≠ target) (hpassable : Passable config current) :
    Marked config target (insert ⟨current.toNat, hcurrent⟩ visited) c.expectedNext := by
  refine ⟨?_, ?_, ?_⟩
  · intro k hk
    rcases Finset.mem_insert.mp hk with rfl | hk
    · exact (List.getElem?_eq_some_iff.mp hc).1
    · exact h.inTable k hk
  · intro v hlt hv
    rcases Finset.mem_insert.mp hv with heq | hv
    · obtain rfl : v = current := UInt32.toNat_inj.mp (Fin.mk.inj heq)
      exact ⟨hne, hpassable⟩
    · exact h.passed v hlt hv
  · intro v w hlt hv hstep
    rcases Finset.mem_insert.mp hv with heq | hv
    · obtain rfl : v = current := UInt32.toNat_inj.mp (Fin.mk.inj heq)
      obtain ⟨-, -, c', hc', rfl⟩ := hstep
      rw [Option.mem_unique hc' hc]
      exact .inr rfl
    · rcases h.onward v w hlt hv hstep with ⟨hw, hmem⟩ | rfl
      · exact .inl ⟨hw, Finset.mem_insert_of_mem hmem⟩
      · exact .inl ⟨hcurrent, Finset.mem_insert_self _ _⟩

theorem validateFrom_dangling (hvisited : ∀ k ∈ visited, k.val < m.config.checkpoints.length)
    (htarget : target.toNat < m.config.checkpoints.length)
    (hcurrent : m.config.checkpoints.length ≤ current.toNat) :
    m.validateFrom target visited current = none := by
  have hne : current ≠ target := by
    rintro rfl
    exact Nat.not_le.mpr htarget hcurrent
  rw [validateFrom, if_neg hne]
  split
  case isTrue hlt =>
    rw [dif_neg fun hmem => Nat.not_le.mpr (hvisited _ hmem) hcurrent,
      List.getElem?_eq_none hcurrent]
  case isFalse => rfl

/-- What an answer at `current` says: without one, the way on comes to a checkpoint that is not
passable; an answer is whether it leads to the target. -/
def Tells (config : FlowMonitorConfig) (target current : UInt32) : Option Bool → Prop
  | none => ∃ v, ReflTransGen (Onward config target) current v ∧ v ≠ target ∧ ¬ Passable config v
  | some found =>
    (∀ v, ReflTransGen (Onward config target) current v → v ≠ target → Passable config v) ∧
      (found = true ↔ ReflTransGen (Onward config target) current target)

theorem Tells.back {answer : Option Bool} (h : Tells config target w answer)
    (hstep : Onward config target v w) (hpassable : Passable config v) :
    Tells config target v answer := by
  cases answer with
  | none =>
    obtain ⟨u, hu, hne, hnot⟩ := h
    exact ⟨u, .head hstep hu, hne, hnot⟩
  | some found =>
    obtain ⟨hall, hfound⟩ := h
    refine ⟨fun u hu hne => ?_, hfound.trans ⟨.head hstep, fun hback => ?_⟩⟩
    · rcases ReflTransGen.cases_head hu with rfl | ⟨w', hw', hrest⟩
      · exact hpassable
      · exact hall u (hstep.unique hw' ▸ hrest) hne
    · rcases ReflTransGen.cases_head hback with rfl | ⟨w', hw', hrest⟩
      · exact absurd rfl hstep.1
      · exact hstep.unique hw' ▸ hrest

theorem tells_of_stop (hne : current ≠ target) (hpassable : Passable config current)
    (hstop : ∀ w, ¬ Onward config target current w) : Tells config target current (some false) := by
  refine ⟨fun v hv _ => ?_, iff_of_false Bool.false_ne_true fun hback => ?_⟩
  · rcases ReflTransGen.cases_head hv with rfl | ⟨w, hw, -⟩
    · exact hpassable
    · exact absurd hw (hstop w)
  · rcases ReflTransGen.cases_head hback with rfl | ⟨w, hw, -⟩
    · exact hne rfl
    · exact hstop w hw

/-- **The loop.** It leaves the tables just when it comes to a checkpoint that is not
passable, and else says whether the way it takes leads to the target. -/
theorem validateFrom_tells (htarget : target.toNat < m.config.checkpoints.length)
    (hmarked : Marked m.config target visited current)
    (hcurrent : current.toNat < m.config.checkpoints.length) :
    Tells m.config target current (m.validateFrom target visited current) := by
  fun_induction validateFrom m target visited current with
  | case1 visited =>
    refine ⟨fun v hv hne => ?_, iff_of_true rfl .refl⟩
    rcases ReflTransGen.cases_head hv with rfl | ⟨w, hw, -⟩
    · exact absurd rfl hne
    · exact absurd rfl hw.1
  | case2 visited current hne hlt hseen =>
    refine ⟨fun v hv _ => ?_, iff_of_false Bool.false_ne_true fun hback => ?_⟩
    · obtain ⟨hv, hmem⟩ := hmarked.closed hlt hseen hv
      exact (hmarked.passed v hv hmem).2
    · obtain ⟨hv, hmem⟩ := hmarked.closed hlt hseen hback
      exact (hmarked.passed target hv hmem).1 rfl
  | case3 visited current hne hlt hseen hnone =>
    exact absurd hcurrent (Nat.not_lt.mpr (List.getElem?_eq_none_iff.mp hnone))
  | case4 visited current hne hlt hseen c hc hstop =>
    simp only [validateCheckpointId, Bool.and_eq_true, Bool.not_eq_true',
      decide_eq_false_iff_not] at hstop
    refine tells_of_stop hne ⟨hlt, fun c' hc' halternate => ?_⟩ ?_
    · rw [Option.mem_unique hc' hc] at halternate
      exact absurd halternate hstop.2
    · rintro w ⟨-, hw, c', hc', rfl⟩
      rw [Option.mem_unique hc' hc] at hw
      exact hstop.1 hw
  | case5 visited current hne hlt hseen c hc hgo ih =>
    simp only [validateCheckpointId, Bool.and_eq_true, Bool.not_eq_true',
      decide_eq_false_iff_not, not_and_or, not_not] at hgo
    by_cases hexpected : c.expectedNext.toNat < m.config.checkpoints.length
    · have hpassable : Passable m.config current := by
        refine ⟨hlt, fun c' hc' _ => ?_⟩
        rwa [Option.mem_unique hc' hc]
      exact (ih (hmarked.step hlt hc hne hpassable) hexpected).back ⟨hne, hexpected, c, hc, rfl⟩
        hpassable
    · -- the other link is good, so the loop goes on along the one that is not
      have hin : ∀ k ∈ insert ⟨current.toNat, hlt⟩ visited,
          k.val < m.config.checkpoints.length := by
        intro k hk
        rcases Finset.mem_insert.mp hk with rfl | hk
        · exact hcurrent
        · exact hmarked.inTable k hk
      rw [validateFrom_dangling hin htarget (Nat.not_lt.mp hexpected)]
      exact ⟨current, .refl, hne, fun hpassable =>
        hexpected (hpassable.2 c hc (hgo.resolve_left hexpected))⟩
  | case6 visited current hne hlt =>
    exact ⟨current, .refl, hne, fun hpassable => hlt hpassable.1⟩

/-- **What the validation finds.** It stays inside its tables and answers whether the end can be
reached from the start along the links, exactly if along the expected links every checkpoint
before the end has a mark and no dangling link beside a good one, and these links lead to
the end if any do. -/
theorem validateFlow_exact_iff {m₀ : FlowMonitor} (hinit : m₀.init (some config) = (m, true))
    {startCheckpoint endCheckpoint : UInt32}
    (hstart : startCheckpoint.toNat < config.checkpoints.length)
    (hend : endCheckpoint.toNat < config.checkpoints.length) :
    (∃ found, m.validateFlow startCheckpoint endCheckpoint = some found ∧
      (found = true ↔ ReflTransGen (Follows config) startCheckpoint endCheckpoint)) ↔
    (∀ v, ReflTransGen (Onward config endCheckpoint) startCheckpoint v → v ≠ endCheckpoint →
      Passable config v) ∧
    (ReflTransGen (Follows config) startCheckpoint endCheckpoint →
      ReflTransGen (Onward config endCheckpoint) startCheckpoint endCheckpoint) := by
  have hm := remembers_of_init hinit 0
  obtain rfl : m.config = config := hm.same
  have hvalidate : m.validateFlow startCheckpoint endCheckpoint =
      m.validateFrom endCheckpoint ∅ startCheckpoint := by
    have hinitialized : m.initialized = true := hm.initialized
    simp [validateFlow, validateCheckpointId, hinitialized, hstart, hend]
  have hmarked : Marked m.config endCheckpoint ∅ startCheckpoint :=
    ⟨fun _ hk => absurd hk (Finset.notMem_empty _), fun _ _ hv => absurd hv (Finset.notMem_empty _),
      fun _ _ _ hv => absurd hv (Finset.notMem_empty _)⟩
  have htells := validateFrom_tells hend hmarked hstart
  have hmono : ReflTransGen (Onward m.config endCheckpoint) startCheckpoint endCheckpoint →
      ReflTransGen (Follows m.config) startCheckpoint endCheckpoint :=
    ReflTransGen.mono (fun _ _ => Onward.follows) _ _
  rw [hvalidate]
  cases hanswer : m.validateFrom endCheckpoint ∅ startCheckpoint with
  | none =>
    rw [hanswer] at htells
    obtain ⟨v, hv, hne, hnot⟩ := htells
    refine iff_of_false ?_ fun h => hnot (h.1 v hv hne)
    rintro ⟨_, hnone, -⟩
    cases hnone
  | some found =>
    rw [hanswer] at htells
    obtain ⟨hall, hfound⟩ := htells
    constructor
    · rintro ⟨found', heq, hreach⟩
      cases heq
      exact ⟨hall, fun h => hfound.mp (hreach.mpr h)⟩
    · rintro ⟨-, hback⟩
      exact ⟨found, rfl, hfound.trans ⟨hmono, hback⟩⟩

theorem validateFlow_threeSteps :
    (watching threeSteps).init (some threeSteps) = (watching threeSteps, true) ∧
      ∃ found, (watching threeSteps).validateFlow 0 2 = some found ∧
        (found = true ↔ ReflTransGen (Follows threeSteps) 0 2) := by
  have hinit : (watching threeSteps).init (some threeSteps) = (watching threeSteps, true) := rfl
  refine ⟨hinit, (validateFlow_exact_iff hinit (by decide) (by decide)).mpr ⟨?_, fun _ => ?_⟩⟩
  · intro v hv _
    have hlt : v.toNat < 3 := by
      rcases ReflTransGen.cases_tail hv with rfl | ⟨w, -, hw⟩
      · decide
      · exact hw.2.1
    have hlinks : ∀ c ∈ threeSteps.checkpoints, c.expectedNext.toNat < 3 := by decide
    exact ⟨by omega, fun c hc _ => hlinks c (List.mem_of_getElem? hc)⟩
  · exact .head (b := 1) ⟨by decide, by decide, _, rfl, rfl⟩
      (.single ⟨by decide, by decide, _, rfl, rfl⟩)

def repeated : FlowMonitorConfig := ⟨[⟨.loop, 0, 1, 0, 0⟩, ⟨.end, 0, 0, 0, 0⟩], 8, false⟩

/-- The way along the alternative is not found. -/
theorem alternate_not_followed :
    (watching repeated).init (some repeated) = (watching repeated, true) ∧
      (watching repeated).validateFlow 0 1 = some false ∧
      ReflTransGen (Follows repeated) 0 1 := by
  refine ⟨rfl, ?_, .single (by decide)⟩
  have hstart : (watching repeated).validateFlow 0 1 = (watching repeated).validateFrom 1 ∅ 0 := rfl
  have honce : (watching repeated).validateFrom 1 ∅ 0 =
      (watching repeated).validateFrom 1 (insert ⟨0, by decide⟩ ∅) 0 := by
    conv_lhs => rw [validateFrom]
    rfl
  rw [hstart, honce, validateFrom]
  rfl

end Cant.Safety.FlowMonitor
