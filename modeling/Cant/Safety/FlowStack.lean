/-
# `FlowStack` — the stack of calls

`call_stack` has 32 entries, and how deep calls may nest is asked of `max_stack_depth`, which
`Flow_Monitor_Init` takes as it comes. A write outside the array is a call without an answer.

    max_stack_depth     writes inside       depth
    at most 32          always              calls less returns (`nested_of_small`)
    more                up to 32 open calls the same, as long as that (`nested_iff_room`)
-/
import Cant.Safety.FlowMonitor

namespace Cant.Safety

open Past Run

namespace FlowMonitor

variable {m m₀ : FlowMonitor}

def Passed (config : FlowMonitorConfig) (type : FlowCheckpointType) (e : Entry) : Bool :=
  e.output.result = .ok && config.checkpoints[e.input.2.toNat]?.any (·.type = type)

/-- The depth of the stack is the number of accepted calls less that of accepted returns. -/
def Nested (config : FlowMonitorConfig) (x : List Entry × (Nat × FlowMonitor)) : Prop :=
  x.2.2.stackDepth.toNat + x.1.countP (Passed config .return) = x.1.countP (Passed config .call)

def Room (x : List Entry × (Nat × FlowMonitor)) (i : Nat × UInt32) : Prop :=
  x.2.2.accepts (x.2.1 + i.1) i.2 = true → x.2.2.hasRoom i.2 = true
  deriving Decidable

theorem depth_handleStack {m' : FlowMonitor} {c : FlowCheckpointConfig}
    (hallows : m.stackAllows c = true) (hstack : m.handleStack c = some m') :
    m'.stackDepth.toNat + (if c.type = .return then 1 else 0) =
      m.stackDepth.toNat + (if c.type = .call then 1 else 0) := by
  have hspec := handleStack_spec m c
  cases htype : c.type with
  | call =>
    have hroom : m.stackDepth.toNat < 32 := by
      by_contra hfull
      rw [if_pos ⟨htype, Nat.not_lt.mp hfull⟩, hstack] at hspec
      cases hspec
    simp only [handleStack, htype, Option.bind_eq_bind, Option.bind_eq_some_iff] at hstack
    obtain ⟨stack, -, heq⟩ := hstack
    cases heq
    have hone : (1 : UInt32).toNat = 1 := rfl
    simp only [UInt32.toNat_add, hone, reduceCtorEq, if_false, if_true]
    omega
  | «return» =>
    simp only [stackAllows, htype, ne_eq, decide_eq_true_eq] at hallows
    simp only [handleStack, htype, Option.some.injEq] at hstack
    subst hstack
    have hpos : m.stackDepth.toNat ≠ 0 := fun h => hallows (UInt32.toNat_inj.mp h)
    have hle : (1 : UInt32) ≤ m.stackDepth := UInt32.le_iff_toNat_le.mpr (Nat.pos_of_ne_zero hpos)
    have hone : (1 : UInt32).toNat = 1 := rfl
    simp only [UInt32.toNat_sub_of_le _ _ hle, hone, reduceCtorEq, if_false, if_true]
    omega
  | start | «end» | branch | loop =>
    simp only [handleStack, htype, Option.some.injEq] at hstack
    subst hstack
    rfl

/-- The monitor remembers where it is, and its depth is right. -/
structure Stacked (config : FlowMonitorConfig) (x : List Entry × (Nat × FlowMonitor)) : Prop extends
    Remembers config x where
  nested : Nested config x

namespace Stacked

variable {config : FlowMonitorConfig} {x : List Entry × (Nat × FlowMonitor)} {i : Nat × UInt32}

theorem step (h : Stacked config x) {s' : Nat × FlowMonitor} {o : FlowOutcome}
    (hcall : timed checkpoint x.2 i = some (s', o)) :
    Stacked config (⟨x.2, i, o, s'⟩ :: x.1, s') := by
  refine ⟨h.toRemembers.step hcall, ?_⟩
  obtain ⟨m', hm, rfl⟩ := timed_iff.mp hcall
  have hnested := h.nested
  unfold Nested at hnested ⊢
  cases haccepts : x.2.2.accepts (x.2.1 + i.1) i.2 with
  | false =>
    obtain ⟨errors, o', hrefused, hresult⟩ := checkpoint_refused h.inTable haccepts
    cases hrefused.symm.trans hm
    simp only [List.countP_cons, Passed, hresult, decide_false, Bool.false_and,
      Bool.false_eq_true, if_false, Nat.add_zero]
    exact hnested
  | true =>
    obtain ⟨c, hc, -, hok⟩ := checkpoint_accepted h.initialized haccepts
    obtain ⟨m₁, hstack, heq⟩ := Option.map_eq_some_iff.mp (hok.symm.trans hm)
    cases heq
    have hdepth := depth_handleStack (stackAllows_of_accepts haccepts hc) hstack
    rw [h.same] at hc
    simp only [List.countP_cons, Passed, hc, Option.any_some, decide_true, Bool.true_and,
      decide_eq_true_eq]
    omega

end Stacked

theorem stacked_of_init {config : FlowMonitorConfig}
    (hinit : m₀.init (some config) = (m, true)) (started : Nat) :
    Stacked config ([], (started, m)) := by
  refine ⟨remembers_of_init hinit started, ?_⟩
  simp only [init] at hinit
  split at hinit
  · cases hinit
  · cases hinit
    rfl

/-- **The stack of calls, over every run.** Every write is inside the stack, and it is `Nested`,
exactly in the runs where a call that is accepted never finds 32 calls open. -/
theorem nested_iff_room {config : FlowMonitorConfig} {m₀ m : FlowMonitor}
    (hinit : m₀.init (some config) = (m, true)) (started : Nat) (calls : List (Nat × UInt32)) :
    Throughout (logged (timed checkpoint)) (Nested config) ([], (started, m)) calls ↔
      Along (logged (timed checkpoint)) Room ([], (started, m)) calls := by
  refine throughout_logged_iff (Stacked config) (fun x h => h.nested) ?_ ?_ calls
    (stacked_of_init hinit started)
  · intro x i h hroom
    obtain ⟨m', o, hm⟩ := (checkpoint_defined_iff h.initialized h.inTable).mpr hroom
    exact ⟨_, o, timed_eq hm, h.step (timed_eq hm)⟩
  · intro x i s' o h hcall _
    obtain ⟨m', hm, -⟩ := timed_iff.mp hcall
    exact (checkpoint_defined_iff h.initialized h.inTable).mp ⟨m', o, hm⟩

theorem hasRoom_of_small {now : Nat} {id : UInt32}
    (hsmall : m.config.maxStackDepth.toNat ≤ 32) (haccepts : m.accepts now id = true) :
    m.hasRoom id = true := by
  rw [hasRoom]
  cases hc : m.config.checkpoints[id.toNat]? with
  | none => rfl
  | some c =>
    have hallows := stackAllows_of_accepts haccepts hc
    rw [Option.all_some, Bool.or_eq_true, decide_eq_true_eq, decide_eq_true_eq]
    by_cases htype : c.type = .call
    · simp only [stackAllows, htype, decide_eq_true_eq] at hallows
      exact .inr ((UInt32.lt_iff_toNat_lt.mp hallows).trans_le hsmall)
    · exact .inl htype

/-- **A limit that fits the stack is enough.** -/
theorem nested_of_small {config : FlowMonitorConfig}
    (hinit : m₀.init (some config) = (m, true)) (hsmall : config.maxStackDepth.toNat ≤ 32)
    (started : Nat) (calls : List (Nat × UInt32)) :
    Throughout (logged (timed checkpoint)) (Nested config) ([], (started, m)) calls := by
  refine throughout_of_inv (Stacked config) (fun x h => h.nested) ?_ calls
    (stacked_of_init hinit started)
  intro x i h
  have hroom : x.2.2.accepts (x.2.1 + i.1) i.2 = true → x.2.2.hasRoom i.2 = true :=
    hasRoom_of_small (h.same ▸ hsmall)
  obtain ⟨m', o, hm⟩ := (checkpoint_defined_iff h.initialized h.inTable).mpr hroom
  exact ⟨_, o, logged_timed hm, h.step (timed_eq hm)⟩

/-- Checkpoint 1 is a call that may call itself, and 2 a return; calls may nest 33 deep. -/
def deepCalls : FlowMonitorConfig :=
  ⟨[⟨.start, 1, 1, 0, 0⟩, ⟨.call, 1, 2, 0, 0⟩, ⟨.return, 1, 2, 0, 0⟩], 33, false⟩

theorem nested_call_and_return :
    (watching deepCalls).init (some deepCalls) = (watching deepCalls, true) ∧
      Throughout (logged (timed checkpoint)) (Nested deepCalls) ([], (0, watching deepCalls))
        [(1, 1), (1, 1), (1, 2), (1, 2), (1, 2)] := by
  have hinit : (watching deepCalls).init (some deepCalls) = (watching deepCalls, true) := rfl
  exact ⟨hinit, (nested_iff_room hinit 0 _).mpr (by decide)⟩

def shallowCalls : FlowMonitorConfig := { deepCalls with maxStackDepth := 32 }

theorem nested_shallow : Throughout (logged (timed checkpoint)) (Nested shallowCalls)
    ([], (0, watching shallowCalls)) (List.replicate 33 (1, 1)) := by
  have hinit : (watching shallowCalls).init (some shallowCalls) = (watching shallowCalls, true) :=
    rfl
  exact nested_of_small hinit (by decide) 0 _

/-- The thirty-third open call is written behind the stack. -/
theorem deep_call_outside_stack :
    ¬ Throughout (logged (timed checkpoint)) (Nested deepCalls) ([], (0, watching deepCalls))
      (List.replicate 33 (1, 1)) := by
  intro h
  obtain ⟨t, os, hrun, -⟩ := h.run
  cases hrun

end FlowMonitor

end Cant.Safety
