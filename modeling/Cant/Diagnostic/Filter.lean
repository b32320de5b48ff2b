/-
# `Filter` — the message filter chain

`DiagFilter_Init` is to install `security_filter`, which is to reject security
access (second byte `0x27`) unless bit 0 of the chain flags is set. It calls
`DiagFilter_AddFilter` before it sets `initialized`, so nothing is installed; and
`!chain->flags & 0x01` is `(!chain->flags) & 0x01`, which asks whether the whole
word is zero. What the chain rejects is therefore what filters added later reject
(`security_access_iff`).

`diag_filter.h` is not part of the sources. The length `n` of the chain and the
answers other than `FILTER_ACCEPT` and `FILTER_REJECT` are left open, and so is what
a filter that is not in `diag_filter.c` answers: such a filter is a name `a : α`,
and `answer` says what it makes of the buffer, the length and the chain.
-/
import Cant.Lib.Buf
import Cant.Lib.Run

namespace Cant.Diagnostic

open Run List Option

/-- `FilterResult`; `other` stands for answers the two filters here do not give. -/
inductive FilterResult where
  | accept | reject | other (code : Nat)
  deriving DecidableEq

structure FilterConfig where
  id : Nat
  type : Nat
  enabled : Bool

/-- A filter function: one of the two in `diag_filter.c`, or another one. -/
inductive FilterFunc (α : Type) where
  | security | session | other (a : α)

structure FilterChain (α : Type) (n : Nat) where
  filters : Buf (Option (FilterFunc α)) n
  configs : Buf FilterConfig n
  count : Nat
  flags : UInt32

def zeroChain (α : Type) (n : Nat) : FilterChain α n where
  filters := Buf.fill n none
  configs := Buf.fill n ⟨0, 0, false⟩
  count := 0
  flags := 0

structure DiagFilter (α : Type) (n : Nat) where
  chain : FilterChain α n
  msgBuffer : Buf UInt8 1024
  lastError : Nat
  initialized : Bool

/-- What a call of a filter gives: its answer, and what it stores in `last_error`. -/
structure Verdict where
  result : FilterResult
  error : Option Nat

/-- `!chain->flags & 0x01`: the negation binds first. -/
def securityBitUnset (flags : UInt32) : Bool := ((if flags = 0 then 1 else 0) &&& (1 : UInt32)) ≠ 0

def securityFilter (buffer : Buf UInt8 1024) (length : Nat) (flags : UInt32) : Option Verdict :=
  if length < 2 then some ⟨.reject, none⟩
  else do
    let b ← buffer.get? 1
    if b = 0x27 ∧ securityBitUnset flags then some ⟨.reject, some 0x100⟩
    else some ⟨.accept, none⟩

def sessionFilter (buffer : Buf UInt8 1024) : Option Verdict := do
  let b ← buffer.get? 0
  if b ≠ 0x10 then some ⟨.accept, none⟩
  else do
    let session ← buffer.get? 1
    if session ≤ 4 then some ⟨.accept, none⟩ else some ⟨.reject, none⟩

section

variable {α : Type} {n : Nat}
variable (answer : α → Buf UInt8 1024 → Nat → FilterChain α n → FilterResult)

/-- `filter(msg_buffer, length, &main_chain)`. -/
def FilterFunc.call (buffer : Buf UInt8 1024) (length : Nat) (chain : FilterChain α n) :
    FilterFunc α → Option Verdict
  | .security => securityFilter buffer length chain.flags
  | .session => sessionFilter buffer
  | .other a => some ⟨answer a buffer length chain, none⟩

def FilterChain.entries (c : FilterChain α n) : List (Option (FilterFunc α) × FilterConfig) :=
  (c.filters.elems.take c.count).zip (c.configs.elems.take c.count)

/-- The loop of `DiagFilter_Process`: the first answer that is not
`FILTER_ACCEPT`. -/
def filterLoop (buffer : Buf UInt8 1024) (length : Nat) (chain : FilterChain α n) :
    List (Option (FilterFunc α) × FilterConfig) → Option Verdict
  | [] => some ⟨.accept, none⟩
  | (f, c) :: rest =>
    if ¬ c.enabled then filterLoop buffer length chain rest
    else do
      let f ← f
      let v ← f.call answer buffer length chain
      if v.result ≠ .accept then some v else filterLoop buffer length chain rest

namespace DiagFilter

/-- `DiagFilter_AddFilter`; `none` is a null pointer. -/
def addFilter (s : DiagFilter α n) :
    Option (FilterFunc α) → Option FilterConfig → Option (DiagFilter α n × Bool)
  | some f, some c =>
    if ¬ s.initialized then some (s, false)
    else if s.chain.count ≥ n then some (s, false)
    else do
      let filters ← s.chain.filters.blit s.chain.count [some f]
      let configs ← s.chain.configs.blit s.chain.count [c]
      some ({ s with chain := { s.chain with
        filters := filters, configs := configs, count := s.chain.count + 1 } }, true)
  | _, _ => some (s, false)

def init (s : DiagFilter α n) : Option (DiagFilter α n × Bool) :=
  if s.initialized then some (s, false)
  else do
    let s := { s with chain := zeroChain α n, msgBuffer := Buf.fill 1024 0 }
    let (s, _) ← s.addFilter (some .security) (some ⟨1, 1, true⟩)
    some ({ s with initialized := true }, true)

def setFilterFlags (s : DiagFilter α n) (flags : UInt32) : DiagFilter α n :=
  { s with chain := { s.chain with flags := flags } }

/-- `DiagFilter_EnableFilter` and `DiagFilter_DisableFilter`: the first entry with
the id. -/
def setEnabled (s : DiagFilter α n) (id : Nat) (enabled : Bool) : Option (DiagFilter α n) := do
  let used ← s.chain.configs.slice 0 s.chain.count
  match used.findIdx? fun c => c.id = id with
  | none => some s
  | some i => do
    let c ← used[i]?
    let configs ← s.chain.configs.blit i [{ c with enabled := enabled }]
    some { s with chain := { s.chain with configs := configs } }

def enableFilter (s : DiagFilter α n) (id : Nat) : Option (DiagFilter α n) := s.setEnabled id true

def disableFilter (s : DiagFilter α n) (id : Nat) : Option (DiagFilter α n) :=
  s.setEnabled id false

/-- `DiagFilter_Process`; `none` is a null pointer. -/
def process (s : DiagFilter α n) : Option (List UInt8) → Option (DiagFilter α n × FilterResult)
  | none => some (s, .reject)
  | some data =>
    if ¬ s.initialized ∨ data.length = 0 then some (s, .reject)
    else if data.length > 1024 then some ({ s with lastError := 0x200 }, .reject)
    else do
      let buffer ← s.msgBuffer.blit 0 data
      let filters ← s.chain.filters.slice 0 s.chain.count
      let configs ← s.chain.configs.slice 0 s.chain.count
      let v ← filterLoop answer buffer data.length s.chain (filters.zip configs)
      some ({ s with msgBuffer := buffer, lastError := v.error.getD s.lastError }, v.result)

end DiagFilter

/-! ## Building a chain -/

inductive FilterOp (α : Type) where
  | add (filter : Option (FilterFunc α)) (config : Option FilterConfig)
  | setFlags (flags : UInt32)
  | enable (id : Nat)
  | disable (id : Nat)

def DiagFilter.step (s : DiagFilter α n) : FilterOp α → Option (DiagFilter α n × Bool)
  | .add filter config => s.addFilter filter config
  | .setFlags flags => some (s.setFilterFlags flags, true)
  | .enable id => (s.enableFilter id).map fun t => (t, true)
  | .disable id => (s.disableFilter id).map fun t => (t, true)

/-- Filters a run has added, whatever their configuration is now. -/
def addedFilters (ops : List (FilterOp α)) : List (FilterFunc α) :=
  ops.filterMap fun
    | .add filter _ => filter
    | _ => none

namespace DiagFilter

variable {s t : DiagFilter α n}

/-- What holds between calls: the chain is in range, and every entry is one of the
filters in `added`. -/
structure Inv (added : List (FilterFunc α)) (s : DiagFilter α n) : Prop where
  init : s.initialized = true
  count_le : s.chain.count ≤ n
  from_added : ∀ f ∈ s.chain.filters.elems.take s.chain.count, ∃ g ∈ added, f = some g

variable {added : List (FilterFunc α)}

section

variable (h : s.Inv added)
include h

theorem Inv.mono {added' : List (FilterFunc α)} (hsub : ∀ g ∈ added, g ∈ added') :
    s.Inv added' := by
  refine ⟨h.init, h.count_le, ?_⟩
  intro f hf
  obtain ⟨g, hg, rfl⟩ := h.from_added f hf
  exact ⟨g, hsub g hg, rfl⟩

theorem setEnabled_inv (id : Nat) (enabled : Bool) :
    ∃ t, s.setEnabled id enabled = some t ∧ t.Inv added := by
  have hle := h.count_le
  have hused : s.chain.configs.slice 0 s.chain.count
      = some (s.chain.configs.elems.take s.chain.count) := by
    rw [Buf.slice_eq_some (by omega), drop_zero]
  simp only [setEnabled, hused, bind_eq_bind, bind_some]
  cases hidx : (s.chain.configs.elems.take s.chain.count).findIdx? fun c => c.id = id with
  | none => exact ⟨s, rfl, h⟩
  | some i =>
    have hi : i < (s.chain.configs.elems.take s.chain.count).length :=
      (findIdx?_eq_some_iff_getElem.mp hidx).1
    have hlen : (s.chain.configs.elems.take s.chain.count).length ≤ n :=
      Nat.le_trans (length_take_le _ _) hle
    obtain ⟨configs, hblit, -⟩ := s.chain.configs.blit_eq_some i
      [{ (s.chain.configs.elems.take s.chain.count)[i] with enabled := enabled }]
      (by rw [length_singleton]; omega)
    simp only [getElem?_eq_getElem hi, bind_some, hblit]
    exact ⟨_, rfl, h.init, h.count_le, h.from_added⟩

theorem addFilter_inv (f : FilterFunc α) (c : FilterConfig) :
    ∃ t ok, s.addFilter (some f) (some c) = some (t, ok) ∧ t.Inv (added ++ [f]) := by
  have hgrow : s.Inv (added ++ [f]) := h.mono fun g hg => mem_append_left _ hg
  by_cases hfull : s.chain.count ≥ n
  · refine ⟨s, false, ?_, hgrow⟩
    rw [addFilter, if_neg (not_not.mpr h.init), if_pos hfull]
  · obtain ⟨filters, hfilters, -⟩ := s.chain.filters.blit_eq_some s.chain.count [some f]
      (by rw [length_singleton]; omega)
    obtain ⟨configs, hconfigs, -⟩ := s.chain.configs.blit_eq_some s.chain.count [c]
      (by rw [length_singleton]; omega)
    let chain : FilterChain α n := { s.chain with
      filters := filters, configs := configs, count := s.chain.count + 1 }
    refine ⟨{ s with chain := chain }, true, ?_, h.init, ?_, ?_⟩
    · rw [addFilter, if_neg (not_not.mpr h.init), if_neg hfull, hfilters, hconfigs]
      rfl
    · show s.chain.count + 1 ≤ n
      omega
    · intro g hg
      have hg : g ∈ s.chain.filters.elems.take s.chain.count ++ [some f] :=
        Buf.take_of_blit hfilters ▸ hg
      rcases mem_append.mp hg with hg | hg
      · exact hgrow.from_added g hg
      · exact ⟨f, mem_append_right _ (mem_singleton.mpr rfl), mem_singleton.mp hg⟩

/-- **One call** keeps the chain in range and adds nothing but its own filter. -/
theorem step_inv (op : FilterOp α) :
    ∃ t ok, s.step op = some (t, ok) ∧ t.Inv (added ++ addedFilters [op]) := by
  have hgrow : s.Inv (added ++ addedFilters [op]) := h.mono fun g hg => mem_append_left _ hg
  cases op with
  | add filter config =>
    cases filter with
    | none => exact ⟨s, false, rfl, hgrow⟩
    | some f =>
      cases config with
      | none => exact ⟨s, false, rfl, hgrow⟩
      | some c => exact addFilter_inv h f c
  | setFlags flags => exact ⟨_, true, rfl, hgrow.init, hgrow.count_le, hgrow.from_added⟩
  | enable id =>
    obtain ⟨t, ht, hinv⟩ := setEnabled_inv hgrow id true
    exact ⟨t, true, by rw [step, enableFilter, ht]; rfl, hinv⟩
  | disable id =>
    obtain ⟨t, ht, hinv⟩ := setEnabled_inv hgrow id false
    exact ⟨t, true, by rw [step, disableFilter, ht]; rfl, hinv⟩

end

theorem init_inv (h : s.init = some (t, true)) : t.Inv [] := by
  cases hs : s.initialized with
  | true => simp [init, hs] at h
  | false =>
    rw [init, if_neg (by simp [hs])] at h
    simp only [addFilter, hs, Bool.false_eq_true, not_false_iff, if_true, bind_eq_bind,
      bind_some, Option.some.injEq, Prod.mk.injEq, and_true] at h
    subst h
    refine ⟨rfl, Nat.zero_le n, ?_⟩
    intro f hf
    cases hf

theorem run_inv_added : ∀ (ops : List (FilterOp α)) {s : DiagFilter α n}
    {added : List (FilterFunc α)}, s.Inv added →
    ∃ t oks, run step s ops = some (t, oks) ∧ t.Inv (added ++ addedFilters ops)
  | [], s, added, h => ⟨s, [], rfl, h.mono fun g hg => mem_append_left _ hg⟩
  | op :: ops, s, added, h => by
    obtain ⟨s₁, ok, h₁, hinv⟩ := step_inv h op
    obtain ⟨t, oks, hrun, hinv'⟩ := run_inv_added ops hinv
    refine ⟨t, ok :: oks, run_cons.mpr ⟨s₁, ok, oks, h₁, hrun, rfl⟩, ?_⟩
    rw [append_assoc, addedFilters, addedFilters, ← filterMap_append] at hinv'
    exact hinv'

/-! ## Processing a message -/

/-- The messages that a filter function does not accept. -/
def Rejects (buffer : Buf UInt8 1024) (length : Nat) (chain : FilterChain α n) :
    FilterFunc α → Prop
  | .security => length < 2 ∨ buffer.cell 1 = 0x27 ∧ chain.flags = 0
  | .session => buffer.cell 0 = 0x10 ∧ 4 < buffer.cell 1
  | .other a => answer a buffer length chain ≠ .accept

theorem call_result (buffer : Buf UInt8 1024) (length : Nat) (chain : FilterChain α n)
    (f : FilterFunc α) : ∃ v, f.call answer buffer length chain = some v ∧
      (v.result ≠ .accept ↔ Rejects answer buffer length chain f) := by
  have h₀ : buffer.get? 0 = some (buffer.cell 0) := buffer.get?_cell 0
  have h₁ : buffer.get? 1 = some (buffer.cell 1) := buffer.get?_cell 1
  cases f with
  | security =>
    simp only [FilterFunc.call, securityFilter, some_bind h₁, Rejects]
    by_cases hshort : length < 2
    · exact ⟨_, if_pos hshort, by simp [hshort]⟩
    · by_cases hflags : chain.flags = 0 <;> by_cases hb : buffer.cell 1 = 0x27 <;>
        simp [hshort, hb, hflags, securityBitUnset]
  | session =>
    simp only [FilterFunc.call, sessionFilter, h₀, h₁, bind_eq_bind, bind_some, Rejects]
    by_cases hb : buffer.cell 0 = 0x10 <;> by_cases hle : buffer.cell 1 ≤ 4 <;>
      simp [hb, hle, UInt8.not_lt.mpr, UInt8.not_le.mp]
  | other a => exact ⟨_, rfl, Iff.rfl⟩

/-- An entry that is enabled and does not accept the message. -/
def Objects (buffer : Buf UInt8 1024) (length : Nat) (chain : FilterChain α n)
    (e : Option (FilterFunc α) × FilterConfig) : Prop :=
  e.2.enabled = true ∧ ∃ f ∈ e.1, Rejects answer buffer length chain f

theorem filterLoop_accept (buffer : Buf UInt8 1024) (length : Nat) (chain : FilterChain α n) :
    ∀ {es : List (Option (FilterFunc α) × FilterConfig)}, (∀ e ∈ es, ∃ f, e.1 = some f) →
    ∃ v, filterLoop answer buffer length chain es = some v ∧
      (v.result = .accept ↔ ¬ ∃ e ∈ es, Objects answer buffer length chain e) := by
  intro es hes
  induction es with
  | nil => exact ⟨_, rfl, by simp⟩
  | cons e es ih =>
    obtain ⟨f, hf⟩ := hes e mem_cons_self
    obtain ⟨v, hloop, hiff⟩ := ih fun e' he' => hes e' (.tail _ he')
    obtain ⟨w, hcall, hrejects⟩ := call_result answer buffer length chain f
    obtain ⟨e₁, c⟩ := e
    obtain rfl : e₁ = some f := hf
    have hobj : Objects answer buffer length chain (some f, c) ↔
        c.enabled = true ∧ w.result ≠ .accept := by
      simp [Objects, hrejects]
    simp only [mem_cons, exists_eq_or_imp, hobj]
    cases hen : c.enabled with
    | false =>
      refine ⟨v, ?_, by simpa using hiff⟩
      rw [filterLoop, if_pos (by simp [hen]), hloop]
    | true =>
      by_cases hres : w.result = .accept
      · refine ⟨v, ?_, by simpa [hres] using hiff⟩
        simp [filterLoop, hcall, hres, hloop]
      · refine ⟨w, ?_, by simp [hres]⟩
        simp [filterLoop, hen, hcall, hres]

theorem process_accept (h : s.Inv added) {data : List UInt8} (hne : data.length ≠ 0) :
    ∃ t res, s.process answer (some data) = some (t, res) ∧
      (res = .accept ↔ ¬ (1024 < data.length ∨ ∃ buffer, s.msgBuffer.blit 0 data = some buffer ∧
        ∃ e ∈ s.chain.entries, Objects answer buffer data.length s.chain e)) := by
  have hnot : ¬ (¬ s.initialized = true ∨ data.length = 0) := by simp [h.init, hne]
  by_cases hlong : data.length > 1024
  · refine ⟨{ s with lastError := 0x200 }, .reject, ?_, by simp [hlong]⟩
    rw [process, if_neg hnot, if_pos hlong]
  · have hle := h.count_le
    obtain ⟨buffer, hblit, -⟩ := s.msgBuffer.blit_eq_some 0 data (by omega)
    have hsome : ∀ e ∈ s.chain.entries, ∃ f, e.1 = some f := by
      intro e he
      obtain ⟨g, -, hg⟩ := h.from_added e.1 (of_mem_zip he).1
      exact ⟨g, hg⟩
    obtain ⟨v, hloop, hiff⟩ := filterLoop_accept answer buffer data.length s.chain hsome
    refine ⟨{ s with msgBuffer := buffer, lastError := v.error.getD s.lastError }, v.result, ?_, ?_⟩
    · rw [process, if_neg hnot, if_neg hlong, hblit, Buf.slice_eq_some (by omega),
        Buf.slice_eq_some (by omega), drop_zero, drop_zero]
      unfold FilterChain.entries at hloop
      simp [hloop]
    · rw [hiff, hblit]
      simp only [Option.some.injEq, exists_eq_left', not_or]
      exact ⟨fun hno => ⟨hlong, hno⟩, And.right⟩

end DiagFilter

open DiagFilter

/-- **Security access.** The chain holds only filters that were added after `DiagFilter_Init`; and
a message is accepted only with bit 0 of the flags set, if and only if that bit is set, or the
message is longer than the buffer, or one of those filters, enabled, objects to it. -/
theorem security_access_iff {s₀ s : DiagFilter α n} (hinit : s₀.init = some (s, true))
    (ops : List (FilterOp α)) {data : List UInt8} (hlen : 2 ≤ data.length) :
    ∃ t oks u res, run DiagFilter.step s ops = some (t, oks) ∧
      t.process answer (some data) = some (u, res) ∧
      (∀ e ∈ t.chain.entries, ∃ f ∈ addedFilters ops, e.1 = some f) ∧
      ((res = .accept → t.chain.flags &&& 1 ≠ 0) ↔
        t.chain.flags &&& 1 ≠ 0 ∨ 1024 < data.length ∨
          ∃ buffer, t.msgBuffer.blit 0 data = some buffer ∧
            ∃ e ∈ t.chain.entries, Objects answer buffer data.length t.chain e) := by
  obtain ⟨t, oks, hrun, hinv⟩ := run_inv_added ops (init_inv hinit)
  obtain ⟨u, res, hproc, hiff⟩ := process_accept answer hinv (by omega : data.length ≠ 0)
  refine ⟨t, oks, u, res, hrun, hproc, ?_, ?_⟩
  · intro e he
    exact hinv.from_added e.1 (of_mem_zip he).1
  · rw [hiff]
    by_cases hbit : t.chain.flags &&& 1 = 0
    · simp only [hbit, ne_eq, not_true, imp_false, not_not, false_or]
    · simp [hbit]

end

/-- The statics before anything ran, with a chain of eight entries. -/
def zeroFilter : DiagFilter Unit 8 where
  chain := zeroChain Unit 8
  msgBuffer := Buf.fill 1024 0
  lastError := 0
  initialized := false

theorem security_access_added :
    ∃ s, zeroFilter.init = some (s, true) ∧ 2 ≤ [0x02, 0x27, 0x01].length ∧
      ∃ t oks u res, run DiagFilter.step s [.add (some .security) (some ⟨1, 1, true⟩)]
          = some (t, oks) ∧
        t.process (fun _ _ _ _ => .accept) (some [0x02, 0x27, 0x01]) = some (u, res) ∧
        (∀ e ∈ t.chain.entries, ∃ f ∈ addedFilters [.add (some .security) (some ⟨1, 1, true⟩)],
          e.1 = some f) ∧
        ((res = .accept → t.chain.flags &&& 1 ≠ 0) ↔
          t.chain.flags &&& 1 ≠ 0 ∨ 1024 < [0x02, 0x27, 0x01].length ∨
            ∃ buffer, t.msgBuffer.blit 0 [0x02, 0x27, 0x01] = some buffer ∧
              ∃ e ∈ t.chain.entries, DiagFilter.Objects (fun _ _ _ _ => .accept) buffer
                [0x02, 0x27, 0x01].length t.chain e) :=
  ⟨_, rfl, by decide, security_access_iff (fun _ _ _ _ => .accept)
    (show zeroFilter.init = some (_, true) from rfl)
    [.add (some .security) (some ⟨1, 1, true⟩)] (by decide)⟩

/-- Security access is accepted right after `DiagFilter_Init` with all flags clear,
and even with `security_filter` added, if only bit 1 is set. -/
theorem security_access_unchecked :
    (zeroFilter.init.bind fun r => (r.1.process (fun _ _ _ _ => .reject)
        (some [0x02, 0x27, 0x01])).map fun p => (p.2, r.1.chain.flags))
      = some (.accept, 0) ∧
    (zeroFilter.init.bind fun r => (run DiagFilter.step r.1
        [.add (some .security) (some ⟨1, 1, true⟩), .setFlags 2]).bind fun q =>
          (q.1.process (fun _ _ _ _ => .reject) (some [0x02, 0x27, 0x01])).map fun p =>
            (p.2, q.1.chain.flags))
      = some (.accept, 2) := by
  constructor <;> decide +kernel

end Cant.Diagnostic
