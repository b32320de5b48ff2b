/-
# `Transmit` — what becomes of a queued message

`NetworkHandler_Send` takes byte strings of any length and keeps at most 255
bytes of each; `NetworkHandler_Process` offers the oldest to `CAN_Transmit`,
which refuses more than eight bytes whatever the controller would say. A refused
head stays at the head, so one long message stops everything behind it.

The queue is read off the ring by `Waiting`: the strings from a slot up to
`tx_head`, in order. One lemma per event says what happens to it, and a run keeps

    accepted so far  =  transmitted so far  ++  waiting

up to the cut at 255 bytes (`Account`). For progress each call pays from a budget
(`budget_pays`): it sends the head, or brings the clock difference closer to zero.
The controller accepts every frame it is offered, and no received frame is a flow-control frame.
-/
import Cant.Network.NetworkHandler
import Mathlib.Data.List.Range

namespace Cant.Network

open Word Run List Option

/-! ## Events -/

/-- What happens to a sender: a call of `NetworkHandler_Send`, a call of
`NetworkHandler_Process` at a clock value, or a received frame. -/
inductive TxEvent where
  | send (data : List UInt8)
  | process (now : Nat)
  | rx (now : Nat) (data : Buf UInt8 8) (len : Nat)

/-- What an event hands over: strings `NetworkHandler_Send` accepted, and frames
the controller took, each with its identifier. -/
structure TxOut where
  accepted : List (List UInt8)
  transmitted : List (Nat × List UInt8)

/-- A received frame has at most eight bytes and is not a flow-control frame. -/
def TxEvent.Wf : TxEvent → Prop
  | .send _ => True
  | .process _ => True
  | .rx _ data len => len ≤ 8 ∧ data.get? 0 ≠ some 0x30

/-- One event, with a controller that is up and takes every frame. -/
def NetworkHandler.txStep (s : NetworkHandler) : TxEvent → Option (NetworkHandler × TxOut)
  | .send data => (s.send data).map fun r => (r.1, ⟨if r.2 then [data] else [], []⟩)
  | .process now => (s.process now true true).map fun r => (r.1, ⟨[], r.2.sent.toList⟩)
  | .rx now data len => (s.handleCanRx now data len).map fun t => (t, ⟨[], []⟩)

def accepted (outs : List TxOut) : List (List UInt8) := outs.flatMap TxOut.accepted

def transmitted (outs : List TxOut) : List (Nat × List UInt8) := outs.flatMap TxOut.transmitted

theorem accepted_cons (o : TxOut) (os : List TxOut) :
    accepted (o :: os) = o.accepted ++ accepted os := flatMap_cons

theorem transmitted_cons (o : TxOut) (os : List TxOut) :
    transmitted (o :: os) = o.transmitted ++ transmitted os := flatMap_cons

theorem transmitted_append (os ps : List TxOut) :
    transmitted (os ++ ps) = transmitted os ++ transmitted ps := flatMap_append

def clocks (evs : List TxEvent) : List Nat :=
  evs.filterMap fun
    | .process now => some now
    | _ => none

/-- Successive calls are at least `interval` apart on the 32-bit clock. -/
def Spaced (interval : Nat) (times : List Nat) : Prop :=
  List.IsChain (fun a b : Nat => interval ≤ u32 ((b : Int) - a)) times

namespace NetworkHandler

variable {m : List UInt8} {len last now d : Nat} {e : TxEvent} {q' : List (List UInt8)}
  {evs : List TxEvent}
variable {s t : NetworkHandler}

/-- After `NetworkHandler_Init`: the driver is up, nothing waits, and the receive
side is between two calls. -/
structure Fresh (s : NetworkHandler) : Prop where
  quiet : s.Quiet
  empty : s.txTail = s.txHead
  interval_lt : s.netConfig.minTxInterval < 4294967296

/-- No string of more than eight bytes finds room in the queue. -/
def ShortSend (s : NetworkHandler) : TxEvent → Prop
  | .send data => data.length ≤ 8 ∨ s.QueueFull
  | .process _ => True
  | .rx _ _ _ => True

instance (s : NetworkHandler) (e : TxEvent) : Decidable (s.ShortSend e) := by
  cases e <;> unfold ShortSend <;> infer_instance

/-! ## The queue in the ring -/

/-- The strings waiting in the slots from `i` up to `tx_head`. -/
inductive Waiting (s : NetworkHandler) : Fin 16 → List (List UInt8) → Prop
  | done : Waiting s s.txHead []
  | slot {i : Fin 16} {m : List UInt8} {q : List (List UInt8)} :
      i ≠ s.txHead → s.queued i = some m → Waiting s (i + 1) q → Waiting s i (m :: q)

structure SameTx (s t : NetworkHandler) : Prop where
  queue : t.txQueue = s.txQueue
  lengths : t.txLengths = s.txLengths
  head : t.txHead = s.txHead
  tail : t.txTail = s.txTail
  config : t.netConfig = s.netConfig
  time : t.lastTxTime = s.lastTxTime

variable {q : List (List UInt8)} {i : Fin 16}

theorem Waiting.congr (hqueue : t.txQueue = s.txQueue) (hlen : t.txLengths = s.txLengths)
    (hhead : t.txHead = s.txHead) (h : Waiting s i q) : Waiting t i q := by
  induction h with
  | done => exact hhead ▸ Waiting.done
  | slot hne hm _ ih =>
    refine .slot (hhead ▸ hne) ?_ ih
    rw [queued, hqueue, hlen]
    exact hm

theorem SameTx.waiting (h : SameTx s t) (hq : Waiting s s.txTail q) :
    Waiting t t.txTail q := h.tail.symm ▸ hq.congr h.queue h.lengths h.head

theorem fin_succ_inj : ∀ h i : Fin 16, i + 1 = h + 1 → i = h := by
  decide

theorem fin_sub_succ : ∀ h i : Fin 16, i ≠ h → (h - i).val = (h - (i + 1)).val + 1 := by
  decide

theorem Waiting.length_le (h : Waiting s i q) : q.length ≤ 15 := by
  have hlen : q.length = (s.txHead - i).val := by
    induction h with
    | done => rw [Fin.sub_self]; rfl
    | slot hne _ _ ih => rw [length_cons, ih, ← fin_sub_succ _ _ hne]
  omega

theorem Waiting.snoc (hhead : t.txHead = s.txHead + 1)
    (hold : ∀ i, i ≠ s.txHead → t.queued i = s.queued i) (hnew : t.queued s.txHead = some m)
    (h : Waiting s i q) (hroom : i ≠ s.txHead + 1) : Waiting t i (q ++ [m]) := by
  induction h with
  | done => exact .slot (hhead ▸ hroom) hnew (hhead ▸ .done)
  | slot hne hm _ ih =>
    -- the walk from `i` to `tx_head` meets `tx_head + 1` only through `tx_head`
    refine .slot (hhead ▸ hroom) ((hold _ hne).trans hm) (ih ?_)
    intro heq
    exact hne (fin_succ_inj _ _ heq)

/-! ## One lemma per event -/

/-- **`NetworkHandler_Send`** refuses and changes nothing, or puts the first 255
bytes behind the queue. -/
theorem send_waiting (h : s.Quiet) (hq : Waiting s s.txTail q) (data : List UInt8) :
    ∃ t ok, s.send data = some (t, ok) ∧ t.Quiet ∧ t.netConfig = s.netConfig ∧
      t.lastTxTime = s.lastTxTime ∧
      Waiting t t.txTail (q ++ if ok then [data.take 255] else []) ∧
      (ok = true → s.txHead + 1 ≠ s.txTail) ∧
      (0 < data.length → s.txHead + 1 ≠ s.txTail → ok = true) := by
  have hrefused : Waiting s s.txTail (q ++ if false then [data.take 255] else []) := by
    rw [if_neg (by decide), append_nil]
    exact hq
  by_cases hzero : data.length = 0
  · refine ⟨s, false, ?_, h, rfl, rfl, hrefused, by simp, by omega⟩
    rw [send, if_pos (Or.inr hzero)]
  by_cases hfull : s.txHead + 1 = s.txTail
  · refine ⟨s, false, ?_, h, rfl, rfl, hrefused, by simp, by simp [hfull]⟩
    rw [send, if_neg (by simp [h.init, hzero]), if_pos hfull]
  · obtain ⟨t, ht, hnew⟩ := send_eq h.init hfull data (by omega)
    have hkeep := ht
    rw [send, if_neg (by simp [h.init, hzero]), if_neg hfull] at hkeep
    simp only [bind_eq_bind, bind_eq_some_iff, Option.some.injEq, Prod.mk.injEq] at hkeep
    obtain ⟨slot, -, slot', -, queue, hqueue, lengths, hlengths, rfl, -⟩ := hkeep
    refine ⟨_, true, ht, ⟨h.init, h.start, h.index_le⟩, rfl, rfl, ?_, fun _ => hfull,
      fun _ _ => rfl⟩
    refine Waiting.snoc rfl ?_ hnew hq (Ne.symm hfull)
    intro i hi
    have hne : ¬ (s.txHead.val ≤ i.val ∧ i.val < s.txHead.val + 1) := by
      intro hbetween
      exact hi (Fin.ext (by omega))
    simp only [queued, Buf.get?, Buf.getElem?_blit hqueue, Buf.getElem?_blit hlengths,
      length_singleton, if_neg hne]

/-- A received frame is copied, which leaves the transmit side alone, and is then looked at for
flow control. -/
theorem handleCanRx_copied (h : s.Quiet) (now : Nat) (data : Buf UInt8 8) (hlen : len ≤ 8) :
    ∃ t, t.Quiet ∧ SameTx s t ∧ s.handleCanRx now data len =
      if data.cell 0 = 0x30 then t.processFlowControl now data else some t := by
  have hfirst : data.get? 0 = some (data.cell 0) := data.get?_cell 0
  have hle := h.index_le
  have hu : u32 (s.rxIndex + len) = s.rxIndex + len := u32_of_lt (n := s.rxIndex + len) (by omega)
  have hidx : (if u32 (s.rxIndex + len) ≥ 2048 then 0 else s.rxIndex) + len ≤ 2048 := by
    split <;> omega
  generalize hi : (if u32 (s.rxIndex + len) ≥ 2048 then 0 else s.rxIndex) = i at hidx
  have hbytes : (data.elems.take len).length = len := by
    rw [length_take, data.size_eq]
    omega
  obtain ⟨filled, hblit, -⟩ := s.rxBuffer.blit_eq_some i (data.elems.take len) (by omega)
  have hindex : u32 ((i : Int) + len) = i + len := u32_of_lt (n := i + len) (by omega)
  refine ⟨{ s with rxBuffer := filled, rxIndex := i + len }, ⟨h.init, h.start, hidx⟩,
    ⟨rfl, rfl, rfl, rfl, rfl, rfl⟩, ?_⟩
  simp [handleCanRx, hi, Buf.slice_eq_some (by omega : 0 + len ≤ 8), hblit, hfirst, hindex]

theorem handleCanRx_sameTx (h : s.Quiet) (now : Nat) (data : Buf UInt8 8)
    (hlen : len ≤ 8) (hdata : data.get? 0 ≠ some 0x30) :
    ∃ t, s.handleCanRx now data len = some t ∧ t.Quiet ∧ SameTx s t := by
  have hfirst := data.get?_cell 0
  obtain ⟨t, hquiet, hsame, heq⟩ := handleCanRx_copied h now data hlen
  rw [if_neg fun hfc => hdata (hfirst.trans (congrArg some hfc))] at heq
  exact ⟨t, heq, hquiet, hsame⟩

theorem processRxBuffer_sameTx {msgs : List (List UInt8)}
    (h : s.processRxBuffer = some (t, msgs)) : SameTx s t := by
  simp only [processRxBuffer, bind_eq_bind, bind_eq_some_iff] at h
  obtain ⟨⟨start, out⟩, -, h⟩ := h
  split at h
  · simp only [bind_eq_some_iff, Option.some.injEq, Prod.mk.injEq] at h
    obtain ⟨rest, -, moved, -, rfl, -⟩ := h
    exact ⟨rfl, rfl, rfl, rfl, rfl, rfl⟩
  · obtain ⟨rfl, -⟩ := h
    exact ⟨rfl, rfl, rfl, rfl, rfl, rfl⟩

/-- What a call of `NetworkHandler_Process` at clock `now` makes of the queue:
the head goes out, or nothing does. -/
inductive Sends (s : NetworkHandler) (now : Nat) : List (List UInt8) → Option (Nat × List UInt8) →
    List (List UInt8) → Nat → Prop
  | head {m : List UInt8} {q : List (List UInt8)} :
      s.netConfig.minTxInterval ≤ u32 ((now : Int) - s.lastTxTime) → m.length ≤ 8 →
      Sends s now (m :: q) (some (s.netConfig.txId, m)) q now
  | early {q : List (List UInt8)} :
      u32 ((now : Int) - s.lastTxTime) < s.netConfig.minTxInterval →
      Sends s now q none q s.lastTxTime
  | idle : Sends s now [] none [] s.lastTxTime
  | stuck {m : List UInt8} {q : List (List UInt8)} : 8 < m.length →
      Sends s now (m :: q) none (m :: q) s.lastTxTime

theorem queued_parts (h : s.queued i = some m) :
    ∃ slot, s.txQueue.get? i = some slot ∧ s.txLengths.get? i = some m.length ∧
      slot.slice 0 m.length = some m := by
  simp only [queued, bind_eq_bind, bind_eq_some_iff] at h
  obtain ⟨slot, hslot, len, hlen, hslice⟩ := h
  have hm := Buf.length_of_slice hslice
  exact ⟨slot, hslot, hm ▸ hlen, hm ▸ hslice⟩

theorem transmitHead_waiting (hq : Waiting s s.txTail q) (now : Nat) :
    ∃ t sent q', s.transmitHead now true true = some (t, sent) ∧ SameRx s t ∧
      t.netConfig = s.netConfig ∧ Waiting t t.txTail q' ∧ Sends s now q sent q' t.lastTxTime := by
  have hrx : SameRx s s := ⟨rfl, rfl, rfl, rfl⟩
  by_cases hearly : u32 ((now : Int) - s.lastTxTime) < s.netConfig.minTxInterval
  · refine ⟨s, none, q, ?_, hrx, rfl, hq, .early hearly⟩
    rw [transmitHead, if_neg (by omega)]
  cases q with
  | nil =>
    have htail : s.txTail = s.txHead := by
      generalize htail : s.txTail = i at hq
      cases hq
      rfl
    refine ⟨s, none, [], ?_, hrx, rfl, hq, .idle⟩
    rw [transmitHead, if_neg (by rintro ⟨hne, -⟩; exact hne htail.symm)]
  | cons m q =>
    obtain ⟨hne, hm, hrest⟩ : s.txTail ≠ s.txHead ∧ s.queued s.txTail = some m ∧
        Waiting s (s.txTail + 1) q := by
      generalize s.txTail = i at hq
      cases hq with
      | slot hne hm hrest => exact ⟨hne, hm, hrest⟩
    obtain ⟨slot, hslot, hlen, hslice⟩ := queued_parts hm
    have hdue : s.txHead ≠ s.txTail ∧
        u32 ((now : Int) - s.lastTxTime) ≥ s.netConfig.minTxInterval :=
      ⟨Ne.symm hne, by omega⟩
    by_cases hshort : m.length ≤ 8
    · have htake : canTransmit true true m.length = true := by
        simp [canTransmit, hshort]
      refine ⟨{ s with txTail := s.txTail + 1, lastTxTime := now },
        some (s.netConfig.txId, m), q, ?_, ⟨rfl, rfl, rfl, rfl⟩, rfl, ?_, .head hdue.2 hshort⟩
      · rw [transmitHead, if_pos hdue]
        simp [hslot, hlen, htake, hslice]
      · exact Waiting.congr (s := s) (t := { s with txTail := s.txTail + 1, lastTxTime := now })
          rfl rfl rfl hrest
    · have hrefuse : canTransmit true true m.length = false := by
        simp only [canTransmit, Bool.true_and, Bool.and_true, decide_eq_false_iff_not]
        exact hshort
      refine ⟨s, none, m :: q, ?_, hrx, rfl, hq, .stuck (by omega)⟩
      rw [transmitHead, if_pos hdue]
      simp [hslot, hlen, hrefuse]

/-- **`NetworkHandler_Process`** does to the queue what `Sends` says; the receive
side does not touch it. -/
theorem process_waiting (h : s.Quiet) (hq : Waiting s s.txTail q) (now : Nat) :
    ∃ t out q', s.process now true true = some (t, out) ∧ t.Quiet ∧
      t.netConfig = s.netConfig ∧ Waiting t t.txTail q' ∧
      Sends s now q out.sent q' t.lastTxTime := by
  obtain ⟨s₁, sent, q', h₁, hsame, hconf, hq', hsends⟩ := transmitHead_waiting hq now
  have hquiet : s₁.Quiet := ⟨hsame.init.trans h.init, hsame.start.trans h.start,
    hsame.index.symm ▸ h.index_le⟩
  obtain ⟨t, ht, -, htq, -⟩ := processRxBuffer_eq hquiet
  have htx := processRxBuffer_sameTx ht
  refine ⟨t, ⟨sent, (networkScanner.scan s₁.pending).1⟩, q', ?_, htq, htx.config.trans hconf,
    htx.waiting hq', ?_⟩
  · simp [process, h.init, h₁, ht]
  · rw [htx.time]
    exact hsends

/-- The handler between two events, with `q` waiting. -/
structure Holds (s : NetworkHandler) (q : List (List UInt8)) : Prop where
  quiet : s.Quiet
  waiting : Waiting s s.txTail q

/-- What an event hands over and leaves waiting, and the time of the last
transmission after it. -/
inductive TxMove (s : NetworkHandler) (q : List (List UInt8)) :
    TxEvent → TxOut → List (List UInt8) → Nat → Prop
  | accept {data : List UInt8} : s.txHead + 1 ≠ s.txTail →
      TxMove s q (.send data) ⟨[data], []⟩ (q ++ [data.take 255]) s.lastTxTime
  | refuse {data : List UInt8} : data.length = 0 ∨ s.txHead + 1 = s.txTail →
      TxMove s q (.send data) ⟨[], []⟩ q s.lastTxTime
  | process {now last : Nat} {sent : Option (Nat × List UInt8)} {q' : List (List UInt8)} :
      Sends s now q sent q' last → TxMove s q (.process now) ⟨[], sent.toList⟩ q' last
  | receive {now len : Nat} {data : Buf UInt8 8} :
      TxMove s q (.rx now data len) ⟨[], []⟩ q s.lastTxTime

theorem txStep_spec (h : s.Holds q) (he : e.Wf) :
    ∃ t out q', s.txStep e = some (t, out) ∧ t.Holds q' ∧ t.netConfig = s.netConfig ∧
      TxMove s q e out q' t.lastTxTime := by
  cases e with
  | send data =>
    obtain ⟨t, ok, ht, hquiet, hconf, htime, hq, hroom, hfull⟩ :=
      send_waiting h.quiet h.waiting data
    cases ok with
    | true =>
      exact ⟨t, ⟨[data], []⟩, _, by simp [txStep, ht],
        ⟨hquiet, hq⟩, hconf, htime ▸ .accept (hroom rfl)⟩
    | false =>
      refine ⟨t, ⟨[], []⟩, q, ?_, ⟨hquiet, ?_⟩, hconf, htime ▸ .refuse ?_⟩
      · simp [txStep, ht]
      · rwa [if_neg (by decide), append_nil] at hq
      · by_contra hnot
        simp only [not_or] at hnot
        cases hfull (by omega) hnot.2
  | process now =>
    obtain ⟨t, out, q', ht, hquiet, hconf, hq, hsends⟩ := process_waiting h.quiet h.waiting now
    exact ⟨t, ⟨[], out.sent.toList⟩, q', by simp [txStep, ht], ⟨hquiet, hq⟩, hconf, .process hsends⟩
  | rx now data len =>
    obtain ⟨t, ht, hquiet, hsame⟩ := handleCanRx_sameTx h.quiet now data he.1 he.2
    exact ⟨t, ⟨[], []⟩, q, by simp [txStep, ht],
      ⟨hquiet, hsame.waiting h.waiting⟩, hsame.config, hsame.time ▸ .receive⟩

/-- The books balance: what waited and what was accepted, cut at 255 bytes, has
been transmitted or still waits; and only short strings have been transmitted. -/
structure Account (s : NetworkHandler) (q : List (List UInt8)) (out : TxOut)
    (q' : List (List UInt8)) : Prop where
  balance : q ++ out.accepted.map (List.take 255) = out.transmitted.map Prod.snd ++ q'
  short : ∀ f ∈ out.transmitted, f.1 = s.netConfig.txId ∧ f.2.length ≤ 8

theorem TxMove.account {out : TxOut} (h : TxMove s q e out q' last) : Account s q out q' := by
  cases h with
  | accept _ => exact ⟨rfl, by simp⟩
  | refuse _ | receive => exact ⟨by simp, by simp⟩
  | process hsends =>
    cases hsends with
    | head _ hlen => exact ⟨by simp, by simp [hlen]⟩
    | early _ => exact ⟨by simp, by simp⟩
    | idle => exact ⟨by simp, by simp⟩
    | stuck _ => exact ⟨by simp, by simp⟩

theorem run_account : ∀ (evs : List TxEvent) {s : NetworkHandler} {q : List (List UInt8)},
    s.Holds q → (∀ e ∈ evs, e.Wf) →
    ∃ t outs q', run txStep s evs = some (t, outs) ∧ t.Holds q' ∧ t.netConfig = s.netConfig ∧
      Account s q ⟨accepted outs, transmitted outs⟩ q'
  | [], s, q, h, _ => ⟨s, [], q, rfl, h,
    rfl, by simp [accepted, transmitted], by simp [transmitted]⟩
  | e :: evs, s, q, h, hwf => by
    obtain ⟨s₁, out, q₁, h₁, hq₁, hconf₁, hmove⟩ := txStep_spec h (hwf e mem_cons_self)
    obtain ⟨t, outs, q', hrun, hq', hconf, hacc⟩ := run_account evs hq₁
      fun e' he' => hwf e' (.tail _ he')
    refine ⟨t, out :: outs, q', run_cons.mpr ⟨s₁, out, outs, h₁, hrun, rfl⟩, hq',
      hconf.trans hconf₁, ?_, ?_⟩
    · simp only [accepted_cons, transmitted_cons, map_append]
      rw [← append_assoc, hmove.account.balance, append_assoc, append_assoc]
      exact congrArg _ hacc.balance
    · intro f hf
      simp only [transmitted_cons, mem_append] at hf
      rcases hf with hf | hf
      · exact hmove.account.short f hf
      · exact hconf₁ ▸ hacc.short f hf

/-! ## Progress -/

/-- How many calls of `NetworkHandler_Process` are enough for the first `n` waiting
strings; `prev` is the clock at the last call, if there was one. -/
def budget (s : NetworkHandler) (prev : Option Nat) (n : Nat) : Nat :=
  match prev with
  | none => n + s.netConfig.minTxInterval
  | some c => n + u32 ((c : Int) - s.lastTxTime)

theorem budget_pays {n : Nat} {prev : Option Nat}
    (hspaced : ∀ c ∈ prev, s.netConfig.minTxInterval ≤ u32 ((now : Int) - c))
    (hearly : u32 ((now : Int) - s.lastTxTime) < s.netConfig.minTxInterval)
    (htime : t.lastTxTime = s.lastTxTime) :
    t.budget (some now) n < s.budget prev n := by
  cases prev with
  | none =>
    simp only [budget, htime]
    omega
  | some c =>
    -- The clock has wrapped, and is closer to `lastTxTime` than before.
    have hstep := hspaced c rfl
    simp only [budget, htime, u32] at hstep hearly ⊢
    omega

theorem budget_sent (now n : Nat) (htime : t.lastTxTime = now) : t.budget (some now) n = n := by
  simp only [budget, htime, Int.sub_self]
  rfl

/-- **Progress.** Short strings at the front of the queue are out after as many
spaced calls as their budget, whatever is sent or received in between. -/
theorem run_progress : ∀ (evs : List TxEvent) (front rest : List (List UInt8))
    (prev : Option Nat) {s t : NetworkHandler} {outs : List TxOut},
    s.Holds (front ++ rest) → (∀ m ∈ front, m.length ≤ 8) → (∀ e ∈ evs, e.Wf) →
    Spaced s.netConfig.minTxInterval (prev.toList ++ clocks evs) →
    s.budget prev front.length ≤ (clocks evs).length → run txStep s evs = some (t, outs) →
    front.length ≤ (transmitted outs).length
  | [], front, rest, prev, s, t, outs, _, _, _, _, hbudget, _ => by
    have : front.length ≤ s.budget prev front.length := by
      cases prev <;> exact Nat.le_add_right _ _
    exact (Nat.le_trans this hbudget).trans (Nat.zero_le _)
  | e :: evs, [], rest, prev, s, t, outs, _, _, _, _, _, _ => Nat.zero_le _
  | e :: evs, m :: front, rest, prev, s, t, outs, h, hshort, hwf, hspaced, hbudget, hrun => by
    obtain ⟨s', out, q', hstep, hq', hconf, hmove⟩ := txStep_spec h (hwf e mem_cons_self)
    obtain ⟨outs', hrest, rfl⟩ := (run_cons_of hstep).mp hrun
    have hwf' : ∀ e' ∈ evs, e'.Wf := fun e' he' => hwf e' (.tail _ he')
    have hlater : (transmitted outs').length ≤ (transmitted (out :: outs')).length := by
      rw [transmitted_cons, length_append]
      exact Nat.le_add_left _ _
    -- an event that does not move the clock leaves the budget as it is
    have hsame : clocks (e :: evs) = clocks evs → s'.lastTxTime = s.lastTxTime →
        (∃ new, q' = m :: front ++ new) →
        (m :: front).length ≤ (transmitted outs').length := by
      rintro hclocks htime ⟨new, rfl⟩
      rw [hclocks] at hspaced hbudget
      have hbudget' : s'.budget prev (m :: front).length = s.budget prev (m :: front).length := by
        cases prev <;> simp only [budget, hconf, htime]
      exact run_progress evs (m :: front) new prev hq' hshort hwf' (hconf.symm ▸ hspaced)
        (hbudget' ▸ hbudget) hrest
    generalize hlast : s'.lastTxTime = last at hmove
    cases hmove with
    | accept _ => exact (hsame rfl hlast ⟨_, append_assoc _ _ _⟩).trans hlater
    | refuse _ | receive => exact (hsame rfl hlast ⟨_, rfl⟩).trans hlater
    | @process now _ sent _ hsends =>
      have hprev : ∀ c ∈ prev, s.netConfig.minTxInterval ≤ u32 ((now : Int) - c) := by
        intro c hc
        obtain rfl : prev = some c := hc
        exact (isChain_cons_cons.mp hspaced).1
      have hnext : Spaced s'.netConfig.minTxInterval ((some now).toList ++ clocks evs) :=
        hconf.symm ▸ List.IsChain.right_of_append hspaced
      have hpaid : s.budget prev (m :: front).length ≤ (clocks evs).length + 1 := hbudget
      cases hsends with
      | head _ _ =>
        have hn : front.length + 1 ≤ s.budget prev (m :: front).length := by
          cases prev <;> exact Nat.le_add_right _ _
        have hout := run_progress evs front rest (some last) hq'
          (fun m' hm' => hshort m' (.tail _ hm')) hwf' hnext
          (by rw [budget_sent last _ hlast]; omega) hrest
        rw [length_cons, transmitted_cons, length_append]
        exact Nat.add_comm 1 _ ▸ Nat.add_le_add_left hout 1
      | early hearly =>
        have hless := budget_pays (n := (m :: front).length) hprev hearly hlast
        exact Nat.le_trans (run_progress evs (m :: front) rest (some now) hq' hshort hwf' hnext
          (by omega) hrest) hlater
      | stuck hlong => exact absurd (hshort m mem_cons_self) (by omega)

/-! ## Delivery -/

def frames (s : NetworkHandler) (ms : List (List UInt8)) : List (Nat × List UInt8) :=
  ms.map fun m => (s.netConfig.txId, m)

theorem Account.frames {outs : List TxOut} (h : Account s [] ⟨accepted outs, transmitted outs⟩ q') :
    transmitted outs <+: s.frames (accepted outs) := by
  have hbal : (accepted outs).map (List.take 255) = (transmitted outs).map Prod.snd ++ q' :=
    h.balance
  have hshort : ∀ f ∈ transmitted outs, f.1 = s.netConfig.txId ∧ f.2.length ≤ 8 := h.short
  generalize accepted outs = ms at hbal
  generalize transmitted outs = fs at hbal hshort
  induction fs generalizing ms with
  | nil => exact nil_prefix
  | cons f fs ih =>
    cases ms with
    | nil => cases hbal
    | cons m ms =>
      simp only [map_cons, cons_append, List.cons.injEq] at hbal
      obtain ⟨hid, hlen⟩ := hshort f mem_cons_self
      have hm : m = f.2 := by
        rw [← hbal.1, length_take] at hlen
        rw [← hbal.1, take_of_length_le (by omega)]
      have hf : f = (s.netConfig.txId, m) := Prod.ext hid hm.symm
      rw [NetworkHandler.frames, map_cons, hf, cons_prefix_cons]
      exact ⟨rfl, ih ms hbal.2 fun f' hf' => hshort f' (.tail _ hf')⟩

theorem along_shortSend_iff : ∀ (evs : List TxEvent) {s t : NetworkHandler} {outs : List TxOut}
    {q : List (List UInt8)}, s.Holds q → (∀ e ∈ evs, e.Wf) → run txStep s evs = some (t, outs) →
    (Along txStep ShortSend s evs ↔ ∀ m ∈ accepted outs, m.length ≤ 8)
  | [], s, t, outs, q, _, _, hrun => by
    obtain ⟨-, rfl⟩ : s = t ∧ [] = outs := by simpa [run] using hrun
    simp [Along, accepted]
  | e :: evs, s, t, outs, q, h, hwf, hrun => by
    obtain ⟨s', out, q', hstep, hq', -, hmove⟩ := txStep_spec h (hwf e mem_cons_self)
    obtain ⟨outs', hrest, rfl⟩ := (run_cons_of hstep).mp hrun
    have ih := along_shortSend_iff evs hq'
      (fun e' he' => hwf e' (.tail _ he')) hrest
    have hnow : s.ShortSend e ↔ ∀ m ∈ out.accepted, m.length ≤ 8 := by
      generalize s'.lastTxTime = last at hmove
      cases hmove with
      | accept hroom => simp [ShortSend, hroom]
      | refuse hno =>
        simp only [ShortSend, not_mem_nil, false_imp_iff, implies_true, iff_true]
        rcases hno with hzero | hfull
        · exact Or.inl (by omega)
        · exact Or.inr hfull
      | process _ | receive => simp [ShortSend]
    rw [along_cons_of hstep, hnow, ih, accepted_cons, forall_mem_append]

/-- Every message a run accepts is transmitted exactly once, in the order of acceptance and with all
its bytes, and completely after `min_tx_interval + 15` further calls of `NetworkHandler_Process` at
least `min_tx_interval` apart, whatever else happens between them. -/
def Delivers (s : NetworkHandler) (evs : List TxEvent) : Prop :=
  ∃ t outs, run txStep s evs = some (t, outs) ∧
    transmitted outs <+: s.frames (accepted outs) ∧
    ∀ cont : List TxEvent, (∀ e ∈ cont, e.Wf) →
      Spaced s.netConfig.minTxInterval (clocks cont) →
      s.netConfig.minTxInterval + 15 ≤ (clocks cont).length →
      ∃ t' outs', run txStep t cont = some (t', outs') ∧
        transmitted (outs ++ outs') <+: s.frames (accepted (outs ++ outs')) ∧
        s.frames (accepted outs) <+: transmitted (outs ++ outs')

theorem Fresh.delivers (h : s.Fresh) (hwf : ∀ e ∈ evs, e.Wf)
    (hok : Along txStep ShortSend s evs) : s.Delivers evs := by
  have hstart : s.Holds [] := ⟨h.quiet, h.empty.symm ▸ .done⟩
  obtain ⟨t, outs, q, hrun, hq, hconf, hacc⟩ := run_account evs hstart hwf
  have hshort := (along_shortSend_iff evs hstart hwf hrun).mp hok
  refine ⟨t, outs, hrun, hacc.frames, ?_⟩
  intro cont hcont hspaced hmany
  obtain ⟨t', outs', q', hrun', -, -, hacc'⟩ := run_account cont hq hcont
  -- the whole run, for the order of what has gone out by its end
  obtain ⟨t₂, outs₂, q₂, hrun₂, -, -, hacc₂⟩ := run_account (evs ++ cont) hstart (by
    intro e he
    rcases mem_append.mp he with he | he
    · exact hwf e he
    · exact hcont e he)
  cases (run_append hrun hrun').symm.trans hrun₂
  refine ⟨t', outs', hrun', hacc₂.frames, ?_⟩
  have hq8 : ∀ m ∈ q, m.length ≤ 8 := by
    intro m hm
    have hbal : (accepted outs).map (List.take 255) = (transmitted outs).map Prod.snd ++ q :=
      hacc.balance
    have hmem : m ∈ (accepted outs).map (List.take 255) := by
      rw [hbal]
      exact mem_append_right _ hm
    obtain ⟨m', hm', rfl⟩ := mem_map.mp hmem
    have := hshort m' hm'
    rw [length_take]
    omega
  have hsent : q.length ≤ (transmitted outs').length := by
    refine run_progress cont q [] none
      ((append_nil q).symm ▸ hq) hq8 hcont (hconf.symm ▸ hspaced) ?_ hrun'
    have := hq.waiting.length_le
    simp only [budget, hconf]
    omega
  -- both lists are prefixes of everything accepted, so the shorter one comes first
  have hall : s.frames (accepted outs) <+: s.frames (accepted (outs ++ outs')) := by
    rw [accepted, accepted, flatMap_append, NetworkHandler.frames, NetworkHandler.frames,
      map_append]
    exact prefix_append _ _
  refine prefix_of_prefix_length_le hall hacc₂.frames ?_
  have hcount := congrArg List.length hacc.balance
  simp only [nil_append, length_map, length_append] at hcount
  rw [NetworkHandler.frames, length_map, transmitted_append, length_append]
  omega

theorem spaced_multiples (hd : d < 4294967296) (n : Nat) :
    Spaced d ((List.range n).map (· * d)) := by
  rw [Spaced, isChain_map]
  cases n with
  | zero => exact List.IsChain.nil
  | succ n =>
    rw [isChain_range_succ]
    intro k _
    have hstep : ((k.succ * d : Nat) : Int) - (k * d : Nat) = d := by
      rw [Nat.succ_mul]
      omega
    rw [hstep, u32_of_lt hd]

theorem clocks_process (times : List Nat) : clocks (times.map TxEvent.process) = times := by
  induction times with
  | nil => rfl
  | cons now times ih => exact congrArg (now :: ·) ih

/-- A string of more than eight bytes is never transmitted, so a run that delivers
has accepted none. -/
theorem Fresh.short_of_delivers (h : s.Fresh) (hwf : ∀ e ∈ evs, e.Wf) :
    s.Delivers evs → Along txStep ShortSend s evs := by
  rintro ⟨t, outs, hrun, -, hcont⟩
  have hstart : s.Holds [] := ⟨h.quiet, h.empty.symm ▸ .done⟩
  refine (along_shortSend_iff evs hstart hwf hrun).mpr ?_
  let n := s.netConfig.minTxInterval + 15
  let times := (List.range n).map (· * s.netConfig.minTxInterval)
  have hwf' : ∀ e ∈ times.map TxEvent.process, e.Wf := by
    intro e he
    obtain ⟨now, -, rfl⟩ := mem_map.mp he
    trivial
  obtain ⟨t', outs', hrun', -, hall⟩ := hcont (times.map TxEvent.process) hwf'
    (by rw [clocks_process]; exact spaced_multiples h.interval_lt n)
    (by rw [clocks_process, length_map, length_range])
  -- only short strings are ever transmitted
  obtain ⟨t₂, outs₂, q₂, hrun₂, -, -, hacc⟩ := run_account (evs ++ times.map TxEvent.process)
    hstart (by
      intro e he
      rcases mem_append.mp he with he | he
      · exact hwf e he
      · exact hwf' e he)
  cases (run_append hrun hrun').symm.trans hrun₂
  intro m hm
  exact (hacc.short (s.netConfig.txId, m) (hall.subset (mem_map.mpr ⟨m, hm, rfl⟩))).2

/-- **Delivery.** A run `Delivers` what it accepts if and only if no string of more than eight
bytes was accepted: `CAN_Transmit` refuses it each time, and everything behind it waits. -/
theorem accepted_delivered_iff {s : NetworkHandler} (h : s.Fresh) (evs : List TxEvent)
    (hwf : ∀ e ∈ evs, e.Wf) : s.Delivers evs ↔ Along txStep ShortSend s evs :=
  ⟨h.short_of_delivers hwf, h.delivers hwf⟩

theorem idleHandler_fresh : idleHandler.Fresh :=
  ⟨⟨rfl, rfl, by decide⟩, rfl, by decide⟩

theorem accepted_delivered_idle :
    idleHandler.Fresh ∧
      idleHandler.Delivers [.send [0x3E, 0x00], .process 20, .send [1, 2, 3, 4, 5, 6, 7, 8]] :=
  ⟨idleHandler_fresh, (accepted_delivered_iff idleHandler_fresh
    [.send [0x3E, 0x00], .process 20, .send [1, 2, 3, 4, 5, 6, 7, 8]]
    (by simp [TxEvent.Wf])).mpr (by decide +kernel)⟩

/-- Nine bytes are accepted and never delivered. -/
theorem nine_bytes_accepted_not_delivered :
    (run txStep idleHandler [.send [1, 2, 3, 4, 5, 6, 7, 8, 9]]).map (fun r => accepted r.2)
        = some [[1, 2, 3, 4, 5, 6, 7, 8, 9]] ∧
      ¬ idleHandler.Delivers [.send [1, 2, 3, 4, 5, 6, 7, 8, 9]] := by
  refine ⟨by decide +kernel, ?_⟩
  intro h
  have hshort := idleHandler_fresh.short_of_delivers (by simp [TxEvent.Wf]) h
  revert hshort
  decide +kernel

end NetworkHandler

end Cant.Network
