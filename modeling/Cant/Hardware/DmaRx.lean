/-
# `DmaRx` — the receive-complete interrupt of the DMA (`interrupt_handler.c`)

`process_dma_rx` passes `sizeof(dma_buffer) - NDTR` bytes from `dma_index` on to the message
handler, and sets the index back to zero if `dma_index + NDTR`, not `dma_index` and what
was received, is more than the buffer holds. The two agree on few values: what is
passed lies inside the buffer just if the index is at most `NDTR` (`passed_inside_iff`).

`NDTR` is a register of the DMA and is read twice, so an interrupt comes with two values of it.
-/
import Cant.Lib.Past
import Cant.Network.MessageHandler

namespace Cant.Hardware

open Cant.Network Past Run Word

/-- The statics of `process_dma_rx`, and the message handler it calls. -/
structure DmaRx where
  dmaIndex : Nat
  handler : MessageHandler

/-- What an interrupt finds: the buffer, and `NDTR` at the first and the second read. -/
structure DmaInterrupt where
  dmaBuffer : Buf UInt8 64
  ndtr : Fin 65
  ndtr' : Fin 65

/-- What was passed to the message handler: from where, and how many bytes. -/
structure Passed where
  index : Nat
  received : Nat

/-- `MessageHandler_HandleResponse(&buffer[index], len)`: the bytes are read only if they are
taken. -/
def handleResponseAt (s : MessageHandler) (buffer : Buf UInt8 64) (index len : Nat) :
    Option (MessageHandler × List (List UInt8)) :=
  if ¬ s.msgHandlerInit ∨ len = 0 then some (s, [])
  else if u32 (s.rxLen + len) > 512 then some ({ s with rxLen := 0 }, [])
  else do
    let data ← buffer.slice index len
    s.handleResponse data

namespace DmaRx

def guarded (s : DmaRx) (ndtr : Fin 65) : Nat :=
  if u32 (s.dmaIndex + ndtr.val) > 64 then 0 else s.dmaIndex

def processDmaRx (s : DmaRx) (i : DmaInterrupt) : Option (DmaRx × Passed) := do
  let dmaIndex := s.guarded i.ndtr
  let received := u32 (64 - i.ndtr'.val)
  let (handler, _) ← handleResponseAt s.handler i.dmaBuffer dmaIndex received
  some (⟨u32 (dmaIndex + received) % 64, handler⟩, ⟨dmaIndex, received⟩)

abbrev Entry := Taken DmaRx DmaInterrupt Passed

def Inside (e : Entry) (_ : List Entry) : Prop := e.output.index + e.output.received ≤ 64

def Behind (x : List Entry × DmaRx) (i : DmaInterrupt) : Prop := x.2.guarded i.ndtr ≤ i.ndtr'.val
  deriving Decidable

/-! ## The message handler -/

theorem handleResponseAt_total {s : MessageHandler} (hs : s.rxLen ≤ 512) (buffer : Buf UInt8 64)
    {index len : Nat} (hin : index + len ≤ 64) :
    ∃ s' msgs, handleResponseAt s buffer index len = some (s', msgs) ∧ s'.rxLen ≤ 512 := by
  unfold handleResponseAt
  split
  · exact ⟨s, [], rfl, hs⟩
  case isFalse hguard =>
    obtain ⟨hinit, hpos⟩ := not_or.mp hguard
    split
    · exact ⟨{ s with rxLen := 0 }, [], rfl, Nat.zero_le _⟩
    case isFalse hfits =>
      have hsum : u32 ((s.rxLen : Int) + len) = s.rxLen + len :=
        u32_of_lt (n := s.rxLen + len) (by omega)
      have hlen : ((buffer.elems.drop index).take len).length = len := by
        rw [List.length_take, List.length_drop, buffer.size_eq]
        omega
      have hne : (buffer.elems.drop index).take len ≠ [] := by
        intro hnil
        rw [hnil] at hlen
        exact hpos hlen.symm
      obtain ⟨s', hs', -, hle, -⟩ := MessageHandler.handleResponse_eq (not_not.mp hinit) hne
        (by omega)
      rw [Buf.slice_eq_some hin]
      exact ⟨s', _, hs', by omega⟩

theorem processDmaRx_total {s : DmaRx} {i : DmaInterrupt} (hs : s.handler.rxLen ≤ 512)
    (hbehind : s.guarded i.ndtr ≤ i.ndtr'.val) :
    ∃ s', s.processDmaRx i = some (s', ⟨s.guarded i.ndtr, 64 - i.ndtr'.val⟩) ∧
      s'.handler.rxLen ≤ 512 := by
  have hreceived : u32 ((64 : Int) - i.ndtr'.val) = 64 - i.ndtr'.val := by
    unfold u32
    omega
  have hin : s.guarded i.ndtr + (64 - i.ndtr'.val) ≤ 64 := by omega
  obtain ⟨handler, msgs, hcall, hle⟩ := handleResponseAt_total hs i.dmaBuffer hin
  refine ⟨⟨u32 (s.guarded i.ndtr + (64 - i.ndtr'.val : Nat)) % 64, handler⟩, ?_, hle⟩
  simp [processDmaRx, hreceived, hcall]

theorem passed_of_processDmaRx {s s' : DmaRx} {i : DmaInterrupt} {o : Passed}
    (h : s.processDmaRx i = some (s', o)) :
    o = ⟨s.guarded i.ndtr, 64 - i.ndtr'.val⟩ ∧
      s'.dmaIndex = u32 (s.guarded i.ndtr + (64 - i.ndtr'.val : Nat)) % 64 := by
  have hreceived : u32 ((64 : Int) - i.ndtr'.val) = 64 - i.ndtr'.val := by
    unfold u32
    omega
  simp only [processDmaRx, Option.bind_eq_bind, Option.bind_eq_some_iff, Option.some.injEq,
    Prod.mk.injEq, hreceived] at h
  obtain ⟨_, -, rfl, rfl⟩ := h
  exact ⟨rfl, rfl⟩

end DmaRx

/-- **What is passed lies inside the buffer**, in every run of interrupts, just if at every
interrupt the index, after the guard, is at most `NDTR`. -/
theorem passed_inside_iff (handler : MessageHandler) (hhandler : handler.rxLen ≤ 512)
    (interrupts : List DmaInterrupt) :
    Throughout (logged DmaRx.processDmaRx) (fun x => Historically DmaRx.Inside x.1)
        ([], ⟨0, handler⟩) interrupts ↔
      Along (logged DmaRx.processDmaRx) DmaRx.Behind ([], ⟨0, handler⟩) interrupts := by
  refine historically_iff (fun x => x.2.handler.rxLen ≤ 512) ?_ ?_ interrupts hhandler trivial
  · intro x i hx
    constructor
    · intro hbehind
      obtain ⟨s', hs', -⟩ := DmaRx.processDmaRx_total hx hbehind
      refine ⟨s', _, hs', ?_⟩
      show x.2.guarded i.ndtr + (64 - i.ndtr'.val) ≤ 64
      have hle : x.2.guarded i.ndtr ≤ i.ndtr'.val := hbehind
      omega
    · rintro ⟨s', o, hs', hinside⟩
      obtain ⟨rfl, -⟩ := DmaRx.passed_of_processDmaRx hs'
      have hle : x.2.guarded i.ndtr + (64 - i.ndtr'.val) ≤ 64 := hinside
      show x.2.guarded i.ndtr ≤ i.ndtr'.val
      omega
  · intro x i s' o hx hbehind hs'
    obtain ⟨s₁, hs₁, hle⟩ := DmaRx.processDmaRx_total hx hbehind
    cases hs₁.symm.trans hs'
    exact hle

def quietInterrupt (ndtr : Fin 65) : DmaInterrupt := ⟨Buf.fill 64 0, ndtr, ndtr⟩

/-- 32 bytes, and 32 again. -/
theorem passed_inside_halves :
    (MessageHandler.fresh (Buf.fill 512 0)).rxLen ≤ 512 ∧
      Throughout (logged DmaRx.processDmaRx) (fun x => Historically DmaRx.Inside x.1)
        ([], ⟨0, MessageHandler.fresh (Buf.fill 512 0)⟩)
        [quietInterrupt 32, quietInterrupt 32] := by
  have hlen : (MessageHandler.fresh (Buf.fill 512 0)).rxLen ≤ 512 := Nat.zero_le _
  refine ⟨hlen, (passed_inside_iff _ hlen _).mpr ?_⟩
  decide +kernel

/-- 40 bytes, and then 44: the second time 44 bytes are passed from index 40 on. -/
theorem passed_outside :
    ¬ Throughout (logged DmaRx.processDmaRx) (fun x => Historically DmaRx.Inside x.1)
        ([], ⟨0, MessageHandler.fresh (Buf.fill 512 0)⟩)
        [quietInterrupt 24, quietInterrupt 20] := by
  rintro ⟨-, x₁, o₁, h₁, -, x₂, o₂, h₂, hlog⟩
  obtain ⟨s₁, hs₁, rfl⟩ := logged_iff.mp h₁
  obtain ⟨s₂, hs₂, rfl⟩ := logged_iff.mp h₂
  have hindex : s₁.dmaIndex = 40 := (DmaRx.passed_of_processDmaRx hs₁).2
  have hguard : s₁.guarded 20 = 40 := by
    rw [DmaRx.guarded, hindex]
    rfl
  have hpassed : o₂ = ⟨s₁.guarded 20, 44⟩ := (DmaRx.passed_of_processDmaRx hs₂).1
  rw [hguard] at hpassed
  have hinside : o₂.index + o₂.received ≤ 64 := hlog.1
  rw [hpassed] at hinside
  exact absurd hinside (by decide)

end Cant.Hardware
