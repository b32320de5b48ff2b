/-
# `MessageHandler` — the response parser may be fed in any pieces

`message_handler.c` collects response bytes in `rx_buffer[512]` and cuts frames `0x55, length,
payload, checksum, 0xAA` out of it.

The parser is `messageScanner`, so feeding pieces is scanning the whole stream;
what remains is that the loop computes it and that the buffer is large enough. A
parser that waits has fewer than four bytes or sees a frame of at most 259 bytes
incomplete, so at most 258 bytes are ever left over (`length_le_of_next_none`), and
a piece of at most 254 always fits.
-/
import Cant.Lib.Run
import Cant.Network.Frame

namespace Cant.Network

open Word Run Cant.Stream List

/-- `message_handler.c` sums the header and the payload and resynchronises one
byte on. -/
def messageRule : FrameRule where
  summed len := len + 2
  skip _ := 1
  summed_le _ := .refl
  skip_pos _ := Nat.one_pos
  skip_le _ := by omega

def messageScanner : Scanner UInt8 (List UInt8) := frameScanner messageRule

/-- The receive side of `message_handler.c`. -/
structure MessageHandler where
  rxBuffer : Buf UInt8 512
  rxLen : Nat
  msgHandlerInit : Bool

namespace MessageHandler

def pending (s : MessageHandler) : List UInt8 := s.rxBuffer.elems.take s.rxLen

/-- `process_rx_buffer`: the new state and the messages handed to
`DiagRouter_HandleMessage`. -/
def processRxBuffer (s : MessageHandler) : Option (MessageHandler × List (List UInt8)) := do
  let (processed, msgs) ←
    Scanner.drain (framePass messageRule s.rxBuffer s.rxLen) (s.rxLen + 1) 0
  if processed > 0 then
    if processed < s.rxLen then do
      let rest ← s.rxBuffer.slice processed (s.rxLen - processed)
      let moved ← s.rxBuffer.blit 0 rest
      some ({ s with rxBuffer := moved, rxLen := u16 (s.rxLen - processed) }, msgs)
    else some ({ s with rxLen := 0 }, msgs)
  else some (s, msgs)

def handleResponse (s : MessageHandler) (data : List UInt8) :
    Option (MessageHandler × List (List UInt8)) :=
  if ¬ s.msgHandlerInit ∨ data.length = 0 then some (s, [])
  else if u32 (s.rxLen + data.length) > 512 then some ({ s with rxLen := 0 }, [])
  else do
    let filled ← s.rxBuffer.blit s.rxLen data
    processRxBuffer { s with rxBuffer := filled, rxLen := u16 (s.rxLen + data.length) }

variable {s : MessageHandler}

theorem length_pending (h : s.rxLen ≤ 512) : s.pending.length = s.rxLen := by
  rw [pending, length_take, s.rxBuffer.size_eq]
  omega

theorem processRxBuffer_eq (h : s.rxLen ≤ 512) :
    ∃ s', s.processRxBuffer = some (s', (messageScanner.scan s.pending).1) ∧
      s'.pending = (messageScanner.scan s.pending).2 ∧ s'.rxLen ≤ s.rxLen ∧
      s'.msgHandlerInit = s.msgHandlerInit := by
  obtain ⟨p, hd, hp, hrest⟩ := drain_framePass messageRule s.rxBuffer h (by omega)
  change s.pending.drop p = (messageScanner.scan s.pending).2 at hrest
  change Scanner.drain _ _ _ = some (p, (messageScanner.scan s.pending).1) at hd
  simp only [processRxBuffer, some_bind hd]
  have hlen := length_pending h
  by_cases hzero : p > 0
  · rw [if_pos hzero]
    by_cases hall : p < s.rxLen
    · rw [if_pos hall]
      obtain ⟨rest, moved, hslice, hblit, hfront⟩ := s.rxBuffer.moveFront h hp
      have hu : u16 (s.rxLen - p) = s.rxLen - p := by unfold u16; omega
      refine ⟨{ s with rxBuffer := moved, rxLen := s.rxLen - p }, ?_, hfront.trans hrest, ?_, rfl⟩
      · simp [hslice, hblit, hu]
      · show s.rxLen - p ≤ s.rxLen
        omega
    · rw [if_neg hall]
      refine ⟨{ s with rxLen := 0 }, rfl, ?_, Nat.zero_le _, rfl⟩
      rw [← hrest, drop_of_length_le (by omega)]
      exact take_zero
  · obtain rfl : p = 0 := by omega
    exact ⟨s, rfl, hrest, .refl, rfl⟩

variable {data : List UInt8}

theorem handleResponse_eq (hinit : s.msgHandlerInit = true) (hne : data ≠ [])
    (hfit : s.rxLen + data.length ≤ 512) :
    ∃ s', s.handleResponse data = some (s', (messageScanner.scan (s.pending ++ data)).1) ∧
      s'.pending = (messageScanner.scan (s.pending ++ data)).2 ∧
      s'.rxLen ≤ s.rxLen + data.length ∧ s'.msgHandlerInit = true := by
  have hpos : 0 < data.length := length_pos_iff.mpr hne
  obtain ⟨filled, hblit, -⟩ := s.rxBuffer.blit_eq_some s.rxLen data hfit
  have h32 : u32 (s.rxLen + data.length) = s.rxLen + data.length :=
    u32_of_lt (n := s.rxLen + data.length) (by omega)
  have h16 : u16 (s.rxLen + data.length) = s.rxLen + data.length :=
    u16_of_lt (n := s.rxLen + data.length) (by omega)
  have hpend := Buf.take_of_blit hblit
  obtain ⟨s', hs', hrest, hle, hi⟩ := processRxBuffer_eq
    (s := { s with rxBuffer := filled, rxLen := s.rxLen + data.length }) hfit
  rw [show pending { s with rxBuffer := filled, rxLen := s.rxLen + data.length }
    = s.pending ++ data from hpend] at hs' hrest
  refine ⟨s', ?_, hrest, hle, hi.trans hinit⟩
  simp only [handleResponse, h32, h16, some_bind hblit]
  rw [if_neg (by simp only [hinit, not_true, false_or]; omega), if_neg (by omega), hs']

/-! ## Calls in sequence -/

/-- What holds between calls: the handler is initialised and its parser waits. -/
structure Ready (s : MessageHandler) : Prop where
  init : s.msgHandlerInit = true
  len_le : s.rxLen ≤ 512
  waits : messageScanner.next s.pending = none

theorem Ready.room (h : s.Ready) (hle : data.length ≤ 254) : s.rxLen + data.length ≤ 512 := by
  have hwait := length_le_of_next_none h.waits
  rw [length_pending h.len_le] at hwait
  omega

theorem Ready.step (h : s.Ready) (hne : data ≠ []) (hle : data.length ≤ 254) :
    ∃ s' msgs, s.handleResponse data = some (s', msgs) ∧ s'.Ready ∧
      ∀ ms, messageScanner.feed (ms, s.pending) data = (ms ++ msgs, s'.pending) := by
  have hroom := h.room hle
  obtain ⟨s', hs', hrest, hlen, hinit⟩ := handleResponse_eq h.init hne hroom
  refine ⟨s', _, hs', ⟨hinit, hlen.trans hroom, ?_⟩, fun ms => ?_⟩
  · rw [hrest]
    exact messageScanner.next_scan_rest _
  · rw [hrest]
    rfl

theorem run_eq_feed : ∀ (chunks : List (List UInt8)) {s : MessageHandler}, s.Ready →
    (∀ c ∈ chunks, c ≠ [] ∧ c.length ≤ 254) →
    ∃ s' outs, run handleResponse s chunks = some (s', outs) ∧ s'.Ready ∧
      ∀ ms, chunks.foldl messageScanner.feed (ms, s.pending) = (ms ++ outs.flatten, s'.pending)
  | [], s, h, _ => ⟨s, [], rfl, h, fun ms => by simp⟩
  | c :: cs, s, h, hc => by
    obtain ⟨hne, hle⟩ := hc c mem_cons_self
    obtain ⟨s₁, msgs, h₁, hready, hfeed⟩ := h.step hne hle
    obtain ⟨s₂, outs, h₂, hready', hrun⟩ :=
      run_eq_feed cs hready fun d hd => hc d (.tail _ hd)
    refine ⟨s₂, msgs :: outs, run_cons.mpr ⟨s₁, msgs, outs, h₁, h₂, rfl⟩, hready', fun ms => ?_⟩
    rw [foldl_cons, hfeed, hrun, flatten_cons, append_assoc]

/-- Pieces that fit the buffer all together are scanned as one, whatever their
sizes: what has been routed and what the buffer keeps make up the scan. -/
theorem run_eq_scan : ∀ (chunks : List (List UInt8)) {s : MessageHandler},
    s.msgHandlerInit = true → (∀ c ∈ chunks, c ≠ []) →
    s.rxLen + chunks.flatten.length ≤ 512 → messageScanner.next s.pending = none →
    ∃ s' outs, run handleResponse s chunks = some (s', outs) ∧
      messageScanner.scan (s.pending ++ chunks.flatten) = (outs.flatten, s'.pending)
  | [], s, _, _, _, hwait => ⟨s, [], rfl, by simpa using messageScanner.scan_of_none hwait⟩
  | c :: cs, s, hinit, hne, hfit, _ => by
    rw [flatten_cons, length_append] at hfit
    obtain ⟨s₁, h₁, hrest, hlen, hinit₁⟩ :=
      handleResponse_eq hinit (hne c mem_cons_self) (by omega)
    obtain ⟨s₂, outs, h₂, hscan⟩ := run_eq_scan cs hinit₁
      (fun d hd => hne d (.tail _ hd)) (by omega)
      (by rw [hrest]; exact messageScanner.next_scan_rest _)
    refine ⟨s₂, _ :: outs, run_cons.mpr ⟨s₁, _, outs, h₁, h₂, rfl⟩, ?_⟩
    rw [flatten_cons, ← append_assoc, messageScanner.scan_append, ← hrest, hscan, flatten_cons]

/-- The handler after `MessageHandler_Init`, with whatever the buffer holds. -/
def fresh (buffer : Buf UInt8 512) : MessageHandler := ⟨buffer, 0, true⟩

theorem fresh_ready (buffer : Buf UInt8 512) : (fresh buffer).Ready :=
  ⟨rfl, Nat.zero_le _, rfl⟩

end MessageHandler

/-- **The response parser may be fed in any pieces.** However a stream is cut into pieces of 1 to
254 bytes, every call returns, each piece fits behind what is buffered, and together the calls route
the messages of the whole stream and leave its rest. -/
theorem handleResponse_pieces (buffer : Buf UInt8 512) (chunks : List (List UInt8))
    (hchunks : ∀ c ∈ chunks, c ≠ [] ∧ c.length ≤ 254) :
    ∃ s outs,
      run MessageHandler.handleResponse (.fresh buffer) chunks = some (s, outs) ∧
      outs.flatten = (messageScanner.scan chunks.flatten).1 ∧
      s.pending = (messageScanner.scan chunks.flatten).2 ∧
      (∀ pre c post, chunks = pre ++ c :: post →
        ∃ t os, run MessageHandler.handleResponse (.fresh buffer) pre = some (t, os) ∧
          u32 (t.rxLen + c.length) ≤ 512) ∧
      (chunks.flatten ≠ [] → chunks.flatten.length ≤ 512 →
        ∃ t, (MessageHandler.fresh buffer).handleResponse chunks.flatten = some (t, outs.flatten) ∧
          t.pending = s.pending) := by
  obtain ⟨s, outs, hrun, -, hfeed⟩ :=
    MessageHandler.run_eq_feed chunks (MessageHandler.fresh_ready buffer) hchunks
  have hscan : (outs.flatten, s.pending) = messageScanner.scan chunks.flatten := by
    have h := hfeed []
    rw [show (MessageHandler.fresh buffer).pending = [] from take_zero,
      messageScanner.feedAll_eq_scan] at h
    exact h.symm
  refine ⟨s, outs, hrun, congrArg Prod.fst hscan, congrArg Prod.snd hscan, ?_, ?_⟩
  · rintro pre c post rfl
    obtain ⟨t, os, ht, hready, -⟩ :=
      MessageHandler.run_eq_feed pre (MessageHandler.fresh_ready buffer)
        fun d hd => hchunks d (mem_append_left _ hd)
    have hroom := hready.room (hchunks c (by simp)).2
    refine ⟨t, os, ht, ?_⟩
    rw [show ((t.rxLen : Int) + (c.length : Int)) = ((t.rxLen + c.length : Nat) : Int) by simp,
      u32_of_lt (by omega)]
    exact hroom
  · intro hne hle
    obtain ⟨t, ht, hrest, -⟩ := MessageHandler.handleResponse_eq
      (s := MessageHandler.fresh buffer) rfl hne (by simpa [MessageHandler.fresh] using hle)
    rw [show (MessageHandler.fresh buffer).pending = [] from take_zero, nil_append] at ht hrest
    rw [← hscan] at ht hrest
    exact ⟨t, ht, hrest⟩

/-- A frame cut inside its header and inside its payload, behind one stray byte. -/
theorem handleResponse_pieces_cut :
    ∃ s outs,
      run MessageHandler.handleResponse (.fresh (Buf.fill 512 0))
        [[0x00, 0x55], [0x02, 0x01], [0x02, 0x5A, 0xAA]] = some (s, outs) ∧
      outs.flatten = [[0x01, 0x02]] ∧ s.pending = [] := by
  obtain ⟨s, outs, hrun, hmsgs, hrest, -⟩ :=
    handleResponse_pieces (Buf.fill 512 0) [[0x00, 0x55], [0x02, 0x01], [0x02, 0x5A, 0xAA]]
      (by decide)
  exact ⟨s, outs, hrun, hmsgs.trans (by decide), hrest.trans (by decide)⟩

end Cant.Network
