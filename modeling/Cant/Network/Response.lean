/-
# `Response` — a diagnostic response on its way to a parser

`send_diagnostic_response` builds `0x55, length, payload, checksum, 0xAA` and queues it.
The length byte takes payloads up to 255, the local array takes them, and so
does the checksum's `uint8_t` length as long as `length + 2` fits. The queue
does not: `NetworkHandler_Send` keeps 255 bytes of the `length + 4`, so from 252
payload bytes on the frame loses its end and both parsers wait for it forever.
-/
import Cant.Network.MessageHandler
import Cant.Network.NetworkHandler

namespace Cant.Network

open Word Run Cant.Stream List

/-- The string `q`, in whatever pieces it reaches an empty `message_handler.c`,
makes it route exactly `payload`. -/
def ParsedByMessageHandler (q payload : List UInt8) : Prop :=
  ∀ (buffer : Buf UInt8 512) (chunks : List (List UInt8)), (∀ c ∈ chunks, c ≠ []) →
    chunks.flatten = q →
    ∃ s outs, run MessageHandler.handleResponse (.fresh buffer) chunks = some (s, outs) ∧
      outs.flatten = [payload]

/-- The string `q`, in whatever CAN frames and with whatever calls of
`NetworkHandler_Process` between them it reaches a `network_handler.c` with an
empty receive side, makes it route exactly `payload` by the next call. -/
def ParsedByNetworkHandler (q payload : List UInt8) : Prop :=
  ∀ r : NetworkHandler, r.canInitialized = true → r.rxIndex = 0 → r.frameStart = 0 →
    ∀ evs : List NetEvent, (∀ e ∈ evs, e.Wf) → evs.flatMap NetEvent.bytes = q →
    ∀ (now : Nat) (initDone halOk : Bool),
    ∃ t outs, run NetworkHandler.step r (evs ++ [.process now initDone halOk]) = some (t, outs) ∧
      outs.flatten = [payload]

/-! ## Both parsers answer with the scan of the string

That a parser routes the scan whatever the pieces gives one direction; the other
reads the answer off one particular cutting, a byte a piece. -/

theorem flatten_bytes (q : List UInt8) : (q.map fun b => [b]).flatten = q := by
  induction q with
  | nil => rfl
  | cons b q ih => rw [map_cons, flatten_cons, ih, singleton_append]

variable {payload q : List UInt8}

theorem run_fresh (hq : q.length ≤ 512) (buffer : Buf UInt8 512) {chunks : List (List UInt8)}
    (hne : ∀ c ∈ chunks, c ≠ []) (hflat : chunks.flatten = q) :
    ∃ s outs, run MessageHandler.handleResponse (.fresh buffer) chunks = some (s, outs) ∧
      outs.flatten = (messageScanner.scan q).1 := by
  obtain ⟨s, outs, h, hscan⟩ := MessageHandler.run_eq_scan chunks
    (s := .fresh buffer) rfl hne (by rw [hflat]; simpa [MessageHandler.fresh] using hq) rfl
  rw [hflat] at hscan
  exact ⟨s, outs, h, (congrArg Prod.fst hscan).symm⟩

theorem parsedByMessageHandler_iff (hq : q.length ≤ 512) :
    ParsedByMessageHandler q payload ↔ (messageScanner.scan q).1 = [payload] := by
  constructor
  · intro h
    have hne : ∀ c ∈ (q.map fun b => [b]), c ≠ [] := by
      intro c hc
      obtain ⟨b, -, rfl⟩ := mem_map.mp hc
      exact cons_ne_nil _ _
    obtain ⟨s, outs, hs, hout⟩ := h (Buf.fill 512 0) _ hne (flatten_bytes q)
    obtain ⟨s', outs', hs', hout'⟩ := run_fresh hq (Buf.fill 512 0) hne (flatten_bytes q)
    obtain ⟨-, rfl⟩ := Prod.mk.inj (Option.mem_unique hs hs')
    exact hout'.symm.trans hout
  · intro h buffer chunks hne hflat
    obtain ⟨s, outs, hs, hout⟩ := run_fresh hq buffer hne hflat
    exact ⟨s, outs, hs, hout.trans h⟩

theorem run_empty (hq : q.length < 2048) {r : NetworkHandler} (hinit : r.canInitialized = true)
    (hidx : r.rxIndex = 0) (hstart : r.frameStart = 0) {evs : List NetEvent} (hwf : ∀ e ∈ evs, e.Wf)
    (hbytes : evs.flatMap NetEvent.bytes = q) (now : Nat) (initDone halOk : Bool) :
    ∃ t outs, run NetworkHandler.step r (evs ++ [.process now initDone halOk]) = some (t, outs) ∧
      outs.flatten = (networkScanner.scan q).1 := by
  have hpend : r.pending = [] := by rw [NetworkHandler.pending, hidx, take_zero]
  obtain ⟨t, outs, hrun, hquiet, ht⟩ := NetworkHandler.run_eq_scan evs (s := r)
    ⟨hinit, hstart, by omega⟩ hwf (by rw [hbytes]; omega)
  rw [hpend, hbytes, nil_append] at ht
  obtain ⟨t', out, ht', hrouted, -⟩ := NetworkHandler.process_eq hquiet now initDone halOk
  refine ⟨t', outs ++ [out.routed],
    run_append hrun (run_cons.mpr ⟨t', out.routed, [], ?_, rfl, rfl⟩), ?_⟩
  · simp [NetworkHandler.step, ht']
  · rw [flatten_append, hrouted, ht]
    simp

theorem parsedByNetworkHandler_iff (hq : q.length < 2048) :
    ParsedByNetworkHandler q payload ↔ (networkScanner.scan q).1 = [payload] := by
  constructor
  · intro h
    have hwf : ∀ e ∈ (q.map fun b => NetEvent.rx 0 (Buf.fill 8 b) 1), e.Wf := by
      intro e he
      obtain ⟨b, -, rfl⟩ := mem_map.mp he
      exact (by omega : 1 ≤ 8)
    have hbytes : (q.map fun b => NetEvent.rx 0 (Buf.fill 8 b) 1).flatMap NetEvent.bytes = q := by
      rw [flatMap_def, map_map]
      exact flatten_bytes q
    obtain ⟨t, outs, ht, hout⟩ := h idleHandler rfl rfl rfl _ hwf hbytes 0 true true
    obtain ⟨t', outs', ht', hout'⟩ :=
      run_empty hq (r := idleHandler) rfl rfl rfl hwf hbytes 0 true true
    obtain ⟨-, rfl⟩ := Prod.mk.inj (Option.mem_unique ht ht')
    exact hout'.symm.trans hout
  · intro h r hinit hidx hstart evs hwf hbytes now initDone halOk
    obtain ⟨t, outs, ht, hout⟩ := run_empty hq hinit hidx hstart hwf hbytes now initDone halOk
    exact ⟨t, outs, ht, hout.trans h⟩

/-! ## What is queued, and what it parses to -/

/-- Up to 251 bytes the checksum's length does not wrap, and both parsers sum
what the sender summed. -/
theorem scan_response (r : FrameRule) (hlen : payload.length ≤ 251)
    (hr : r.summed payload.length = payload.length + 2) :
    (frameScanner r).scan (encodeFrame payload (NetworkHandler.responseSum payload))
      = ([payload], []) := by
  refine scan_encodeFrame r (by omega) ?_
  have hu : u8 (payload.length + 2) = payload.length + 2 :=
    u8_of_lt (n := payload.length + 2) (by omega)
  rw [hr, NetworkHandler.responseSum, hu, take_of_length_le (by simp)]
  simp [encodeFrame]

theorem scan_queued_iff (r : FrameRule) (hlen : payload.length ≤ 255)
    (hr : payload.length ≤ 251 → r.summed payload.length = payload.length + 2) :
    ((frameScanner r).scan
        ((encodeFrame payload (NetworkHandler.responseSum payload)).take 255)).1 = [payload] ↔
      payload.length ≤ 251 := by
  constructor
  · intro h
    by_contra hlong
    rw [(frameScanner r).scan_of_none (next_encodeFrame_take r hlen (by omega))] at h
    cases h
  · intro h
    rw [take_of_length_le (by rw [length_encodeFrame]; omega), scan_response r h (hr h)]

/-- **A queued response is parsed back exactly when its frame fits the queue**, by either parser: if
the payload has at most 251 bytes; the string queued is then the whole frame. -/
theorem response_parsed_iff (s : NetworkHandler) (hinit : s.canInitialized = true)
    (hroom : s.txHead + 1 ≠ s.txTail) (buffer : Buf UInt8 270) (payload : List UInt8)
    (hlen : payload.length ≤ 255) :
    ∃ t q, s.sendDiagnosticResponse buffer payload = some (t, true) ∧
      t.queued s.txHead = some q ∧
      (ParsedByMessageHandler q payload ↔ payload.length ≤ 251) ∧
      (ParsedByNetworkHandler q payload ↔ payload.length ≤ 251) ∧
      (payload.length ≤ 251 → q = encodeFrame payload
        (checksum8 (0x55 :: UInt8.ofNat payload.length :: payload))) := by
  obtain ⟨t, ht, hq⟩ := NetworkHandler.sendDiagnosticResponse_eq hinit hroom buffer payload hlen
  have hsize : ((encodeFrame payload (NetworkHandler.responseSum payload)).take 255).length ≤ 255 :=
    length_take_le _ _
  have hu : payload.length ≤ 251 → u8 (payload.length + 2) = payload.length + 2 :=
    fun h => u8_of_lt (n := payload.length + 2) (by omega)
  refine ⟨t, _, ht, hq, ?_, ?_, ?_⟩
  · rw [parsedByMessageHandler_iff (by omega)]
    exact scan_queued_iff messageRule hlen fun _ => rfl
  · rw [parsedByNetworkHandler_iff (by omega)]
    exact scan_queued_iff networkRule hlen hu
  · intro h
    rw [take_of_length_le (by rw [length_encodeFrame]; omega), NetworkHandler.responseSum,
      hu h, take_of_length_le (by simp)]

/-- Three bytes come back. -/
theorem response_parsed_three :
    ∃ t q, idleHandler.sendDiagnosticResponse (Buf.fill 270 0) [0x50, 0x03, 0x00] = some (t, true) ∧
      t.queued 0 = some q ∧ q = [0x55, 0x03, 0x50, 0x03, 0x00, 0xAB, 0xAA] ∧
      ParsedByMessageHandler q [0x50, 0x03, 0x00] ∧
      ParsedByNetworkHandler q [0x50, 0x03, 0x00] := by
  obtain ⟨t, q, ht, hq, hm, hn, hform⟩ := response_parsed_iff idleHandler rfl (by decide)
    (Buf.fill 270 0) [0x50, 0x03, 0x00] (by decide)
  exact ⟨t, q, ht, hq, (hform (by decide)).trans (by decide), hm.mpr (by decide),
    hn.mpr (by decide)⟩

/-- A response of 252 zero bytes is queued without its end marker, and neither
parser routes it. -/
theorem response_cut_252 :
    ∃ t q, idleHandler.sendDiagnosticResponse (Buf.fill 270 0) (List.replicate 252 0)
        = some (t, true) ∧
      t.queued 0 = some q ∧
      ¬ ParsedByMessageHandler q (List.replicate 252 0) ∧
      ¬ ParsedByNetworkHandler q (List.replicate 252 0) := by
  have hlen : (List.replicate 252 (0 : UInt8)).length = 252 := length_replicate
  obtain ⟨t, ht, hq⟩ := NetworkHandler.sendDiagnosticResponse_eq (s := idleHandler) rfl (by decide)
    (Buf.fill 270 0) (List.replicate 252 0) (by omega)
  refine ⟨t, _, ht, hq, fun h => ?_, fun h => ?_⟩
  · have hscan := (parsedByMessageHandler_iff (by rw [length_take]; omega)).mp h
    exact absurd ((scan_queued_iff messageRule (by omega) fun _ => rfl).mp hscan) (by omega)
  · have hscan := (parsedByNetworkHandler_iff (by rw [length_take]; omega)).mp h
    exact absurd ((scan_queued_iff networkRule (by omega) (by omega)).mp hscan) (by omega)

/-- **A train of responses.** However the frames of responses of at most 251 bytes, one behind the
other, are cut into pieces of 1 to 254 bytes, the response parser routes just the payloads, in their
order, and keeps nothing. -/
theorem responses_in_pieces (buffer : Buf UInt8 512) {payloads chunks : List (List UInt8)}
    (hlen : ∀ p ∈ payloads, p.length ≤ 251) (hchunks : ∀ c ∈ chunks, c ≠ [] ∧ c.length ≤ 254)
    (hcut : chunks.flatten =
      payloads.flatMap fun p => encodeFrame p (NetworkHandler.responseSum p)) :
    ∃ s outs, run MessageHandler.handleResponse (.fresh buffer) chunks = some (s, outs) ∧
      outs.flatten = payloads ∧ s.pending = [] := by
  have hscan : messageScanner.scan chunks.flatten = (payloads, []) := by
    rw [hcut]
    clear hcut
    induction payloads with
    | nil => rfl
    | cons p payloads ih =>
      rw [flatMap_cons, messageScanner.scan_append, messageScanner,
        scan_response messageRule (hlen p mem_cons_self) rfl, nil_append]
      have hrest := ih fun q hq => hlen q (.tail _ hq)
      rw [messageScanner] at hrest
      rw [hrest]
      rfl
  obtain ⟨s, outs, hrun, -, hfeed⟩ :=
    MessageHandler.run_eq_feed chunks (MessageHandler.fresh_ready buffer) hchunks
  have hfed : (payloads, []) = (outs.flatten, s.pending) :=
    hscan.symm.trans ((messageScanner.feedAll_eq_scan chunks).symm.trans (hfeed []))
  exact ⟨s, outs, hrun, (congrArg Prod.fst hfed).symm, (congrArg Prod.snd hfed).symm⟩

theorem responses_of_two :
    ∃ s outs, run MessageHandler.handleResponse (.fresh (Buf.fill 512 0))
        [[0x55, 0x01], [0x7E, 0xD4, 0xAA, 0x55, 0x01], [0x50, 0xA6, 0xAA]] = some (s, outs) ∧
      outs.flatten = [[0x7E], [0x50]] ∧ s.pending = [] :=
  responses_in_pieces _ (by decide) (by decide) (by decide)

end Cant.Network
