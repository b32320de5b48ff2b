/-
# `Parsers` — two parsers for one frame

`message_handler.c` and `network_handler.c` both cut frames out of a buffer and hand their
payloads to `DiagRouter_HandleMessage`. On a whole frame they part in two cases:

    the frame                        message_handler.c         network_handler.c
    its checksum is wrong            one byte on               past the frame
    its length is 254 or 255         sums length + 2 bytes     sums the first 0 or 1

So a frame inside a damaged frame is a message for the one and lost for the other, and the longest
frames pass the one and fail the other. Elsewhere they agree: `parsers_agree` asks of
every whole frame that `network_handler.c` comes to that both sums fit, or that neither does and
no start marker stands inside.
-/
import Cant.Network.MessageHandler
import Cant.Network.NetworkHandler

namespace Cant.Network

open Word Cant.Stream List

/-- The byte behind the payload is the sum that `r` takes of the frame at the beginning of `x`. -/
def SumFits (r : FrameRule) (x : List UInt8) (len : Nat) : Prop :=
  some (checksum8 (x.take (r.summed len))) = x[len + 2]?

/-- A whole frame at the beginning of `x`, if there is one, fits both sums, or fits neither and
has no start marker inside. -/
def FrameOk (x : List UInt8) : Prop :=
  ∀ len rest, x = 0x55 :: len :: rest → len.toNat + 4 ≤ x.length →
    SumFits messageRule x len.toNat ∧ SumFits networkRule x len.toNat ∨
    ¬ SumFits messageRule x len.toNat ∧ ¬ SumFits networkRule x len.toNat ∧
      0x55 ∉ (x.drop 1).take (len.toNat + 3)

theorem sumFits_iff (x : List UInt8) {len : Nat} (h : len ≤ 253) :
    SumFits messageRule x len ↔ SumFits networkRule x len := by
  have hsummed : networkRule.summed len = messageRule.summed len :=
    u8_of_lt (n := len + 2) (by omega)
  unfold SumFits
  rw [hsummed]

/-! ## What a pass decides -/

/-- What is in front of a parser that goes on, and what it makes of it. -/
inductive Decides (r : FrameRule) : List UInt8 → Nat → Option (List UInt8) → Prop
  | noise {start len : UInt8} {rest : List UInt8} : 4 ≤ rest.length + 2 → start ≠ 0x55 →
      Decides r (start :: len :: rest) 1 none
  | good {len : UInt8} {rest : List UInt8} : len.toNat + 4 ≤ rest.length + 2 →
      SumFits r (0x55 :: len :: rest) len.toNat →
      Decides r (0x55 :: len :: rest) (len.toNat + 4) (some (rest.take len.toNat))
  | bad {len : UInt8} {rest : List UInt8} : len.toNat + 4 ≤ rest.length + 2 →
      ¬ SumFits r (0x55 :: len :: rest) len.toNat →
      Decides r (0x55 :: len :: rest) (r.skip len.toNat) none

variable {r : FrameRule} {x : List UInt8} {k : Nat} {m : Option (List UInt8)}

theorem decides_iff : frameNext r x = some (k, m) ↔ Decides r x k m := by
  constructor
  · intro h
    unfold frameNext at h
    split at h
    case h_2 => cases h
    case h_1 start len rest =>
        split at h
        · cases h
        next hlong =>
          simp only [length_cons] at hlong
          split at h
          next hstart =>
            subst hstart
            split at h
            next hwhole =>
              split at h
              next hsum =>
                cases h
                exact .good hwhole hsum
              next hsum =>
                cases h
                exact .bad hwhole hsum
            · cases h
          next hstart =>
            cases h
            exact .noise (by omega) hstart
  · rintro (⟨hlong, hstart⟩ | ⟨hwhole, hsum⟩ | ⟨hwhole, hsum⟩)
    · simp only [frameNext, length_cons]
      rw [if_neg (by omega), if_neg hstart]
    · simp only [frameNext, length_cons]
      rw [if_neg (by omega), if_pos hwhole]
      exact if_pos hsum
    · simp only [frameNext, length_cons]
      rw [if_neg (by omega), if_pos hwhole]
      exact if_neg hsum

theorem next_none_iff (r r' : FrameRule) : frameNext r x = none ↔ frameNext r' x = none := by
  have himp : ∀ r r' : FrameRule, frameNext r x = none → frameNext r' x = none := by
    intro r r' h
    rw [Option.eq_none_iff_forall_ne_some] at h ⊢
    rintro ⟨k, m⟩ hk
    cases decides_iff.mp hk with
    | noise hlong hstart => exact h _ (decides_iff.mpr (.noise hlong hstart))
    | @good len rest hwhole _ | @bad len rest hwhole _ =>
      by_cases hsum : SumFits r (0x55 :: len :: rest) len.toNat
      · exact h _ (decides_iff.mpr (.good hwhole hsum))
      · exact h _ (decides_iff.mpr (.bad hwhole hsum))
  exact ⟨himp r r', himp r' r⟩

/-! ## The response parser behind a damaged frame -/

theorem scan_skip : ∀ (j : Nat) (x : List UInt8), 0x55 ∉ x.take j →
    (messageScanner.scan x).1 = (messageScanner.scan (x.drop j)).1
  | 0, _, _ => rfl
  | _ + 1, [], _ => rfl
  | j + 1, b :: x, h => by
    rw [take_succ_cons, mem_cons, not_or] at h
    rw [drop_succ_cons, ← scan_skip j x h.2]
    by_cases hlong : 4 ≤ (b :: x).length
    · obtain ⟨len, rest, rfl⟩ : ∃ len rest, x = len :: rest :=
        exists_cons_of_length_pos (by rw [length_cons] at hlong; omega)
      have hnext : messageScanner.next (b :: len :: rest) = some (1, none) :=
        decides_iff.mpr (.noise hlong (Ne.symm h.1))
      rw [messageScanner.scan_of_some hnext]
      rfl
    · -- too little is left for either
      have hshort : ∀ y : List UInt8, ¬ 4 ≤ y.length → (messageScanner.scan y).1 = [] := by
        intro y hy
        have hnext : messageScanner.next y = none := by
          rw [Option.eq_none_iff_forall_ne_some]
          rintro ⟨k, m⟩ hk
          cases decides_iff.mp hk with
          | noise hlong _ => exact hy hlong
          | good hwhole _ | bad hwhole _ => simp only [length_cons] at hy; omega
        rw [messageScanner.scan_of_none hnext]
      rw [hshort _ hlong, hshort _ (by rw [length_cons] at hlong; omega)]

/-- From one place that `network_handler.c` comes to up to the next, `message_handler.c` hands over
the same. -/
theorem messages_commit (hok : FrameOk x) (h : networkScanner.next x = some (k, m)) :
    (messageScanner.scan x).1 = m.toList ++ (messageScanner.scan (x.drop k)).1 := by
  cases decides_iff.mp h with
  | @noise start len rest hlong hstart =>
    have hnext : messageScanner.next (start :: len :: rest) = some (1, none) :=
      decides_iff.mpr (.noise hlong hstart)
    rw [messageScanner.scan_of_some hnext]
  | @good len rest hwhole hsum =>
    have hboth : SumFits messageRule (0x55 :: len :: rest) len.toNat :=
      ((hok len rest rfl hwhole).resolve_right fun hneither => hneither.2.1 hsum).1
    rw [messageScanner.scan_of_some (decides_iff.mpr (.good hwhole hboth))]
  | @bad len rest hwhole hsum =>
    obtain ⟨hwrong, -, hnone⟩ := (hok len rest rfl hwhole).resolve_left fun hboth => hsum hboth.2
    have hnext : messageScanner.next (0x55 :: len :: rest) = some (1, none) :=
      decides_iff.mpr (.bad hwhole hwrong)
    rw [messageScanner.scan_of_some hnext]
    exact scan_skip (len.toNat + 3) _ hnone

/-- **The parsers agree on streams without a broken frame.** If `FrameOk` holds wherever
`network_handler.c` comes to in a stream of at most 512 bytes, both parsers hand the same messages
to `DiagRouter_HandleMessage`. -/
theorem parsers_agree (stream : List UInt8) (hlen : stream.length ≤ 512) (buffer : Buf UInt8 512)
    (s : NetworkHandler) (hquiet : s.Quiet) (hpending : s.pending = stream)
    (hok : networkScanner.Each FrameOk stream) :
    ∃ t s' messages, (MessageHandler.fresh buffer).handleResponse stream = some (t, messages) ∧
      s.processRxBuffer = some (s', messages) := by
  obtain ⟨s', hs', -⟩ := NetworkHandler.processRxBuffer_eq hquiet
  rw [hpending] at hs'
  have hagree : (messageScanner.scan stream).1 = (networkScanner.scan stream).1 := by
    refine hok.scan_agree ?_ fun x k m hx h => messages_commit hx h
    intro x _ hnone
    rw [messageScanner.scan_of_none ((next_none_iff _ _).mp hnone)]
  by_cases hne : stream = []
  · subst hne
    exact ⟨_, s', [], rfl, hs'⟩
  · obtain ⟨t, ht, -⟩ := MessageHandler.handleResponse_eq (s := MessageHandler.fresh buffer) rfl hne
      (by rw [MessageHandler.fresh, Nat.zero_add]; exact hlen)
    rw [show (MessageHandler.fresh buffer).pending = [] from take_zero, nil_append, hagree] at ht
    exact ⟨t, s', _, ht, hs'⟩

/-- A network handler that has received `stream`. -/
def holding (stream : List UInt8) (h : stream.length ≤ 2048) : NetworkHandler :=
  { idleHandler with
    rxBuffer := ⟨stream ++ List.replicate (2048 - stream.length) 0, by
      rw [length_append, length_replicate, Nat.add_sub_cancel' h]⟩
    rxIndex := stream.length }

theorem holding_quiet {stream : List UInt8} (h : stream.length ≤ 2048) :
    (holding stream h).Quiet := ⟨rfl, rfl, h⟩

theorem frameOk_of_sumFits {len : UInt8} {rest : List UInt8} (hshort : len.toNat ≤ 253)
    (hsum : SumFits messageRule (0x55 :: len :: rest) len.toNat) :
    FrameOk (0x55 :: len :: rest) := by
  intro len' rest' heq _
  cases heq
  exact .inl ⟨hsum, (sumFits_iff _ hshort).mp hsum⟩

/-- Two frames, the second with a wrong checksum. -/
theorem parsers_agree_two :
    ∃ t s' messages, (MessageHandler.fresh (Buf.fill 512 0)).handleResponse
        [0x55, 0x02, 0x01, 0x02, 0x5A, 0xAA, 0x55, 0x01, 0x07, 0x00, 0xAA] = some (t, messages) ∧
      (holding [0x55, 0x02, 0x01, 0x02, 0x5A, 0xAA, 0x55, 0x01, 0x07, 0x00, 0xAA]
        (by decide)).processRxBuffer = some (s', messages) := by
  refine parsers_agree _ (by decide) _ _ (holding_quiet _) take_left ?_
  refine .commit (k := 6) (m := some [0x01, 0x02]) rfl (frameOk_of_sumFits (by decide) rfl) ?_
  refine .commit (k := 5) (m := none) rfl ?_ (.wait rfl fun _ _ heq => by cases heq)
  intro len rest heq _
  cases heq
  refine .inr ⟨?_, ?_, ?_⟩
  · show ¬ some _ = some _
    decide
  · show ¬ some _ = some _
    decide
  · decide

/-- A frame of 254 bytes; `network_handler.c` sums none of them. -/
def longFrame : List UInt8 := encodeFrame (List.replicate 254 0) 0x53

theorem length_longFrame : longFrame.length ≤ 2048 := by
  rw [longFrame, length_encodeFrame, length_replicate]
  omega

/-- A frame inside a frame with a wrong checksum: a message for `message_handler.c` only. A frame
of 254 bytes with the right checksum: a message for `message_handler.c` only. -/
theorem parsers_disagree :
    ((MessageHandler.fresh (Buf.fill 512 0)).handleResponse
        [0x55, 0x04, 0x55, 0x00, 0x55, 0xAA, 0x00, 0xAA]).map Prod.snd = some [[]] ∧
    ((holding [0x55, 0x04, 0x55, 0x00, 0x55, 0xAA, 0x00, 0xAA] (by decide)).processRxBuffer).map
      Prod.snd = some [] ∧
    ((MessageHandler.fresh (Buf.fill 512 0)).handleResponse longFrame).map Prod.snd
      = some [List.replicate 254 0] ∧
    ((holding longFrame length_longFrame).processRxBuffer).map Prod.snd = some [] := by
  decide +kernel

end Cant.Network
