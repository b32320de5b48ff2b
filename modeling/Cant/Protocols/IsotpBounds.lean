/-
# `IsotpBounds` — the ISO-TP receiver stays inside its buffer

Three copies go into `rx_state.buffer`, of 4095 bytes:

    frame          where                         how many
    single         at the beginning              its length, at most 7
    first          at the beginning              6, whatever length it announces
    consecutive    at the offset                 what is missing, at most 7

What is missing is computed in `size_t`, and underflows behind a first frame that announces
less than the six bytes it brings: then it is seven, once, from offset 6 on, and the message
is taken for complete. So the offset is 6, or below the announced length
(`RxState.InRange`), and `writes_inside` follows.
-/
import Cant.Lib.Past
import Cant.Protocols.IsotpReassembly

namespace Cant.Protocols

open Past Run Word Option

namespace Isotp

/-- The indices of `rx_state.buffer` that a frame is written to. -/
def written (s : Isotp) (f : CANFrame) : List Nat :=
  if f.id = s.config.rxId then
    match f.pci with
    | 0 => if f.low > 0 ∧ f.low ≤ 7 then List.range' 0 f.low else []
    | 1 => if f.firstLength > 0 then List.range' 0 6 else []
    | 2 =>
      if s.rx.receivingMulti ∧ f.low = s.rx.sequence then List.range' s.rx.offset s.rx.segment
      else []
    | _ => []
  else []

variable {s s' : Isotp} {can : CANFrame → Bool} {f : CANFrame}

/-! ## Nothing else is written -/

variable {i : Nat}

theorem get?_blit_of_not_mem {n : Nat} {b c : Buf UInt8 n} {off : Nat} {src : List UInt8}
    (h : b.blit off src = some c) (hi : i ∉ List.range' off src.length) : c.get? i = b.get? i := by
  rw [List.mem_range'_1] at hi
  rw [Buf.get?, Buf.getElem?_blit h, if_neg hi]
  rfl

theorem processSingleFrame_frame (h : s.processSingleFrame f = some s')
    (hi : i ∉ if f.low > 0 ∧ f.low ≤ 7 then List.range' 0 f.low else []) :
    s'.rx.buffer.get? i = s.rx.buffer.get? i := by
  have hcell := f.get?_zero
  simp only [processSingleFrame, some_bind hcell] at h
  change (if f.low > 0 ∧ f.low ≤ 7 then _ else _) = _ at h
  by_cases hok : f.low > 0 ∧ f.low ≤ 7
  · rw [if_pos hok] at h hi
    obtain ⟨bytes, hslice, h⟩ := bind_eq_some_iff.mp h
    obtain ⟨buffer, hblit, h⟩ := bind_eq_some_iff.mp h
    cases h
    have hlen : bytes.length = f.low := Buf.length_of_slice hslice
    exact get?_blit_of_not_mem hblit (hlen.symm ▸ hi)
  · rw [if_neg hok] at h
    cases h
    rfl

theorem processFirstFrame_frame {sent : List CANFrame}
    (h : s.processFirstFrame can f = some (s', sent))
    (hi : i ∉ if f.firstLength > 0 then List.range' 0 6 else []) :
    s'.rx.buffer.get? i = s.rx.buffer.get? i := by
  have hcell := f.get?_zero
  have hcell' := f.get?_one
  simp only [processFirstFrame, hcell, hcell', bind_eq_bind, bind_some] at h
  by_cases hpos : f.firstLength > 0
  · rw [if_pos ⟨hpos, f.firstLength_le⟩] at h
    rw [if_pos hpos] at hi
    obtain ⟨bytes, hslice, h⟩ := bind_eq_some_iff.mp h
    obtain ⟨buffer, hblit, h⟩ := bind_eq_some_iff.mp h
    cases Option.some.inj h
    have hlen : bytes.length = 6 := Buf.length_of_slice hslice
    exact get?_blit_of_not_mem hblit (hlen.symm ▸ hi)
  · rw [if_neg fun h' => hpos h'.1] at h
    cases Option.some.inj h
    rfl

theorem processConsecutiveFrame_frame (h : s.processConsecutiveFrame f = some s')
    (hi : i ∉ if s.rx.receivingMulti ∧ f.low = s.rx.sequence then
      List.range' s.rx.offset s.rx.segment else []) : s'.rx.buffer.get? i = s.rx.buffer.get? i := by
  have hcell := f.get?_zero
  unfold processConsecutiveFrame at h
  by_cases hmulti : s.rx.receivingMulti = true
  · rw [if_neg (not_not.mpr hmulti), hcell] at h
    change (if f.low ≠ s.rx.sequence then _ else _) = _ at h
    by_cases hseq : f.low = s.rx.sequence
    · rw [if_neg (not_not.mpr hseq)] at h
      rw [if_pos ⟨hmulti, hseq⟩] at hi
      obtain ⟨bytes, hslice, h⟩ := bind_eq_some_iff.mp h
      obtain ⟨buffer, hblit, h⟩ := bind_eq_some_iff.mp h
      cases h
      have hlen : bytes.length = s.rx.segment := Buf.length_of_slice hslice
      exact get?_blit_of_not_mem hblit (hlen.symm ▸ hi)
    · rw [if_pos hseq] at h
      cases h
      rfl
  · rw [if_pos hmulti] at h
    cases h
    rfl

/-- **A frame is written where `written` says**, and nowhere else. -/
theorem handleFrame_frame {sent : List CANFrame} (h : s.handleFrame can f = some (s', sent))
    (hi : i ∉ s.written f) : s'.rx.buffer.get? i = s.rx.buffer.get? i := by
  have hcell := f.get?_zero
  unfold handleFrame at h
  by_cases hid : f.id = s.config.rxId
  · have hshift : (f.data.cell 0).toNat >>> 4 = f.pci := rfl
    simp only [if_pos hid, some_bind hcell, hshift] at h
    simp only [written, if_pos hid] at hi
    rcases hpci : f.pci with _ | _ | _ | n
    · rw [hpci] at h hi
      obtain ⟨t, ht, heq⟩ := map_eq_some_iff.mp h
      cases heq
      exact processSingleFrame_frame ht hi
    · rw [hpci] at h hi
      exact processFirstFrame_frame h hi
    · rw [hpci] at h hi
      obtain ⟨t, ht, heq⟩ := map_eq_some_iff.mp h
      cases heq
      exact processConsecutiveFrame_frame ht hi
    · rw [hpci] at h
      cases Option.some.inj h
      rfl
  · rw [if_neg hid] at h
    cases Option.some.inj h
    rfl

/-- Every frame of a call is written inside the buffer when its turn comes, and nowhere but where
`written` says. -/
def FramesInside (can : CANFrame → Bool) : Isotp → List CANFrame → Prop
  | _, [] => True
  | s, f :: fs => (∀ i ∈ s.written f, i < 4095) ∧
      ∀ s' sent, s.handleFrame can f = some (s', sent) →
        (∀ i ∉ s.written f, s'.rx.buffer.get? i = s.rx.buffer.get? i) ∧ FramesInside can s' fs

abbrev RxEntry := Taken Isotp RxEvent (Option (List UInt8))

/-- What a call keeps to: its frames are written inside the buffer, and no more than the buffer
is copied out of it. -/
structure Inside (e : RxEntry) (_ : List RxEntry) : Prop where
  writes : ∀ can now frames, e.input = .process can now frames → FramesInside can e.pre frames
  copies : ∀ msg ∈ e.output, msg.length ≤ 4095

theorem written_inside (h : s.rx.InRange) (f : CANFrame) : ∀ i ∈ s.written f, i < 4095 := by
  intro i hi
  unfold written at hi
  split at hi
  · split at hi
    · split at hi
      case isTrue hok =>
        rw [List.mem_range'_1] at hi
        omega
      case isFalse => cases hi
    · split at hi
      case isTrue =>
        rw [List.mem_range'_1] at hi
        omega
      case isFalse => cases hi
    · split at hi
      case isTrue hnext =>
        have hroom := h.room hnext.1
        rw [List.mem_range'_1] at hi
        omega
      case isFalse => cases hi
    · cases hi
  · cases hi

theorem framesInside (can : CANFrame → Bool) (frames : List CANFrame) (h : s.rx.InRange) :
    FramesInside can s frames := by
  induction frames generalizing s with
  | nil => trivial
  | cons f fs ih =>
    refine ⟨written_inside h f, fun s' sent hs' => ⟨fun i hi => handleFrame_frame hs' hi, ih ?_⟩⟩
    obtain ⟨rx, sent', heq, heffect, -⟩ := handleFrame_effect h can f
    cases heq.symm.trans hs'
    exact h.effect heffect

theorem rxStep_inside (h : s.rx.InRange) (i : RxEvent) (past : List RxEntry) :
    ∃ s' o, s.rxStep i = some (s', o) ∧ s'.rx.InRange ∧ Inside ⟨s, i, o, s'⟩ past := by
  cases i with
  | process can now frames =>
    obtain ⟨rx, sent, hframes, hrange, -⟩ := handleFrames_total can frames h
    obtain ⟨t, ht, hrx, -⟩ := process_of_handleFrames hframes now
    refine ⟨t, none, ?_, hrx.symm ▸ hrange, ?_, ?_⟩
    · simp [rxStep, ht]
    · rintro can' now' frames' heq
      cases heq
      exact framesInside can frames h
    · exact fun msg hmsg => absurd hmsg (not_mem_none msg)
  | receive =>
    have hprocess : ∀ can now frames, RxEvent.receive = .process can now frames →
        FramesInside can s frames := fun _ _ _ heq => RxEvent.noConfusion heq
    rcases receive_eq h with ⟨hmulti, -, hr⟩ | ⟨-, hr⟩
    · refine ⟨_, _, hr, ⟨Nat.zero_le _, fun hm => ?_⟩, hprocess, ?_⟩
      · cases hmulti.symm.trans hm
      · rintro msg hmsg
        cases hmsg
        rw [List.length_take]
        exact (Nat.min_le_left _ _).trans h.length_le
    · exact ⟨_, _, hr, h, hprocess, fun msg hmsg => absurd hmsg (not_mem_none msg)⟩

end Isotp

/-- **The receiver stays inside its buffer.** Whatever frames come in: every call returns, every
byte is written to an index below 4095 and nothing else is changed, and `isotp_receive` copies at
most 4095 bytes. -/
theorem writes_inside (config : ISOTPConfig) (events : List RxEvent) :
    Throughout (logged Isotp.rxStep) (fun x => Historically Isotp.Inside x.1)
      ([], Isotp.create config) events := by
  let Inv (x : List Isotp.RxEntry × Isotp) := x.2.rx.InRange ∧ Historically Isotp.Inside x.1
  refine throughout_of_inv Inv (fun x h => h.2) ?_ events ⟨Isotp.create_inRange config, trivial⟩
  rintro x i ⟨hrange, hpast⟩
  obtain ⟨s', o, hs', hrange', hinside⟩ := Isotp.rxStep_inside hrange i x.1
  exact ⟨_, o, logged_eq hs', hrange', hinside, hpast⟩

end Cant.Protocols
