/-
# `Frame` — the serial frame `0x55, length, payload, checksum, 0xAA`

Two files parse the same frame: `message_handler.c` and `network_handler.c`.
Both skip to a start marker and wait for `length + 4` bytes; they differ in how
many bytes go into the checksum and in where they go on after a bad one.

    file                 bytes summed           after a bad checksum
    message_handler.c    length + 2             one byte on
    network_handler.c    length + 2, cut to     past the whole frame
                         the uint8_t argument
                         of calc_checksum

`frameNext` takes both as parameters.
-/
import Cant.Lib.Buf
import Cant.Lib.Stream
import Cant.Lib.Word

namespace Cant.Network

variable {k used : Nat} {m : Option (List UInt8)} {sum : UInt8}

open Word Cant.Stream List

def checksum8 (bytes : List UInt8) : UInt8 := bytes.foldl (· + ·) 0

/-- How a parser treats the two points on which the files differ. -/
structure FrameRule where
  /-- Bytes summed for a frame of this length byte. -/
  summed : Nat → Nat
  /-- Bytes skipped when the sum is wrong. -/
  skip : Nat → Nat
  summed_le : ∀ len, summed len ≤ len + 2
  skip_pos : ∀ len, 0 < skip len
  skip_le : ∀ len, skip len ≤ len + 4

/-- One pass of the parsing loop at index `pos` of a buffer holding `used` bytes.
The index arithmetic is `uint32_t`. -/
def framePass {n : Nat} (r : FrameRule) (buf : Buf UInt8 n) (used pos : Nat) :
    Option (Option (Nat × Option (List UInt8))) :=
  if u32 (used - pos) ≥ 4 then do
    let start ← buf.get? pos
    if start = 0x55 then do
      let len := (← buf.get? (pos + 1)).toNat
      if u32 (used - pos) ≥ len + 4 then do
        let summed ← buf.slice pos (r.summed len)
        let stored ← buf.get? (pos + (len + 2))
        if checksum8 summed = stored then do
          let msg ← buf.slice (pos + 2) len
          some (some (len + 4, some msg))
        else some (some (r.skip len, none))
      else some none
    else some (some (1, none))
  else some none

/-- What one pass decides, on the bytes ahead of it. -/
def frameNext (r : FrameRule) (x : List UInt8) : Option (Nat × Option (List UInt8)) :=
  match x with
  | start :: len :: rest =>
    if x.length < 4 then none
    else if start = 0x55 then
      if len.toNat + 4 ≤ x.length then
        if some (checksum8 (x.take (r.summed len.toNat))) = rest[len.toNat]? then
          some (len.toNat + 4, some (rest.take len.toNat))
        else some (r.skip len.toNat, none)
      else none
    else some (1, none)
  | _ => none

variable {r : FrameRule}

variable {payload x : List UInt8} {n : Nat}

theorem frameNext_progress (h : frameNext r x = some (k, m)) : 0 < k ∧ k ≤ x.length := by
  unfold frameNext at h
  split at h
  case h_2 => cases h
  case h_1 start len rest =>
      have hpos := r.skip_pos len.toNat
      have hle := r.skip_le len.toNat
      split at h
      · cases h
      · split at h
        · split at h
          · split at h <;> cases h <;> omega
          · cases h
        · cases h
          omega

theorem frameNext_stable (y : List UInt8)
    (h : frameNext r x = some (k, m)) : frameNext r (x ++ y) = some (k, m) := by
  match x with
  | [] => cases h
  | [_] => cases h
  | start :: len :: rest =>
    simp only [frameNext, length_cons] at h
    simp only [frameNext, cons_append, length_cons, length_append]
    have hsum := r.summed_le len.toNat
    by_cases h4 : rest.length + 1 + 1 < 4
    · rw [if_pos h4] at h
      cases h
    · rw [if_neg h4] at h
      rw [if_neg (by omega)]
      by_cases hs : start = 0x55
      · rw [if_pos hs] at h ⊢
        by_cases hl : len.toNat + 4 ≤ rest.length + 1 + 1
        · rw [if_pos hl] at h
          rw [if_pos (by omega)]
          have htake : (start :: len :: (rest ++ y)).take (r.summed len.toNat)
              = (start :: len :: rest).take (r.summed len.toNat) := by
            rw [show start :: len :: (rest ++ y) = (start :: len :: rest) ++ y from rfl,
              take_append_of_le_length (by simp only [length_cons]; omega)]
          have hstored : (rest ++ y)[len.toNat]? = rest[len.toNat]? :=
            getElem?_append_left (by omega)
          have hmsg : (rest ++ y).take len.toNat = rest.take len.toNat :=
            take_append_of_le_length (by omega)
          simpa only [htake, hstored, hmsg] using h
        · rw [if_neg hl] at h
          cases h
      · rw [if_neg hs] at h ⊢
        exact h

def frameScanner (r : FrameRule) : Scanner UInt8 (List UInt8) where
  next := frameNext r
  progress := frameNext_progress
  stable := frameNext_stable

/-! ## One frame -/

/-- The frame around `payload` with checksum byte `sum`. -/
def encodeFrame (payload : List UInt8) (sum : UInt8) : List UInt8 :=
  0x55 :: UInt8.ofNat payload.length :: (payload ++ [sum, 0xAA])

theorem length_encodeFrame (payload : List UInt8) (sum : UInt8) :
    (encodeFrame payload sum).length = payload.length + 4 := by
  simp [encodeFrame]

theorem toNat_ofNat_length (h : payload.length ≤ 255) :
    (UInt8.ofNat payload.length).toNat = payload.length := by
  rw [UInt8.toNat_ofNat']
  omega

theorem scan_encodeFrame (r : FrameRule) (hlen : payload.length ≤ 255)
    (hsum : sum = checksum8 ((encodeFrame payload sum).take (r.summed payload.length))) :
    (frameScanner r).scan (encodeFrame payload sum) = ([payload], []) := by
  have hnat := toNat_ofNat_length hlen
  have hnext : (frameScanner r).next (encodeFrame payload sum)
      = some (payload.length + 4, some payload) := by
    show frameNext r (encodeFrame payload sum) = _
    have hstored : (payload ++ [sum, 0xAA])[payload.length]? = some sum := by
      rw [getElem?_append_right .refl, Nat.sub_self]
      rfl
    simp only [encodeFrame, frameNext, hnat, hstored] at hsum ⊢
    simp only [length_cons, length_append, length_nil]
    rw [if_neg (by omega), if_pos trivial, if_pos (by omega), if_pos (by rw [← hsum]), take_left]
  rw [(frameScanner r).scan_of_some hnext, ← length_encodeFrame payload sum, drop_length]
  rfl

theorem next_encodeFrame_take (r : FrameRule) (hlen : payload.length ≤ 255)
    (hcut : n < payload.length + 4) :
    (frameScanner r).next ((encodeFrame payload sum).take n) = none := by
  have hnat := toNat_ofNat_length hlen
  show frameNext r _ = none
  match n with
  | 0 => rfl
  | 1 => rfl
  | n + 2 =>
    simp only [encodeFrame, take_succ_cons, frameNext, hnat, length_cons,
      length_take, length_append, length_nil]
    split
    · rfl
    · rw [if_pos trivial, if_neg (by omega)]

theorem length_le_of_next_none (h : frameNext r x = none) : x.length ≤ 258 := by
  match x with
  | [] => exact Nat.zero_le _
  | [_] => simp only [length_cons, length_nil]; omega
  | start :: len :: rest =>
    have hlen := len.toNat_lt
    simp only [frameNext] at h
    split at h
    · omega
    · split at h
      · split at h
        · split at h <;> cases h
        · omega
      · cases h

/-- **A pass decides as the scanner does on the bytes ahead**, and reads nothing
beyond the used part of the buffer. -/
theorem framePass_eq {buf : Buf UInt8 n} {pos : Nat} (hused : used ≤ n) (hn : n < 4294967296)
    (hpos : pos ≤ used) :
    framePass r buf used pos = some (frameNext r ((buf.elems.take used).drop pos)) := by
  have hlen : ((buf.elems.take used).drop pos).length = used - pos := by
    rw [length_drop, length_take, buf.size_eq]
    omega
  have hsub : u32 (used - pos) = used - pos := u32_sub hpos (by omega)
  simp only [framePass, hsub]
  match hx : (buf.elems.take used).drop pos, hlen with
  | [], hlen =>
    rw [length_nil] at hlen
    rw [if_neg (by omega)]
    rfl
  | [_], hlen =>
    rw [length_singleton] at hlen
    rw [if_neg (by omega)]
    rfl
  | start :: len :: rest, hlen =>
    have hlen' : rest.length + 1 + 1 = used - pos := hlen
    have hstart (h4 : 4 ≤ used - pos) : buf.get? pos = some start := by
      have h := buf.get?_used used pos 0 (by omega)
      rwa [hx] at h
    have hbyte (h4 : 4 ≤ used - pos) : buf.get? (pos + 1) = some len := by
      have h := buf.get?_used used pos 1 (by omega)
      rwa [hx] at h
    simp only [frameNext, length_cons]
    by_cases h4 : 4 ≤ used - pos
    · rw [if_pos h4, if_neg (by omega), hstart h4, hbyte h4]
      simp only [Option.bind_eq_bind, Option.bind_some]
      by_cases hs : start = 0x55
      · rw [if_pos hs, if_pos hs]
        by_cases hl : len.toNat + 4 ≤ used - pos
        · have hle := r.summed_le len.toNat
          have hsum := buf.slice_used used pos 0 (r.summed len.toNat) hused (by omega)
          have hstored := buf.get?_used used pos (len.toNat + 2) (by omega)
          have hmsg := buf.slice_used used pos 2 len.toNat hused (by omega)
          rw [hx] at hsum hstored hmsg
          rw [if_pos hl, if_pos (by omega)]
          obtain ⟨c, hc⟩ : ∃ c, rest[len.toNat]? = some c :=
            ⟨_, getElem?_eq_getElem (by omega)⟩
          have hstored' : buf.get? (pos + (len.toNat + 2)) = some c := hstored.trans hc
          simp only [Nat.add_zero, drop_zero] at hsum
          simp only [hsum, hstored', hmsg, hc, Option.bind_some, Option.some.injEq]
          split <;> rfl
        · rw [if_neg hl, if_neg (by omega)]
      · rw [if_neg hs, if_neg hs]
    · rw [if_neg h4, if_pos (by omega)]

/-- **The parsing loop computes the scan** of the used part and stops in front of
what is left over. -/
theorem drain_framePass (r : FrameRule) (buf : Buf UInt8 n) (hused : used ≤ n)
    (hn : n < 4294967296) :
    ∃ p, Scanner.drain (framePass r buf used) (used + 1) 0
        = some (p, ((frameScanner r).scan (buf.elems.take used)).1) ∧ p ≤ used ∧
      (buf.elems.take used).drop p = ((frameScanner r).scan (buf.elems.take used)).2 := by
  have hlen : (buf.elems.take used).length = used := by
    rw [length_take, buf.size_eq]
    omega
  have hpass : ∀ pos, pos ≤ (buf.elems.take used).length →
      framePass r buf used pos = some ((frameScanner r).next ((buf.elems.take used).drop pos)) :=
    fun pos hpos => framePass_eq hused hn (hlen ▸ hpos)
  obtain ⟨p, hd, -, hp, hrest⟩ :=
    Scanner.drain_eq_scan hpass (used + 1) 0 (Nat.zero_le _) (by omega)
  exact ⟨p, hd, by omega, hrest⟩

end Cant.Network
