/-
# `MessageSender` — messages that are sent again (`message_handler.c`)

A message waits in a slot of `pending_msgs` after it has been handed to `NetworkHandler_Send`, and
is handed over again, up to three times, as it gets older. Nothing ever tells the slot that an
answer has come, and nothing tells it that `NetworkHandler_Send` has refused the message:
`MessageHandler_Send` returns false then, and the message goes out 50 ms later. And
nothing holds a message of more than 256 bytes back from the slot of 256.
`sends_kept_iff` says that these are the two ways to go wrong.

Every reading of the clock is an argument of its own, and so is the answer of `NetworkHandler_Send`.
-/
import Mathlib.Data.List.FinRange
import Cant.Lib.Buf
import Cant.Lib.Past
import Cant.Lib.Word

namespace Cant.Network

open Past Run Word Function List Option

structure PendingMessage where
  data : Buf UInt8 256
  length : Nat
  timestamp : UInt32
  retries : UInt8
  active : Bool

/-- The send side of `message_handler.c`. -/
structure MessageSender where
  pending : Fin 16 → PendingMessage
  lastCleanup : UInt32
  msgHandlerInit : Bool

namespace PendingMessage

/-- What `cleanup_old_messages` does to a slot. -/
def cleanup (p : PendingMessage) (currentTime : UInt32) : PendingMessage :=
  if p.active ∧ currentTime - p.timestamp > 150 then { p with active := false } else p

abbrev Due (p : PendingMessage) (currentTime : UInt32) : Prop :=
  p.active ∧ (currentTime - p.timestamp).toNat > 50 * (p.retries.toNat + 1)

/-- What `MessageHandler_Process` does to a slot, and what it hands over. -/
def retry (p : PendingMessage) (currentTime : UInt32) :
    Option (PendingMessage × Option (List UInt8)) :=
  if p.Due currentTime then
    if p.retries < 3 then do
      let bytes ← p.data.slice 0 p.length
      some ({ p with timestamp := currentTime, retries := p.retries + 1 }, some bytes)
    else some ({ p with active := false }, none)
  else some (p, none)

/-- `retry` on every slot of a list, in order. -/
def retryAll (currentTime : UInt32) :
    List (Fin 16) → (Fin 16 → PendingMessage) →
      Option ((Fin 16 → PendingMessage) × List (Fin 16 × List UInt8))
  | [], slots => some (slots, [])
  | i :: is, slots => do
    let (p, handed) ← (slots i).retry currentTime
    let (slots, out) ← retryAll currentTime is (update slots i p)
    some (slots, (handed.map (i, ·)).toList ++ out)

end PendingMessage

/-- What a call has done: `MessageHandler_Send` with the slot and the bytes it has stored and
handed over, if it has, and its result; `MessageHandler_Process` with what it has handed over from
which slot. -/
inductive SendOut where
  | sent (stored : Option (Fin 16 × List UInt8)) (result : Bool)
  | retried (handed : List (Fin 16 × List UInt8))

namespace MessageSender

/-- `MessageHandler_Init`; `last_cleanup` is left alone. -/
def init (s : MessageSender) : MessageSender :=
  { s with pending := fun _ => ⟨Buf.fill 256 0, 0, 0, 0, false⟩, msgHandlerInit := true }

def findFreeSlot (s : MessageSender) : Option (Fin 16) :=
  (List.finRange 16).find? fun i => !(s.pending i).active

def cleanupOldMessages (s : MessageSender) (currentTime : UInt32) : MessageSender :=
  { s with pending := fun i => (s.pending i).cleanup currentTime }

/-- The cleanup that `MessageHandler_Send` makes when there is no free slot. -/
def makeRoom (s : MessageSender) (cleanupTime : UInt32) : MessageSender :=
  if s.findFreeSlot = none then s.cleanupOldMessages cleanupTime else s

/-- `MessageHandler_Send`; `accepted` is the answer of `NetworkHandler_Send`. -/
def send (s : MessageSender) (data : Option (List UInt8)) (cleanupTime now : UInt32)
    (accepted : Bool) : Option (MessageSender × SendOut) :=
  match data with
  | none => some (s, .sent none false)
  | some data =>
    if ¬ s.msgHandlerInit ∨ data.length = 0 then some (s, .sent none false)
    else
      let s := s.makeRoom cleanupTime
      match s.findFreeSlot with
      | none => some (s, .sent none false)
      | some slot => do
        let buffer ← (s.pending slot).data.blit 0 data
        some ({ s with
          pending := update s.pending slot ⟨buffer, data.length, now, 0, true⟩ },
          .sent (some (slot, data)) accepted)

/-- The cleanup that `MessageHandler_Process` makes once a second. -/
def cleanupDue (s : MessageSender) (now cleanupTime : UInt32) : MessageSender :=
  if now - s.lastCleanup > 1000 then
    { s.cleanupOldMessages cleanupTime with lastCleanup := now }
  else s

def process (s : MessageSender) (now cleanupTime : UInt32) : Option (MessageSender × SendOut) :=
  if ¬ s.msgHandlerInit then some (s, .retried [])
  else do
    let s := s.cleanupDue now cleanupTime
    let (slots, handed) ← PendingMessage.retryAll now (List.finRange 16) s.pending
    some ({ s with pending := slots }, .retried handed)

end MessageSender

inductive SendCall where
  | send (data : Option (List UInt8)) (cleanupTime now : UInt32) (accepted : Bool)
  | process (now cleanupTime : UInt32)

namespace MessageSender

variable {bytes : List UInt8} {out : SendOut}

def step (s : MessageSender) : SendCall → Option (MessageSender × SendOut)
  | .send data cleanupTime now accepted => s.send data cleanupTime now accepted
  | .process now cleanupTime => s.process now cleanupTime

/-! ## What the calls say about a message -/

abbrev Entry := Taken MessageSender SendCall SendOut

/-- A message that was stored: its bytes, what `MessageHandler_Send` returned, and how often it has
been handed to `NetworkHandler_Send`. -/
structure Message where
  bytes : List UInt8
  result : Bool
  handed : Nat

/-- What `MessageHandler_Process` has handed over in a call. -/
def retried (e : Entry) : List (Fin 16 × List UInt8) :=
  match e.output with
  | .sent _ _ => []
  | .retried handed => handed

/-- The last message that was stored in slot `i`. -/
def message (i : Fin 16) : List Entry → Option Message
  | [] => none
  | e :: past =>
    match e.output with
    | .sent (some (slot, data)) result =>
      if slot = i then some ⟨data, result, 1⟩ else message i past
    | .sent none _ => message i past
    | .retried handed => (message i past).map fun m =>
      { m with handed := m.handed + (handed.map Prod.fst).count i }

/-- What a call keeps to: what is handed over again is a message whose `MessageHandler_Send`
returned true, with all its bytes; none is handed over more than four times; and no slot is said to
hold more than 256 bytes. -/
structure Kept (e : Entry) (past : List Entry) : Prop where
  whole : ∀ i bytes, (i, bytes) ∈ retried e → ∃ m ∈ message i past, m.bytes = bytes ∧
    m.result = true
  four : ∀ i, ∀ m ∈ message i (e :: past), m.handed ≤ 4
  length_le : ∀ i, (e.post.pending i).length ≤ 256

/-- What `MessageHandler_Process` would hand over from a slot. -/
def handedOver (p : PendingMessage) (currentTime : UInt32) : Option (List UInt8) :=
  if p.Due currentTime ∧ p.retries < 3 then some (p.data.elems.take p.length) else none

/-- What a call must not meet: a message of more than 256 bytes that finds a slot, or a message
that `MessageHandler_Send` has returned false for and that comes due. -/
def Sound (x : List Entry × MessageSender) : SendCall → Prop
  | .send data cleanupTime _ _ =>
    ∀ bytes ∈ data, (x.2.makeRoom cleanupTime).findFreeSlot ≠ none → bytes.length ≤ 256
  | .process now cleanupTime =>
    ∀ i, (handedOver ((x.2.cleanupDue now cleanupTime).pending i) now).isSome →
      ∀ m ∈ message i x.1, m.result = true

/-! ## The loop -/

section

variable {p : PendingMessage} {now : UInt32}

/-- A slot after `MessageHandler_Process` has come by. -/
def after (p : PendingMessage) (now : UInt32) : PendingMessage :=
  if p.Due now then
    if p.retries < 3 then { p with timestamp := now, retries := p.retries + 1 }
    else { p with active := false }
  else p

theorem retry_eq (h : p.length ≤ 256) : p.retry now = some (after p now, handedOver p now) := by
  unfold PendingMessage.retry after handedOver
  by_cases hdue : p.Due now
  · rw [if_pos hdue, if_pos hdue]
    by_cases hmore : p.retries < 3
    · rw [if_pos hmore, if_pos hmore, if_pos ⟨hdue, hmore⟩, Buf.slice_eq_some (by omega)]
      rfl
    · rw [if_neg hmore, if_neg hmore, if_neg fun h => hmore h.2]
  · rw [if_neg hdue, if_neg hdue, if_neg fun h => hdue h.1]

theorem retryAll_eq (now : UInt32) : ∀ {is : List (Fin 16)} {slots : Fin 16 → PendingMessage},
    is.Nodup → (∀ i, (slots i).length ≤ 256) →
    ∃ slots', PendingMessage.retryAll now is slots = some (slots',
        is.filterMap fun i => (handedOver (slots i) now).map (i, ·)) ∧
      (∀ i ∈ is, slots' i = after (slots i) now) ∧ ∀ i, i ∉ is → slots' i = slots i
  | [], slots, _, _ => ⟨slots, rfl, nofun, fun _ _ => rfl⟩
  | i :: is, slots, hnodup, hlen => by
    obtain ⟨hnew, hnodup⟩ := nodup_cons.mp hnodup
    have hkept : ∀ j ∈ is, update slots i (after (slots i) now) j = slots j :=
      fun j hj => update_of_ne (ne_of_mem_of_not_mem hj hnew) _ _
    have hlen' : ∀ j, (update slots i (after (slots i) now) j).length ≤ 256 := by
      intro j
      rcases eq_or_ne j i with rfl | hne
      · rw [update_self]
        refine (Nat.le_of_eq ?_).trans (hlen j)
        unfold after
        split
        · split <;> rfl
        · rfl
      · rw [update_of_ne hne]
        exact hlen j
    obtain ⟨slots', hrun, hin, hout⟩ := retryAll_eq now hnodup hlen'
    refine ⟨slots', ?_, ?_, ?_⟩
    · have hsame : (is.filterMap fun j =>
          (handedOver (update slots i (after (slots i) now) j) now).map (j, ·)) =
          is.filterMap fun j => (handedOver (slots j) now).map (j, ·) :=
        filterMap_congr fun j hj => by rw [hkept j hj]
      rw [hsame] at hrun
      simp only [PendingMessage.retryAll, retry_eq (hlen i), hrun, bind_eq_bind,
        bind_some, filterMap_cons]
      cases handedOver (slots i) now with
      | none | some bytes => rfl
    · intro j hj
      rcases mem_cons.mp hj with rfl | hj
      · rw [hout j hnew, update_self]
      · rw [hin j hj, hkept j hj]
    · intro j hj
      rw [mem_cons, not_or] at hj
      rw [hout j hj.2, update_of_ne hj.1]

theorem map_fst_handed (slots : Fin 16 → PendingMessage) (now : UInt32) (is : List (Fin 16)) :
    (is.filterMap fun i => (handedOver (slots i) now).map (i, ·)).map Prod.fst =
      is.filter fun i => (handedOver (slots i) now).isSome := by
  induction is with
  | nil => rfl
  | cons i is ih =>
    rw [filterMap_cons, filter_cons]
    cases handedOver (slots i) now with
    | none => exact ih
    | some bytes => exact congrArg (i :: ·) ih

theorem count_handed (slots : Fin 16 → PendingMessage) (now : UInt32) (i : Fin 16) :
    (((List.finRange 16).filterMap fun i => (handedOver (slots i) now).map (i, ·)).map
      Prod.fst).count i = if (handedOver (slots i) now).isSome then 1 else 0 := by
  rw [map_fst_handed]
  split
  next hsome =>
    rw [count_filter (p := fun i => (handedOver (slots i) now).isSome) hsome]
    exact count_eq_one_of_mem (nodup_finRange 16) (mem_finRange i)
  next hnone =>
    rw [count_eq_zero, mem_filter]
    exact fun h => hnone h.2

end

/-! ## Slots and messages -/

/-- The slot holds the message, and its retries count the times it was handed over. -/
structure Carries (p : PendingMessage) (m : Message) : Prop where
  bytes : m.bytes = p.data.elems.take p.length
  handed : m.handed = p.retries.toNat + 1
  retries_le : p.retries.toNat ≤ 3

/-- The invariant between the slots and the log. -/
structure Tracks (log : List Entry) (slots : Fin 16 → PendingMessage) : Prop where
  carries : ∀ i, (slots i).active = true → ∃ m ∈ message i log, Carries (slots i) m
  four : ∀ i, ∀ m ∈ message i log, m.handed ≤ 4
  length_le : ∀ i, (slots i).length ≤ 256

variable {s s' : MessageSender} {x : List Entry × MessageSender} {log : List Entry} {now : UInt32}
  {p : PendingMessage} {call : SendCall}

section

variable (h : Tracks log s.pending)
include h

theorem Tracks.cleanup (now : UInt32) : Tracks log (s.cleanupOldMessages now).pending := by
  refine ⟨fun i => ?_, h.four, fun i => ?_⟩
  · show ((s.pending i).cleanup now).active = true → ∃ m ∈ message i log,
      Carries ((s.pending i).cleanup now) m
    unfold PendingMessage.cleanup
    split
    · exact nofun
    · exact h.carries i
  · show ((s.pending i).cleanup now).length ≤ 256
    unfold PendingMessage.cleanup
    split
    · exact h.length_le i
    · exact h.length_le i

theorem Tracks.makeRoom (now : UInt32) : Tracks log (s.makeRoom now).pending := by
  unfold MessageSender.makeRoom
  split
  · exact h.cleanup now
  · exact h

theorem Tracks.cleanupDue (now cleanupTime : UInt32) :
    Tracks log (s.cleanupDue now cleanupTime).pending := by
  unfold MessageSender.cleanupDue
  split
  · exact h.cleanup cleanupTime
  · exact h

end

theorem Carries.after {m : Message} (h : Carries p m) (now : UInt32) :
    Carries (MessageSender.after p now)
      { m with handed := m.handed + if (handedOver p now).isSome then 1 else 0 } := by
  by_cases hdue : p.Due now
  · by_cases hmore : p.retries < 3
    · have hlt : p.retries.toNat < 3 := hmore
      have hsucc : (p.retries + 1).toNat = p.retries.toNat + 1 := toNat_succ_of_lt hlt (by decide)
      have hover : handedOver p now = some (p.data.elems.take p.length) := if_pos ⟨hdue, hmore⟩
      rw [MessageSender.after, if_pos hdue, if_pos hmore, hover]
      refine ⟨h.bytes, ?_, ?_⟩
      · show m.handed + 1 = (p.retries + 1).toNat + 1
        rw [hsucc, h.handed]
      · show (p.retries + 1).toNat ≤ 3
        omega
    · have hover : handedOver p now = none := if_neg fun hboth => hmore hboth.2
      rw [MessageSender.after, if_pos hdue, if_neg hmore, hover]
      exact ⟨h.bytes, h.handed, h.retries_le⟩
  · have hover : handedOver p now = none := if_neg fun hboth => hdue hboth.1
    rw [MessageSender.after, if_neg hdue, hover]
    exact ⟨h.bytes, h.handed, h.retries_le⟩

theorem active_of_handedOver (h : handedOver p now = some bytes) :
    p.active = true ∧ bytes = p.data.elems.take p.length := by
  unfold handedOver at h
  split at h
  next hdue => exact ⟨hdue.1.1, (Option.some.inj h).symm⟩
  · cases h

theorem active_of_after (h : (after p now).active = true) : p.active = true := by
  unfold after at h
  split at h
  next hdue => exact hdue.1
  · exact h

structure Inv (x : List Entry × MessageSender) : Prop where
  init : x.2.msgHandlerInit = true
  tracks : Tracks x.1 x.2.pending

/-! ## `MessageHandler_Send` -/

theorem Tracks.sent_none (h : Tracks log s'.pending) :
    Tracks (⟨s, call, .sent none false, s'⟩ :: log) s'.pending ∧
      Kept ⟨s, call, .sent none false, s'⟩ log :=
  ⟨⟨h.carries, h.four, h.length_le⟩, ⟨nofun, h.four, h.length_le⟩⟩

theorem Tracks.sent_some {slots : Fin 16 → PendingMessage} {slot : Fin 16} {data : List UInt8}
    {buffer : Buf UInt8 256} {result : Bool} (h : Tracks log slots)
    (hblit : (slots slot).data.blit 0 data = some buffer)
    (hs' : s'.pending = update slots slot ⟨buffer, data.length, now, 0, true⟩) :
    Tracks (⟨s, call, .sent (some (slot, data)) result, s'⟩ :: log) s'.pending ∧
      Kept ⟨s, call, .sent (some (slot, data)) result, s'⟩ log := by
  have hfit : 0 + data.length ≤ 256 := Buf.blit_isSome.mp (isSome_iff_exists.mpr ⟨_, hblit⟩)
  have hbytes : buffer.elems.take data.length = data := by
    have htake := Buf.take_of_blit hblit
    rwa [Nat.zero_add] at htake
  have hself : message slot (⟨s, call, .sent (some (slot, data)) result, s'⟩ :: log) =
      some ⟨data, result, 1⟩ := if_pos rfl
  have hother : ∀ i, i ≠ slot →
      message i (⟨s, call, .sent (some (slot, data)) result, s'⟩ :: log) = message i log :=
    fun i hi => if_neg hi.symm
  have hfour : ∀ i, ∀ m ∈ message i (⟨s, call, .sent (some (slot, data)) result, s'⟩ :: log),
      m.handed ≤ 4 := by
    intro i m hm
    rcases eq_or_ne i slot with rfl | hne
    · rw [hself] at hm
      cases hm
      exact (by decide : 1 ≤ 4)
    · rw [hother i hne] at hm
      exact h.four i m hm
  have hlen : ∀ i, (s'.pending i).length ≤ 256 := by
    intro i
    rw [hs']
    rcases eq_or_ne i slot with rfl | hne
    · rw [update_self]
      exact Nat.zero_add data.length ▸ hfit
    · rw [update_of_ne hne]
      exact h.length_le i
  refine ⟨⟨fun i => ?_, hfour, hlen⟩, ⟨nofun, hfour, hlen⟩⟩
  rw [hs']
  rcases eq_or_ne i slot with rfl | hne
  · rw [update_self, hself]
    exact fun _ => ⟨_, rfl, hbytes.symm, rfl, Nat.zero_le 3⟩
  · rw [update_of_ne hne, hother i hne]
    exact h.carries i

/-- **`MessageHandler_Send`** returns exactly if no message of more than 256 bytes finds a slot. -/
theorem Inv.send_defined_iff (h : Inv x) (data : Option (List UInt8)) (cleanupTime now : UInt32)
    (accepted : Bool) :
    Sound x (.send data cleanupTime now accepted) ↔
      ∃ s' out, x.2.send data cleanupTime now accepted = some (s', out) := by
  cases data with
  | none => exact iff_of_true (nofun) ⟨_, _, rfl⟩
  | some data =>
    simp only [MessageSender.send, h.init, not_true, false_or]
    split
    case isTrue hzero =>
      refine iff_of_true ?_ ⟨_, _, rfl⟩
      rintro bytes hbytes -
      cases hbytes
      omega
    case isFalse =>
      cases hslot : (x.2.makeRoom cleanupTime).findFreeSlot with
      | none => exact iff_of_true (fun _ _ hfound => absurd hslot hfound) ⟨_, _, rfl⟩
      | some slot =>
        constructor
        · intro hsound
          have hfit := hsound data rfl (by rw [hslot]; exact some_ne_none slot)
          obtain ⟨buffer, hblit, -⟩ :=
            ((x.2.makeRoom cleanupTime).pending slot).data.blit_eq_some 0 data (by omega)
          exact ⟨_, _, by simp only [some_bind hblit]; rfl⟩
        · rintro ⟨s', out, heq⟩ bytes hbytes -
          cases hbytes
          obtain ⟨buffer, hblit, -⟩ := bind_eq_some_iff.mp heq
          have hfit := Buf.blit_isSome.mp (isSome_iff_exists.mpr ⟨_, hblit⟩)
          omega

theorem makeRoom_init (h : s.msgHandlerInit = true) (cleanupTime : UInt32) :
    (s.makeRoom cleanupTime).msgHandlerInit = true := by
  unfold MessageSender.makeRoom
  split
  · exact h
  · exact h

theorem Inv.send (h : Inv x) {data : Option (List UInt8)} {cleanupTime : UInt32} {accepted : Bool}
    (heq : x.2.send data cleanupTime now accepted = some (s', out)) :
    Inv (⟨x.2, .send data cleanupTime now accepted, out, s'⟩ :: x.1, s') ∧
      Kept ⟨x.2, .send data cleanupTime now accepted, out, s'⟩ x.1 := by
  have hroom := h.tracks.makeRoom cleanupTime
  have hinit := makeRoom_init h.init cleanupTime
  cases data with
  | none =>
    cases heq
    exact ⟨⟨h.init, h.tracks.sent_none.1⟩, h.tracks.sent_none.2⟩
  | some data =>
    simp only [MessageSender.send, h.init, not_true, false_or] at heq
    split at heq
    · cases heq
      exact ⟨⟨h.init, h.tracks.sent_none.1⟩, h.tracks.sent_none.2⟩
    · cases hslot : (x.2.makeRoom cleanupTime).findFreeSlot with
      | none =>
        rw [hslot] at heq
        cases heq
        exact ⟨⟨hinit, hroom.sent_none.1⟩, hroom.sent_none.2⟩
      | some slot =>
        rw [hslot] at heq
        obtain ⟨buffer, hblit, heq⟩ := bind_eq_some_iff.mp heq
        cases heq
        exact ⟨⟨hinit, (hroom.sent_some hblit rfl).1⟩, (hroom.sent_some hblit rfl).2⟩

/-! ## `MessageHandler_Process` -/

def handedAll (slots : Fin 16 → PendingMessage) (now : UInt32) : List (Fin 16 × List UInt8) :=
  (List.finRange 16).filterMap fun i => (handedOver (slots i) now).map (i, ·)

theorem mem_handedAll {slots : Fin 16 → PendingMessage} {i : Fin 16} :
    (i, bytes) ∈ handedAll slots now ↔ handedOver (slots i) now = some bytes := by
  rw [handedAll, mem_filterMap]
  constructor
  · rintro ⟨j, -, hj⟩
    obtain ⟨b, hb, heq⟩ := map_eq_some_iff.mp hj
    cases heq
    exact hb
  · exact fun h => ⟨i, mem_finRange i, by rw [h]; rfl⟩

theorem process_eq (h : Inv x) (now cleanupTime : UInt32) :
    ∃ s', x.2.process now cleanupTime =
        some (s', .retried (handedAll (x.2.cleanupDue now cleanupTime).pending now)) ∧
      s'.msgHandlerInit = true ∧
      ∀ i, s'.pending i = after ((x.2.cleanupDue now cleanupTime).pending i) now := by
  have hinit : (x.2.cleanupDue now cleanupTime).msgHandlerInit = true := by
    unfold MessageSender.cleanupDue
    split
    · exact h.init
    · exact h.init
  obtain ⟨slots, hslots, hafter, -⟩ := retryAll_eq now (nodup_finRange 16)
    (h.tracks.cleanupDue now cleanupTime).length_le
  refine ⟨{ x.2.cleanupDue now cleanupTime with pending := slots }, ?_, hinit,
    fun i => hafter i (mem_finRange i)⟩
  simp only [MessageSender.process, h.init, not_true, if_false, some_bind hslots]
  rfl

section

variable {log : List Entry} {slots : Fin 16 → PendingMessage} {s s' : MessageSender}
  {call : SendCall} {now : UInt32}

theorem message_retried (i : Fin 16) :
    message i (⟨s, call, .retried (handedAll slots now), s'⟩ :: log) = (message i log).map fun m =>
        { m with handed := m.handed + if (handedOver (slots i) now).isSome then 1 else 0 } := by
  show (message i log).map _ = _
  rw [handedAll, count_handed]

theorem Tracks.retried (h : Tracks log slots) (hafter : ∀ i, s'.pending i = after (slots i) now) :
    Tracks (⟨s, call, .retried (handedAll slots now), s'⟩ :: log) s'.pending := by
  refine ⟨fun i hactive => ?_, fun i m hm => ?_, fun i => ?_⟩
  · rw [hafter] at hactive ⊢
    obtain ⟨m, hm, hcarries⟩ := h.carries i (active_of_after hactive)
    rw [message_retried, mem_def.mp hm]
    exact ⟨_, rfl, hcarries.after now⟩
  · rw [message_retried] at hm
    obtain ⟨m₀, hm₀, rfl⟩ := map_eq_some_iff.mp hm
    cases hover : handedOver (slots i) now with
    | none => exact h.four i m₀ hm₀
    | some bytes =>
      obtain ⟨m₁, hm₁, hcarries⟩ := h.carries i (active_of_handedOver hover).1
      obtain rfl := mem_unique hm₀ hm₁
      have hnext := hcarries.after now
      rw [hover] at hnext
      have hhanded := hnext.handed
      have hretries := hnext.retries_le
      show m₀.handed + 1 ≤ 4
      change m₀.handed + 1 = _ at hhanded
      omega
  · rw [hafter]
    refine (Nat.le_of_eq ?_).trans (h.length_le i)
    unfold after
    split
    · split <;> rfl
    · rfl

theorem Tracks.kept_retried_iff (h : Tracks log slots)
    (hafter : ∀ i, s'.pending i = after (slots i) now) :
    Kept ⟨s, call, .retried (handedAll slots now), s'⟩ log ↔
      ∀ i, (handedOver (slots i) now).isSome → ∀ m ∈ message i log, m.result = true := by
  have hnext : Tracks (⟨s, call, .retried (handedAll slots now), s'⟩ :: log) s'.pending :=
    h.retried hafter
  constructor
  · intro hkept i hsome m hm
    obtain ⟨bytes, hover⟩ := isSome_iff_exists.mp hsome
    obtain ⟨m', hm', -, hresult⟩ := hkept.whole i bytes (mem_handedAll.mpr hover)
    obtain rfl := mem_unique hm hm'
    exact hresult
  · intro hok
    refine ⟨fun i bytes hmem => ?_, hnext.four, hnext.length_le⟩
    have hover := mem_handedAll.mp hmem
    obtain ⟨hactive, rfl⟩ := active_of_handedOver hover
    obtain ⟨m, hm, hcarries⟩ := h.carries i hactive
    exact ⟨m, hm, hcarries.bytes, hok i (by rw [hover]; rfl) m hm⟩

end

/-- **`MessageHandler_Process`** always returns, and keeps to the rules exactly if no message comes
due that was reported as not sent. -/
theorem Inv.process (h : Inv x) (now cleanupTime : UInt32) :
    ∃ s' out, x.2.process now cleanupTime = some (s', out) ∧
      Inv (⟨x.2, .process now cleanupTime, out, s'⟩ :: x.1, s') ∧
      (Kept ⟨x.2, .process now cleanupTime, out, s'⟩ x.1 ↔ Sound x (.process now cleanupTime)) := by
  obtain ⟨s', hs', hinit, hafter⟩ := process_eq h now cleanupTime
  have htracks := h.tracks.cleanupDue now cleanupTime
  exact ⟨s', _, hs', ⟨hinit, htracks.retried hafter⟩, htracks.kept_retried_iff hafter⟩

theorem Inv.step_iff (h : Inv x) (call : SendCall) :
    Sound x call ↔ ∃ s' out, x.2.step call = some (s', out) ∧ Kept ⟨x.2, call, out, s'⟩ x.1 := by
  cases call with
  | send data cleanupTime now accepted =>
    rw [h.send_defined_iff]
    exact exists_congr fun s' => exists_congr fun out =>
      ⟨fun hs' => ⟨hs', (h.send hs').2⟩, And.left⟩
  | process now cleanupTime =>
    obtain ⟨s', out, hs', -, hiff⟩ := h.process now cleanupTime
    rw [← hiff]
    constructor
    · exact fun hkept => ⟨s', out, hs', hkept⟩
    · rintro ⟨s₁, out₁, hs₁, hkept⟩
      cases hs'.symm.trans hs₁
      exact hkept

theorem Inv.step (h : Inv x) (hs' : x.2.step call = some (s', out)) :
    Inv (⟨x.2, call, out, s'⟩ :: x.1, s') := by
  cases call with
  | send data cleanupTime now accepted =>
    exact (h.send hs').1
  | process now cleanupTime =>
    obtain ⟨s₁, out₁, hs₁, hinv, -⟩ := h.process now cleanupTime
    cases hs₁.symm.trans hs'
    exact hinv

theorem inv_init (s : MessageSender) : Inv ([], s.init) :=
  ⟨rfl, nofun, nofun, fun _ => Nat.zero_le 256⟩

end MessageSender

open MessageSender

/-- **Messages are sent as they should be** (`Kept`) exactly in the runs where none of more than 256
bytes finds a slot and none comes due whose `MessageHandler_Send` returned false. -/
theorem sends_kept_iff (s : MessageSender) (calls : List SendCall) :
    Throughout (logged MessageSender.step) (fun x => Historically Kept x.1) ([], s.init) calls ↔
      Along (logged MessageSender.step) Sound ([], s.init) calls :=
  historically_iff Inv (fun _ call h => h.step_iff call) (fun _ _ _ _ h _ hs' => h.step hs') calls
    (inv_init s) trivial

def blankSender : MessageSender := ⟨fun _ => ⟨Buf.fill 256 0, 0, 0, 0, false⟩, 0, false⟩

/-- `NetworkHandler_Send` refuses a message, and `MessageHandler_Process` comes 51 ms later. -/
def refusedSend : List SendCall := [.send (some [0x3E, 0x00]) 0 0 false, .process 51 51]

/-- `MessageHandler_Send` returns false, and `MessageHandler_Process` hands the message over
again; and a message of 257 bytes is copied past the end of its slot. -/
theorem refused_message_sent :
    (run MessageSender.step blankSender.init refusedSend).map Prod.snd =
      some [.sent (some (0, [0x3E, 0x00])) false, .retried [(0, [0x3E, 0x00])]] ∧
    ¬ Throughout (logged MessageSender.step) (fun x => Historically Kept x.1)
      ([], blankSender.init) refusedSend ∧
    (blankSender.init.step (.send (some (List.replicate 257 0)) 0 0 true)).isNone := by
  refine ⟨rfl, ?_, by decide +kernel⟩
  rintro ⟨-, _, _, h₁, -, _, _, h₂, hlast⟩
  cases h₁
  cases h₂
  obtain ⟨m, hm, -, hresult⟩ := hlast.1.whole 0 [0x3E, 0x00] (mem_singleton_self _)
  cases hm
  cases hresult

end Cant.Network
