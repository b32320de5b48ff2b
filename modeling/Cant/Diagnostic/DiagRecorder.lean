/-
# `DiagRecorder` — the recording of diagnostic events (`diag_recorder.c`)

The recorder keeps the first `max_entries` records, or in circular mode the newest. `GetEntry`
counts from the start of the array and not from the oldest record; a record is numbered with the
count of the entries, which stops at `max_entries`; and `AddCustomRecord` does not ask whether
`add_entry` has stored the record. `recording_exact_iff` says when all this does not matter.

The array is as long as the entries that are counted: `current_index` is their number, or below it
once they are `max_entries`.
-/
import Cant.Lib.Run

namespace Cant.Diagnostic.DiagRecorder

open Run List

structure CustomRecord where
  timestamp : UInt32
  type : UInt32
  data : List UInt8

structure Config where
  maxEntries : Nat
  circularBuffer : Bool

/-- `RecorderContext`; an entry is a sequence number and a record. -/
structure Recorder where
  entries : List (Nat × CustomRecord)
  currentIndex : Nat
  recording : Bool

inductive Call where
  | start
  | stop
  | clear
  | addCustomRecord (timestamp type : UInt32) (data : Option (List UInt8))

def init : Recorder := ⟨[], 0, false⟩

def Recorder.write (s : Recorder) (index : Nat) (entry : Nat × CustomRecord) : Recorder :=
  ⟨s.entries.take index ++ entry :: s.entries.drop (index + 1), index + 1, s.recording⟩

variable (config : Config)

def addEntry (s : Recorder) (entry : Nat × CustomRecord) : Recorder :=
  if s.currentIndex < config.maxEntries then s.write s.currentIndex entry
  else if config.circularBuffer then s.write 0 entry
  else s

/-- The record that a call makes, if `DiagRecorder_AddCustomRecord` passes its checks. -/
def made (s : Recorder) : Call → Option CustomRecord
  | .addCustomRecord timestamp type (some data) =>
    if s.recording ∧ data.length ≤ 64 then some ⟨timestamp, type, data⟩ else none
  | _ => none

def step (s : Recorder) (call : Call) : Recorder × Bool :=
  match call, made s call with
  | .start, _ => ({ s with recording := true }, false)
  | .stop, _ => ({ s with recording := false }, false)
  | .clear, _ => ({ s with entries := [], currentIndex := 0 }, false)
  | .addCustomRecord .., some record => (addEntry config s (s.entries.length, record), true)
  | .addCustomRecord .., none => (s, false)

def window (records : List CustomRecord) : List CustomRecord :=
  if config.circularBuffer then records.drop (records.length - config.maxEntries)
  else records.take config.maxEntries

def keep (kept : List CustomRecord) (s : Recorder) (call : Call) : List CustomRecord :=
  match call, made s call with
  | .clear, _ => []
  | _, some record => window config (kept ++ [record])
  | _, none => kept

def recorded (x : Recorder × List CustomRecord) (call : Call) :
    Option ((Recorder × List CustomRecord) × Bool) :=
  some (((step config x.1 call).1, keep config x.2 x.1 call), (step config x.1 call).2)

/-- The entries are what was to be kept, numbered upwards, and the answer is whether one was
stored. -/
def Exact (e : Taken (Recorder × List CustomRecord) Call Bool) : Prop :=
  e.post.1.entries.map (·.2) = e.post.2 ∧ e.post.1.entries.Pairwise (·.1 < ·.1) ∧
    (e.output = true ↔ ∃ record, made e.pre.1 e.input = some record ∧
      (config.circularBuffer = true ∨ e.pre.2.length < config.maxEntries))

def Room (x : Recorder × List CustomRecord) (call : Call) : Prop :=
  made x.1 call = none ∨ x.2.length < config.maxEntries ∨
    config.circularBuffer = true ∧ config.maxEntries = 1

structure Inv (x : Recorder × List CustomRecord) : Prop where
  kept : x.1.entries.map (·.2) = x.2
  index : x.1.currentIndex = x.1.entries.length
  room : x.1.entries.length ≤ config.maxEntries
  numbers : config.maxEntries = 1 ∨ x.1.entries.map (·.1) = List.range x.1.entries.length

variable {config : Config} {x : Recorder × List CustomRecord}

theorem Inv.count (h : Inv config x) : x.2.length = x.1.entries.length := by
  rw [← h.kept, length_map]

theorem Inv.upwards (h : Inv config x) : x.1.entries.Pairwise (·.1 < ·.1) := by
  rcases h.numbers with hone | hnumbers
  · match hentries : x.1.entries, hone ▸ h.room with
    | [], _ => exact .nil
    | [entry], _ => exact pairwise_singleton ..
  · exact pairwise_map.mp (hnumbers ▸ pairwise_lt_range)

theorem Inv.append (h : Inv config x) (hroom : x.2.length < config.maxEntries) (r : CustomRecord) :
    Inv config (addEntry config x.1 (x.1.entries.length, r), x.2 ++ [r]) := by
  rw [h.count] at hroom
  rw [addEntry, h.index, if_pos hroom, Recorder.write, take_length,
    drop_eq_nil_of_le (Nat.le_succ _)]
  refine ⟨?_, ?_, ?_, h.numbers.imp_right fun hnumbers => ?_⟩ <;> dsimp only
  · rw [map_append, h.kept]
    rfl
  · rw [length_append]
    rfl
  · rw [length_append]
    exact hroom
  · rw [map_append, hnumbers, length_append]
    exact range_succ.symm

theorem window_of_le {records : List CustomRecord} (hle : records.length ≤ config.maxEntries) :
    window config records = records := by
  rw [window, Nat.sub_eq_zero_of_le hle, take_of_length_le hle]
  exact ite_self _

theorem Inv.not_upwards (h : Inv config x) (hfull : x.1.entries.length = config.maxEntries)
    (hentries : 1 ≤ config.maxEntries) (hone : config.maxEntries ≠ 1) (r : CustomRecord) :
    ¬ (x.1.write 0 (config.maxEntries, r)).entries.Pairwise (·.1 < ·.1) := by
  have hnumbers := h.numbers.resolve_left hone
  rw [Recorder.write]
  match hshape : x.1.entries with
  | [] | [_] => simp only [hshape, length_nil, length_singleton] at hfull; omega
  | _ :: second :: rest =>
    rw [hshape] at hnumbers
    have hsecond : second.1 = 1 := Option.some.inj
      ((congrArg (·[1]?) hnumbers).trans (getElem?_range (by simp)))
    intro hup
    have hlt := (pairwise_cons.mp hup).1 second mem_cons_self
    exact Nat.not_lt.mpr hentries (hsecond ▸ hlt)

/-- **When the recording is what it should be.** For every configuration with room for an entry and
every run of calls: exactly if every record finds room, or takes the place of the only one. -/
theorem recording_exact_iff (hentries : 1 ≤ config.maxEntries) (calls : List Call) :
    Every (recorded config) (Exact config) (init, []) calls ↔
      Along (recorded config) (Room config) (init, []) calls := by
  refine every_iff_along (Inv config) (fun x call h => ⟨_, _, rfl, ?_⟩) calls
    ⟨rfl, rfl, Nat.zero_le _, .inr rfl⟩
  have good (hroom : Room config x call) {post : Recorder × List CustomRecord}
    (hpost : Inv config post)
      {answer : Bool} (hanswer : answer = true ↔ ∃ record, made x.1 call = some record ∧
        (config.circularBuffer = true ∨ x.2.length < config.maxEntries)) :
      (Room config x call → Inv config post) ∧
        (Room config x call ↔ Exact config ⟨x, call, answer, post⟩) :=
    ⟨fun _ => hpost, fun _ => ⟨hpost.kept, hpost.upwards, hanswer⟩, fun _ => hroom⟩
  have hsame (recording : Bool) : Inv config ({ x.1 with recording }, x.2) :=
    ⟨h.kept, h.index, h.room, h.numbers⟩
  cases call with
  | start => exact good (.inl rfl) (hsame true) (by simp [made, step])
  | stop => exact good (.inl rfl) (hsame false) (by simp [made, step])
  | clear => exact good (.inl rfl) ⟨rfl, rfl, Nat.zero_le _, .inr rfl⟩ (by simp [made, step])
  | addCustomRecord timestamp type data =>
    cases hmade : made x.1 (.addCustomRecord timestamp type data) with
    | none =>
      simp only [step, keep, hmade]
      exact good (.inl hmade) h (by simp [hmade])
    | some r =>
      by_cases hroom : x.2.length < config.maxEntries
      · have hle : (x.2 ++ [r]).length ≤ config.maxEntries := length_append ▸ hroom
        simp only [step, keep, hmade, window_of_le hle]
        exact good (.inr (.inl hroom)) (h.append hroom r) (by simp [hmade, hroom])
      · have hfull : x.1.entries.length = config.maxEntries :=
          Nat.le_antisymm h.room (h.count ▸ Nat.not_lt.mp hroom)
        by_cases hone : config.circularBuffer = true ∧ config.maxEntries = 1
        · obtain ⟨entry, hentry⟩ := length_eq_one_iff.mp (hfull.trans hone.2)
          have hkept : x.2 = [entry.2] := h.kept.symm.trans (congrArg _ hentry)
          have hpost : Inv config (x.1.write 0 (1, r), [r]) := by
            rw [Recorder.write, hentry]
            exact ⟨rfl, rfl, hentries, .inl hone.2⟩
          simp only [step, keep, hmade, addEntry, h.index, hfull, Nat.lt_irrefl, if_false,
            hone, if_true, window, hkept]
          exact good (.inr (.inr hone)) hpost (by simp [hmade, hone])
        · have hno : ¬ Room config x (.addCustomRecord timestamp type data) := by
            rintro (hnone | hyes | hyes)
            · exact nomatch hmade.symm.trans hnone
            · exact hroom hyes
            · exact hone hyes
          refine ⟨fun hyes => absurd hyes hno, fun hyes => absurd hyes hno, fun hexact => ?_⟩
          obtain ⟨-, hup, hanswer⟩ := hexact
          simp only [step, hmade, addEntry, h.index, hfull, Nat.lt_irrefl, if_false] at hup hanswer
          obtain ⟨_, -, hstored⟩ := hanswer.mp trivial
          have hcircular := hstored.resolve_right hroom
          rw [if_pos hcircular] at hup
          exact absurd hup (h.not_upwards hfull hentries (fun hone' => hone ⟨hcircular, hone'⟩) r)

theorem recording_exact_two :
    Every (recorded ⟨2, true⟩) (Exact ⟨2, true⟩) (init, [])
      [.start, .addCustomRecord 5 1 (some [7]), .addCustomRecord 6 1 (some [8, 9])] := by
  refine (recording_exact_iff (by decide) _).mpr ((along_cons_of rfl).mpr ⟨.inl rfl, ?_⟩)
  refine (along_cons_of rfl).mpr ⟨.inr (.inl (by decide)), ?_⟩
  exact (along_cons_of rfl).mpr ⟨.inr (.inl (by decide)), trivial⟩

/-- The third of three records is listed first; and the second is not stored where one is kept, but
`AddCustomRecord` returns true for it. -/
theorem third_record_first :
    let add : Call := .addCustomRecord 0 0 (some [])
    (run (recorded ⟨2, true⟩) (init, []) [.start, add, add, add]).map (·.1.1.entries.map (·.1)) =
        some [2, 1] ∧
      (run (recorded ⟨1, false⟩) (init, []) [.start, add, add]).map
        (fun x => (x.1.1.entries.map (·.1), x.2)) = some ([0], [false, true, true]) :=
  ⟨rfl, rfl⟩

end Cant.Diagnostic.DiagRecorder
