/-
# `DtcFreezeFrame` — freeze frames and their bytes

A frame is to be read back as it was added, as long as its trouble code is stored, and no two
frames are to share a byte of the buffer.

Even if every slot starts with an array of its own (`withArrays`), three things break this. The
offset of a new frame is the sum of the sizes of all stored ones, which is a free place only if the
stored ones lie packed from the start of the buffer; after a removal they do not. A new code may
get a slot in which old frames were left. And a slot may have lost its array, or share one with the
slot that a record was moved to. `frames_intact` says that nothing else does: most calls are
`Quiet`.
-/
import Cant.Diagnostic.DtcStore
import Cant.Lib.Extent

namespace Cant.Diagnostic

open Keyed Past Run List Option Function

def FreezeFrameRecord.extent (f : FreezeFrameRecord) : Extent := ⟨f.offset, f.dataSize.toNat⟩

namespace DtcStorage

variable {f : DtcRecord → DtcRecord} {arrays : Nat → Nat → FreezeFrameRecord}

def frames (s : DtcStorage) : List FreezeFrameRecord := s.stored.flatMap (·.frames s.arrays)

/-- Every slot behind the stored records gets an array of its own. -/
def withArrays (s : DtcStorage) : DtcStorage :=
  { s with spare := s.spare.mapIdx fun i r => { r with freezeFrames := some i } }

/-- What has been added to a code since it was stored, the first frame first. -/
def added (dtc : UInt32) : List Entry → List (List UInt8)
  | [] => []
  | e :: past =>
    if e.post.findDtcRecord dtc = none then []
    else
      match e.input.2 with
      | .addFreezeFrame dtc' data =>
        if dtc' = dtc ∧ e.output.ok = true then added dtc past ++ [data] else added dtc past
      | _ => added dtc past

/-- Every stored code has the frames that were added to it, by their numbers, and no two
frames share a byte. -/
structure Intact (x : List Entry × DtcStorage) : Prop where
  readBack : ∀ dtc, x.2.findDtcRecord dtc ≠ none → ∀ n : UInt16,
    x.2.getFreezeFrame dtc n = if n = 0 then none else (added dtc x.1)[n.toNat - 1]?
  apart : x.2.frames.Pairwise fun f g => f.extent.Apart g.extent

/-- There is a place for a frame of the record: it has an array, no other record counts the next
entry of it as its own, and the bytes are not those of a frame. -/
def HasPlace (s : DtcStorage) (r : DtcRecord) (size : Nat) : Prop :=
  r.freezeFrames ≠ none ∧
    (∀ r' ∈ s.stored, r' ≠ r → r'.freezeFrames = r.freezeFrames →
      r'.freezeFrameCount ≤ r.freezeFrameCount) ∧
    ∀ f ∈ s.frames, Extent.Apart ⟨s.usedBytes, size⟩ f.extent
  deriving Decidable

/-- A new code gets a slot without frames, and a frame that passes the tests has a place. -/
def Spares (s : DtcStorage) : DtcCall → Prop
  | .setStatus dtc _ =>
    s.findDtcRecord dtc = none → ∀ slot ∈ s.spare.head?, slot.frames s.arrays = []
  | .addFreezeFrame dtc data =>
    ∀ r ∈ s.findDtcRecord dtc, s.Accepts r data → s.HasPlace r data.length
  | _ => True

instance (s : DtcStorage) : ∀ c, Decidable (s.Spares c)
  | .setStatus .. | .addFreezeFrame .. | .clearSingle _ | .clearAll | .processAging
  | .setSeverity .. => by
    unfold Spares
    infer_instance

/-! ## Numbered frames -/

/-- The frames have their numbers in order, from `k` on. -/
def Numbered : Nat → List FreezeFrameRecord → Prop
  | _, [] => True
  | k, f :: fs => f.recordNumber = UInt16.ofNat k ∧ Numbered (k + 1) fs

theorem Numbered.append {f : FreezeFrameRecord} : ∀ {k : Nat} {fs : List FreezeFrameRecord},
    Numbered k fs → f.recordNumber = UInt16.ofNat (k + fs.length) → Numbered k (fs ++ [f])
  | _, [], _, hf => ⟨hf, trivial⟩
  | k, _ :: fs, h, hf => by
    refine ⟨h.1, h.2.append ?_⟩
    rw [hf, length_cons, Nat.add_right_comm, Nat.add_assoc]

theorem Numbered.find {n : UInt16} : ∀ {k : Nat} {fs : List FreezeFrameRecord},
    Numbered k fs → k + fs.length ≤ 65536 →
    fs.find? (·.recordNumber == n) = if n.toNat < k then none else fs[n.toNat - k]?
  | k, [], _, _ => by
    rw [find?_nil, getElem?_nil, ite_self]
  | k, f :: fs, h, hlt => by
    rw [length_cons] at hlt
    have hnumber : (UInt16.ofNat k).toNat = k := UInt16.toNat_ofNat_of_lt' (show k < 65536 by omega)
    have hrest := h.2.find (n := n) (by omega)
    rw [find?_cons, h.1, hrest]
    by_cases hn : UInt16.ofNat k = n
    · rw [hn, beq_self_eq_true, ← hn, hnumber, if_neg (Nat.lt_irrefl k), Nat.sub_self]
      rfl
    · have hne : n.toNat ≠ k := fun heq => hn (UInt16.toNat_inj.mp (hnumber.trans heq.symm))
      rw [beq_eq_false_iff_ne.mpr hn]
      by_cases hbelow : n.toNat < k
      · rw [if_pos hbelow, if_pos (by omega)]
      · rw [if_neg hbelow, if_neg (by omega), show n.toNat - k = n.toNat - (k + 1) + 1 by omega]
        rfl

/-- A record's frames are the given bytes, in order. -/
structure Carries (buffer : Mem) (fs : List FreezeFrameRecord) (data : List (List UInt8)) :
    Prop where
  numbered : Numbered 1 fs
  bytes : fs.map (fun f => buffer.load f.offset f.dataSize.toNat) = data

variable {dtc : UInt32} {r : DtcRecord} {x : List Entry × DtcStorage} {e : Entry}

theorem getFreezeFrame_eq {s : DtcStorage} (hinit : s.initialized = true)
    (hr : s.findDtcRecord dtc = some r) (n : UInt16) :
    s.getFreezeFrame dtc n = ((r.frames s.arrays).find? (·.recordNumber == n)).map fun f =>
      s.buffer.load f.offset f.dataSize.toNat := by
  simp only [getFreezeFrame, validateDtc_iff, hinit, hr, isSome_some, Bool.not_true,
    Bool.or_self, Bool.false_eq_true, if_false, bind_eq_bind, bind_some]
  cases (r.frames s.arrays).find? (·.recordNumber == n) with
  | none | some f => rfl

theorem Carries.readBack {s : DtcStorage} {data : List (List UInt8)}
    (h : Carries s.buffer (r.frames s.arrays) data) (hinit : s.initialized = true)
    (hr : s.findDtcRecord dtc = some r) (hcount : (r.frames s.arrays).length ≤ 10) (n : UInt16) :
    s.getFreezeFrame dtc n = if n = 0 then none else data[n.toNat - 1]? := by
  have hzero : n.toNat < 1 ↔ n = 0 := by
    rw [Nat.lt_one_iff, ← UInt16.toNat_inj, UInt16.toNat_zero]
  rw [getFreezeFrame_eq hinit hr, h.numbered.find (by omega), ← h.bytes, getElem?_map]
  by_cases hn : n = 0
  · rw [if_pos hn, if_pos (hzero.mpr hn)]
    rfl
  · rw [if_neg hn, if_neg fun hlt => hn (hzero.mp hlt)]

/-! ## Calls that move no frame -/

theorem flatMap_survives (config : DtcConfig) (l : List DtcRecord) :
    ((l.filterMap (DtcRecord.survives config)).flatMap (·.frames arrays)).Sublist
      (l.flatMap (·.frames arrays)) := by
  induction l with
  | nil => exact List.Sublist.refl _
  | cons r l ih =>
    by_cases hr : r.expires config = true
    · have hnone : r.survives config = none := if_pos hr
      rw [filterMap_cons_none hnone]
      exact ih.trans (sublist_append_right _ _)
    · have hsome : r.survives config = some (r.aged config) := if_neg hr
      rw [filterMap_cons_some hsome, flatMap_cons, r.frames_aged]
      exact ih.append_left _

theorem flatMap_update (hf : ∀ r, (f r).frames arrays = r.frames arrays) (dtc : UInt32)
    (l : List DtcRecord) : (update DtcRecord.dtcNumber dtc f l).flatMap (·.frames arrays) =
      l.flatMap (·.frames arrays) := by
  rw [flatMap_def, map_update hf, flatMap_def]

/-- No frame is new, and a code that is stored had its frames before. -/
structure Quiet (s s' : DtcStorage) : Prop where
  frames : s'.frames.Sublist s.frames
  kept : ∀ dtc r', s'.findDtcRecord dtc = some r' → s'.buffer = s.buffer ∧
    ∃ r, s.findDtcRecord dtc = some r ∧ r'.frames s'.arrays = r.frames s.arrays

theorem Quiet.refl (s : DtcStorage) : Quiet s s :=
  ⟨List.Sublist.refl _, fun _ r hr => ⟨rfl, r, hr, rfl⟩⟩

variable {config : DtcConfig} {s : DtcStorage}

theorem Quiet.changed (hkey : ∀ r, (f r).dtcNumber = r.dtcNumber)
    (hf : ∀ r, (f r).frames s.arrays = r.frames s.arrays) (hr : s.findDtcRecord dtc = some r) :
    Quiet s { s with stored := update DtcRecord.dtcNumber dtc f s.stored } := by
  constructor
  · show ((update _ dtc f s.stored).flatMap _).Sublist _
    rw [flatMap_update hf]
    exact List.Sublist.refl _
  · intro dtc' r' hr'
    have hmap := (congrFun (toMap_changed hkey hr) dtc').symm.trans hr'
    refine ⟨rfl, ?_⟩
    by_cases hdtc : dtc' = dtc
    · rw [hdtc, update_self] at hmap
      refine ⟨r, hdtc ▸ hr, ?_⟩
      rw [← Option.some.inj hmap, hf]
    · rw [update_of_ne hdtc] at hmap
      exact ⟨r', hmap, rfl⟩

theorem Quiet.cleared (h : Sound config s) (dtc : UInt32) : Quiet s (s.clearSingle dtc).1 := by
  cases hfind : s.findDtcRecord dtc with
  | none =>
    rw [clearSingle_absent hfind]
    exact Quiet.refl s
  | some r =>
    rw [clearSingle_present h.initialized hfind]
    have hsub : (remove DtcRecord.dtcNumber dtc s.stored).Sublist s.stored :=
      remove_sublist s.stored
    exact ⟨hsub.flatMap _, fun _ r' hr' => ⟨rfl, r', h.unique.lookup_of_sublist hsub hr', rfl⟩⟩

theorem Quiet.aged (h : Sound config s) : Quiet s s.processAging.1 := by
  rw [processAging_eq h.initialized]
  have hstored := ageRecords_stored s.config s.stored s.spare
  constructor
  · rw [hstored]
    exact flatMap_survives s.config s.stored
  · intro dtc r' hr'
    have hmap := congrFun (h.unique.toMap_filterMap (g := DtcRecord.survives s.config)
      fun _ _ => DtcRecord.dtcNumber_survives) dtc
    rw [← hstored] at hmap
    have hbind := hmap.symm.trans hr'
    obtain ⟨r, hr, hsurvives⟩ := bind_eq_some_iff.mp hbind
    refine ⟨rfl, r, hr, ?_⟩
    unfold DtcRecord.survives at hsurvives
    split at hsurvives
    · cases hsurvives
    · rw [← Option.some.inj hsurvives]
      exact r.frames_aged s.config s.arrays

def Adds : DtcCall → DtcAnswer → Prop
  | .addFreezeFrame _ _, o => o.ok = true
  | _, _ => False

theorem Sound.call_cases (h : Sound config s) (now : Nat) (c : DtcCall) :
    (∃ s' o, s.call now c = some (s', o) ∧ Quiet s s' ∧ ¬ Adds c o) ∨
    (∃ dtc statusMask slot spare, c = .setStatus dtc statusMask ∧ s.findDtcRecord dtc = none ∧
      s.spare = slot :: spare) ∨
    ∃ r data, c = .addFreezeFrame r.dtcNumber data ∧ s.findDtcRecord r.dtcNumber = some r ∧
      s.Accepts r data := by
  cases c with
  | setStatus dtc statusMask =>
    cases hfind : s.findDtcRecord dtc with
    | some r =>
      exact .inl ⟨_, _, congrArg some (setStatus_present h.initialized hfind _),
        Quiet.changed (fun _ => rfl) (fun _ => rfl) hfind, id⟩
    | none =>
      cases hspare : s.spare with
      | nil =>
        exact .inl ⟨_, _, congrArg some (setStatus_full hfind hspare _), Quiet.refl s, id⟩
      | cons slot spare => exact .inr (.inl ⟨dtc, statusMask, slot, spare, rfl, hfind, rfl⟩)
  | addFreezeFrame dtc data =>
    by_cases haccepts : ∃ r ∈ s.findDtcRecord dtc, s.Accepts r data
    · obtain ⟨r, hr, haccepts⟩ := haccepts
      obtain ⟨-, rfl⟩ := mem_of_lookup hr
      exact .inr (.inr ⟨r, data, rfl, hr, haccepts⟩)
    · have hno : s.addFreezeFrame now dtc data = some (s, ⟨false, none⟩) := by
        rw [addFreezeFrame_eq]
        split
        · rfl
        case h_2 r hr => exact if_neg fun h => haccepts ⟨r, hr, h⟩
      exact .inl ⟨_, _, hno, Quiet.refl s, Bool.false_ne_true⟩
  | clearSingle dtc => exact .inl ⟨_, _, rfl, Quiet.cleared h dtc, id⟩
  | clearAll =>
    exact .inl ⟨_, _, congrArg some (clearAll_eq h.initialized), ⟨nil_sublist _, nofun⟩, id⟩
  | processAging => exact .inl ⟨_, _, rfl, Quiet.aged h, id⟩
  | setSeverity dtc severity =>
    cases hfind : s.findDtcRecord dtc with
    | none =>
      exact .inl ⟨_, _, congrArg some (setSeverity_absent hfind _), Quiet.refl s, id⟩
    | some r =>
      exact .inl ⟨_, _, congrArg some (setSeverity_present h.initialized hfind _),
        Quiet.changed (fun _ => rfl) (fun _ => rfl) hfind, id⟩

structure Whole (config : DtcConfig) (x : List Entry × DtcStorage) : Prop where
  sound : Sound config x.2
  limit : config.maxFreezeFramesPerDtc.toNat ≤ 10
  carries : ∀ dtc r, x.2.findDtcRecord dtc = some r →
    (r.frames x.2.arrays).length ≤ config.maxFreezeFramesPerDtc.toNat ∧
      Carries x.2.buffer (r.frames x.2.arrays) (added dtc x.1)
  absent : ∀ dtc, x.2.findDtcRecord dtc = none → added dtc x.1 = []
  apart : x.2.frames.Pairwise fun f g => f.extent.Apart g.extent

theorem Whole.intact (h : Whole config x) : Intact x := by
  refine ⟨fun dtc hstored n => ?_, h.apart⟩
  obtain ⟨r, hr⟩ := ne_none_iff_exists'.mp hstored
  obtain ⟨hcount, hcarries⟩ := h.carries dtc r hr
  exact hcarries.readBack h.sound.initialized hr (hcount.trans h.limit) n

theorem added_absent (h : e.post.findDtcRecord dtc = none) (past : List Entry) :
    added dtc (e :: past) = [] := by
  rw [added, if_pos h]

theorem added_stored (h : e.post.findDtcRecord dtc ≠ none) (hnot : ¬ Adds e.input.2 e.output)
    (past : List Entry) : added dtc (e :: past) = added dtc past := by
  rw [added, if_neg h]
  split
  case h_1 dtc' data hcall =>
    rw [hcall] at hnot
    exact if_neg fun hadd => hnot hadd.2
  · rfl

theorem Whole.quiet (h : Whole config x) (hsound : Sound config e.post) (hquiet : Quiet x.2 e.post)
    (hnot : ¬ Adds e.input.2 e.output) : Whole config (e :: x.1, e.post) := by
  refine ⟨hsound, h.limit, fun dtc r' hr' => ?_, fun dtc hnone => added_absent hnone _,
    h.apart.sublist hquiet.frames⟩
  obtain ⟨hbuffer, r, hr, hframes⟩ := hquiet.kept dtc r' hr'
  have hstored : e.post.findDtcRecord dtc ≠ none := hr' ▸ some_ne_none r'
  rw [added_stored hstored hnot, hframes]
  rw [hbuffer]
  exact h.carries dtc r hr

/-! ### A new code -/

variable {spare : List DtcRecord}

theorem Whole.appended (h : Whole config x) (hsound : Sound config e.post)
    (hpost : e.post = { x.2 with stored := x.2.stored ++ [r], spare })
    (hnew : x.2.findDtcRecord r.dtcNumber = none) (hnot : ¬ Adds e.input.2 e.output)
    (hframes : r.frames x.2.arrays = []) : Whole config (e :: x.1, e.post) := by
  have hfind : ∀ dtc, e.post.findDtcRecord dtc =
      if dtc = r.dtcNumber then some r else x.2.findDtcRecord dtc := by
    intro dtc
    rw [hpost]
    refine (congrFun (toMap_append hnew) dtc).trans ?_
    rw [update_apply]
    rfl
  have harrays : e.post.arrays = x.2.arrays := by rw [hpost]
  refine ⟨hsound, h.limit, fun dtc r' hr' => ?_, fun dtc hnone => added_absent hnone _, ?_⟩
  · have hstored : e.post.findDtcRecord dtc ≠ none := hr' ▸ some_ne_none r'
    have hbuffer : e.post.buffer = x.2.buffer := by rw [hpost]
    rw [added_stored hstored hnot]
    rw [hbuffer, harrays]
    have hcase := (hfind dtc).symm.trans hr'
    split at hcase
    case isTrue hdtc =>
      cases hcase
      rw [hframes, h.absent dtc (hdtc ▸ hnew)]
      exact ⟨Nat.zero_le _, trivial, rfl⟩
    case isFalse => exact h.carries dtc r' hcase
  · have hsame : e.post.frames = x.2.frames := by
      rw [hpost]
      show (x.2.stored ++ [r]).flatMap _ = _
      rw [flatMap_append, flatMap_singleton, hframes, append_nil]
      rfl
    rw [hsame]
    exact h.apart

/-! ### A new frame -/

section

variable {size offset array : Nat} {buffer : Mem} {datas : List (List UInt8)}
variable {now : Nat} {r' : DtcRecord} {data : List UInt8}

theorem frames_counted (harray : r.freezeFrames = some array) (frame : FreezeFrameRecord) :
    r.counted.frames (Function.update arrays array (Function.update (arrays array)
      r.freezeFrameCount frame)) = r.frames arrays ++ [frame] := by
  simp only [DtcRecord.frames, DtcRecord.counted, harray, range_succ, map_append,
    map_singleton, update_self]
  refine congrArg (· ++ [frame]) (map_congr_left fun i hi => ?_)
  exact update_of_ne (mem_range.mp hi).ne _ _

theorem frames_other (hle : r'.freezeFrames = some array → r'.freezeFrameCount ≤ r.freezeFrameCount)
    (frame : FreezeFrameRecord) :
    r'.frames (Function.update arrays array (Function.update (arrays array) r.freezeFrameCount
      frame)) = r'.frames arrays := by
  unfold DtcRecord.frames
  cases hptr : r'.freezeFrames with
  | none => rfl
  | some array' =>
    refine map_congr_left fun i hi => ?_
    by_cases heq : array' = array
    · have hlt := (mem_range.mp hi).trans_le (hle (heq ▸ hptr))
      rw [heq, update_self, update_of_ne hlt.ne]
    · rw [update_of_ne heq]

theorem length_frames (harray : r.freezeFrames = some array) :
    (r.frames arrays).length = r.freezeFrameCount := by
  simp [DtcRecord.frames, harray]

theorem toNat_frameSize (hsize : size ≤ 100) : (UInt16.ofNat size).toNat = size :=
  UInt16.toNat_ofNat_of_lt' (hsize.trans_lt (by decide))

theorem extent_nextFrame (hsize : size ≤ 100) :
    (r.nextFrame now offset size).extent = ⟨offset, size⟩ := by
  rw [DtcRecord.nextFrame, FreezeFrameRecord.extent, toNat_frameSize hsize]

theorem Carries.store {fs : List FreezeFrameRecord} (h : Carries buffer fs datas)
    (hapart : ∀ f ∈ fs, Extent.Apart ⟨offset, data.length⟩ f.extent) :
    Carries (buffer.store offset data) fs datas := by
  refine ⟨h.numbered, ?_⟩
  rw [← h.bytes]
  exact map_congr_left fun f hf => (hapart f hf).load_store buffer

theorem Carries.append (h : Carries (buffer.store offset data) (r.frames arrays) datas)
    (harray : r.freezeFrames = some array) (hsize : data.length ≤ 100) :
    Carries (buffer.store offset data) (r.frames arrays ++ [r.nextFrame now offset data.length])
      (datas ++ [data]) := by
  refine ⟨h.numbered.append ?_, ?_⟩
  · rw [length_frames harray, Nat.add_comm 1]
    rfl
  · rw [map_append, h.bytes, map_singleton, DtcRecord.nextFrame, toNat_frameSize hsize,
      Mem.load_store_self]

theorem mem_frames {dtc : UInt32} (hr : s.findDtcRecord dtc = some r) {f : FreezeFrameRecord}
    (hf : f ∈ r.frames s.arrays) : f ∈ s.frames :=
  mem_flatMap.mpr ⟨r, (mem_of_lookup hr).1, hf⟩

/-- The store behind a frame that was accepted. -/
structure FrameAdded (x : List Entry × DtcStorage) (e : Entry) (now : Nat) (r : DtcRecord)
    (array : Nat) (data : List UInt8) : Prop where
  call : e.input.2 = .addFreezeFrame r.dtcNumber data
  ok : e.output.ok = true
  found : x.2.findDtcRecord r.dtcNumber = some r
  accepts : x.2.Accepts r data
  pointer : r.freezeFrames = some array
  post : e.post = x.2.withFrame now r array x.2.usedBytes data

section

variable (h : FrameAdded x e now r array data)
include h

theorem FrameAdded.find (dtc : UInt32) : e.post.findDtcRecord dtc =
    if dtc = r.dtcNumber then some r.counted else x.2.findDtcRecord dtc := by
  have hkey : ∀ r : DtcRecord, r.counted.dtcNumber = r.dtcNumber := fun _ => rfl
  rw [h.post]
  refine (congrFun (toMap_changed hkey h.found) dtc).trans ?_
  rw [update_apply]
  rfl

theorem FrameAdded.added {dtc : UInt32} (hstored : e.post.findDtcRecord dtc ≠ none)
    (past : List Entry) : added dtc (e :: past) =
      if dtc = r.dtcNumber then DtcStorage.added dtc past ++ [data]
      else DtcStorage.added dtc past := by
  rw [DtcStorage.added, if_neg hstored, h.call]
  by_cases hdtc : dtc = r.dtcNumber
  · rw [if_pos hdtc]
    exact if_pos ⟨hdtc.symm, h.ok⟩
  · rw [if_neg hdtc]
    exact if_neg fun hboth => hdtc hboth.1.symm

theorem FrameAdded.pairwise (hsound : Sound config x.2) (hplace : x.2.HasPlace r data.length)
    (hapart : x.2.frames.Pairwise fun f g => f.extent.Apart g.extent) :
    e.post.frames.Pairwise fun f g => f.extent.Apart g.extent := by
  obtain ⟨-, hshare, hfree⟩ := hplace
  obtain ⟨rest, hperm, hupdate⟩ := update_perm h.found
  have hnew := (nodup_cons.mp ((hperm.map DtcRecord.dtcNumber).nodup_iff.mp hsound.unique)).1
  have hsplit : e.post.frames.Perm ((r.frames x.2.arrays ++ [r.nextFrame now x.2.usedBytes
      data.length]) ++ rest.flatMap (·.frames e.post.arrays)) := by
    have hframes : e.post.frames = e.post.stored.flatMap (·.frames e.post.arrays) := rfl
    rw [hframes, h.post]
    refine ((hupdate DtcRecord.counted).flatMap_right _).trans ?_
    rw [flatMap_cons]
    exact .of_eq (congrArg (· ++ _) (frames_counted h.pointer _))
  -- A record that shares the array has not got as far as the new entry.
  have hrest : rest.flatMap (·.frames e.post.arrays) = rest.flatMap (·.frames x.2.arrays) := by
    rw [h.post]
    refine flatMap_congr fun r' hr' => frames_other (fun hptr => ?_) _
    refine hshare r' (hperm.mem_iff.mpr (.tail _ hr')) (fun heq => hnew ?_)
      (hptr.trans h.pointer.symm)
    exact heq ▸ mem_map_of_mem hr'
  have hall : e.post.frames.Perm (r.nextFrame now x.2.usedBytes data.length :: x.2.frames) := by
    rw [hrest, append_assoc] at hsplit
    exact (hsplit.trans perm_middle).trans ((hperm.flatMap_right _).symm.cons _)
  rw [hall.pairwise_iff fun hapart => hapart.symm, pairwise_cons,
    extent_nextFrame h.accepts.2.1.2]
  exact ⟨hfree, hapart⟩

end

theorem Whole.accepted (h : Whole config x) (hsound : Sound config e.post)
    (hadd : FrameAdded x e now r array data) (hplace : x.2.HasPlace r data.length) :
    Whole config (e :: x.1, e.post) := by
  have ⟨_, hshare, hapart⟩ := hplace
  refine ⟨hsound, h.limit, fun dtc r' hr' => ?_, fun dtc hnone => added_absent hnone _,
    hadd.pairwise h.sound hplace h.apart⟩
  have hstored : e.post.findDtcRecord dtc ≠ none := hr' ▸ some_ne_none r'
  have hbuffer : e.post.buffer = x.2.buffer.store x.2.usedBytes data := by rw [hadd.post]; rfl
  rw [hadd.added hstored]
  rw [hbuffer]
  have hcase := (hadd.find dtc).symm.trans hr'
  by_cases hdtc : dtc = r.dtcNumber
  · rw [if_pos hdtc] at hcase ⊢
    cases hcase
    have hframes : r.counted.frames e.post.arrays =
        r.frames x.2.arrays ++ [r.nextFrame now x.2.usedBytes data.length] := by
      rw [hadd.post]
      exact frames_counted hadd.pointer _
    obtain ⟨-, hcarries⟩ := h.carries _ r hadd.found
    rw [hframes, hdtc]
    refine ⟨?_, ?_⟩
    · rw [length_append, length_frames hadd.pointer, ← h.sound.same]
      exact hadd.accepts.2.2.1
    · exact (hcarries.store fun f hf => hapart f (mem_frames hadd.found hf)).append hadd.pointer
        hadd.accepts.2.1.2
  · rw [if_neg hdtc] at hcase ⊢
    have hframes : r'.frames e.post.arrays = r'.frames x.2.arrays := by
      rw [hadd.post]
      obtain ⟨hmem, rfl⟩ := mem_of_lookup hcase
      exact frames_other (fun hptr => hshare r' hmem (fun heq => hdtc (heq ▸ rfl))
        (hptr.trans hadd.pointer.symm)) _
    obtain ⟨hcount, hcarries⟩ := h.carries dtc r' hcase
    rw [hframes]
    exact ⟨hcount, hcarries.store fun f hf => hapart f (mem_frames hcase hf)⟩

end

theorem Whole.step_spares {c : DtcCall} (h : Whole config x) (now : Nat) (hok : x.2.Spares c) :
    ∃ s' o, x.2.call now c = some (s', o) ∧ Whole config (⟨x.2, (now, c), o, s'⟩ :: x.1, s') := by
  rcases h.sound.call_cases now c with ⟨s', o, hcall, hquiet, hnot⟩ |
    ⟨dtc, statusMask, slot, spare, rfl, habsent, hspare⟩ | ⟨r, data, rfl, hr, haccepts⟩
  · exact ⟨s', o, hcall, h.quiet (h.sound.kept hcall) hquiet hnot⟩
  · have hcall : x.2.call now (.setStatus dtc statusMask) = _ :=
      congrArg some (setStatus_new h.sound.initialized habsent hspare statusMask)
    have hframes : slot.frames x.2.arrays = [] := hok habsent slot (by rw [hspare]; rfl)
    exact ⟨_, _, hcall, h.appended (h.sound.kept hcall) rfl habsent id hframes⟩
  · have hplace := hok r hr haccepts
    obtain ⟨array, harray⟩ := ne_none_iff_exists'.mp hplace.1
    have hcall : x.2.addFreezeFrame now r.dtcNumber data =
        some (x.2.withFrame now r array x.2.usedBytes data, ⟨true, none⟩) := by
      simp [addFreezeFrame_eq, hr, haccepts, harray]
    exact ⟨_, _, hcall, h.accepted (h.sound.kept (c := .addFreezeFrame r.dtcNumber data) hcall)
      ⟨rfl, rfl, hr, haccepts, harray, rfl⟩ hplace⟩

theorem Whole.init (h : init config = some s) : Whole config ([], s.withArrays) := by
  have hsound := Sound.init h
  unfold DtcStorage.init at h
  split at h
  · cases h
  case isFalse hchecks =>
    have hlimit : ¬ config.maxFreezeFramesPerDtc > 10 := fun hmany =>
      hchecks (by simp [hmany])
    cases h
    refine ⟨⟨rfl, rfl, nodup_nil, ?_⟩, UInt32.not_lt.mp hlimit,
      nofun, fun _ _ => rfl, List.Pairwise.nil⟩
    rw [← hsound.capacity]
    simp [withArrays, capacity]

/-- **The frames, over every run.** Let every slot have an array to start with. Every stored code
has the frames that were added to it, byte for byte, and no two frames share a byte, as long as
there is a place for each new frame and a new code gets a slot in which no frame was left. -/
theorem frames_intact (h : init config = some s) {calls : List (Nat × DtcCall)}
    (hspares : Along (logged step) (fun x i => x.2.Spares i.2) ([], s.withArrays) calls) :
    Throughout (logged step) Intact ([], s.withArrays) calls := by
  refine throughout_of_along (Whole config) (fun _ hx => hx.intact) (fun x i hx hok => ?_) calls
    (Whole.init h) hspares
  obtain ⟨s', o, hcall, hnext⟩ := hx.step_spares i.1 hok
  exact ⟨_, _, logged_eq hcall, hnext⟩

/-- The second code is cleared, and its bytes are used again. -/
theorem frames_intact_cleared :
    init tenCodes = some (empty tenCodes) ∧
      Throughout (logged step) Intact ([], (empty tenCodes).withArrays)
        [(0, .setStatus 1 0x09), (1, .addFreezeFrame 1 [0xA1, 0xA2]), (2, .setStatus 2 0x09),
          (3, .addFreezeFrame 2 [0xB1]), (4, .processAging), (5, .clearSingle 2),
          (6, .addFreezeFrame 1 [0xA3])] := by
  have hinit : init tenCodes = some (empty tenCodes) := rfl
  exact ⟨hinit, frames_intact hinit (by decide)⟩

def clearedFirst : List (Nat × DtcCall) :=
  [(0, .setStatus 1 0x09), (1, .addFreezeFrame 1 [0xA1]), (2, .setStatus 2 0x09),
    (3, .addFreezeFrame 2 [0xB1]), (4, .clearSingle 1), (5, .addFreezeFrame 2 [0xB2])]

/-- A code is cleared, and the next frame of the second one goes over its first. -/
theorem frame_overwritten :
    init tenCodes = some (empty tenCodes) ∧
      (∃ s o, run step (empty tenCodes).withArrays clearedFirst = some (s, o) ∧
        o.map (·.ok) = [true, true, true, true, true, true] ∧
        s.getFreezeFrame 2 1 = some [0xB2] ∧ s.getFreezeFrame 2 2 = some [0xB2]) ∧
      ¬ Throughout (logged step) Intact ([], (empty tenCodes).withArrays) clearedFirst := by
  refine ⟨rfl, ⟨_, _, rfl, by decide, by decide, by decide⟩, fun h => ?_⟩
  exact absurd (h.last rfl).apart (by decide)

end DtcStorage

end Cant.Diagnostic
