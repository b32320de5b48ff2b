/-
# `DiagData` — the vehicle information (`data/diag_data.c`)

`vehicle_info` is one object, with its fields one behind the other. A text is written with its
terminator: where it fills its field, that goes into the next field, and behind the last field out
of the object. It is read up to the first zero byte, wherever that is.
-/
import Cant.Lib.Buf
import Cant.Lib.Run
import Mathlib.Data.List.TakeWhile

namespace Cant.Diagnostic.Data

open Run List

inductive Field where
  | vin | vehicleModel | systemName | repairShopCode | programmingDate
  deriving DecidableEq

namespace Field

def did : Field → UInt16
  | vin => 0xF190
  | vehicleModel => 0xF191
  | systemName => 0xF192
  | repairShopCode => 0xF193
  | programmingDate => 0xF194

def start : Field → Nat
  | vin => 0
  | vehicleModel => 17
  | systemName => 49
  | repairShopCode => 81
  | programmingDate => 91

def size : Field → Nat
  | vin => 17
  | vehicleModel | systemName => 32
  | repairShopCode | programmingDate => 10

def ofDid (did : UInt16) : Option Field :=
  [vin, vehicleModel, systemName, repairShopCode, programmingDate].find? (·.did = did)

def accepts (field : Field) (length : Nat) : Bool :=
  if field = vin then length = 17 else length ≤ field.size

/-- What is copied: a text has a terminator. -/
def image (field : Field) (data : List UInt8) : List UInt8 :=
  if field = vin then data else data ++ [0]

end Field

abbrev VehicleInfo := Buf UInt8 101

namespace VehicleInfo

/-- One case of `read_vehicle_info`. Without a zero byte up to the end of the object, `strlen`
leaves it. -/
def read (info : VehicleInfo) (field : Field) : Option (List UInt8) :=
  if field = .vin then info.slice 0 17
  else if 0 ∈ info.elems.drop field.start then
    some ((info.elems.drop field.start).takeWhile (· ≠ 0))
  else none

def readVehicleInfo (info : VehicleInfo) (did : UInt16) : Option (Option (List UInt8)) :=
  match Field.ofDid did with
  | none => some none
  | some field => (info.read field).map some

def writeVehicleInfo (info : VehicleInfo) (call : UInt16 × List UInt8) :
    Option (VehicleInfo × Bool) :=
  match Field.ofDid call.1 with
  | none => some (info, false)
  | some field =>
    if field.accepts call.2.length then (info.blit field.start (field.image call.2)).map (·, true)
    else some (info, false)

/-- A write that is accepted is read back, and no other DID is read otherwise than before. -/
def Spec (e : Taken VehicleInfo (UInt16 × List UInt8) Bool) : Prop :=
  if e.output then
    (0 ∉ e.input.2 → e.post.readVehicleInfo e.input.1 = some (some e.input.2)) ∧
      ∀ did ≠ e.input.1, e.post.readVehicleInfo did = e.pre.readVehicleInfo did
  else e.post = e.pre

def Short (call : UInt16 × List UInt8) : Prop :=
  ∀ field ∈ Field.ofDid call.1, field ≠ .vin → call.2.length ≠ field.size
  deriving Decidable

def bytes (info : VehicleInfo) (field : Field) : List UInt8 :=
  (info.elems.drop field.start).take field.size

/-- Each text has its terminator inside its own field. -/
def Terminated (info : VehicleInfo) : Prop := ∀ field, field ≠ .vin → 0 ∈ info.bytes field

variable {info info' : VehicleInfo} {field other : Field} {data : List UInt8}

theorem did_of_ofDid {did : UInt16} (h : Field.ofDid did = some field) : field.did = did := by
  simpa using find?_some h

theorem takeWhile_zero (data rest : List UInt8) :
    (data ++ 0 :: rest).takeWhile (· ≠ 0) = data.takeWhile (· ≠ 0) := by
  induction data with
  | nil => rfl
  | cons b data ih => rw [cons_append, takeWhile_cons, takeWhile_cons, ih]

theorem read_text (hvin : field ≠ .vin) {rest : List UInt8}
    (h : info.bytes field = data ++ 0 :: rest) :
    info.read field = some (data.takeWhile (· ≠ 0)) := by
  have hall : info.elems.drop field.start =
      data ++ 0 :: (rest ++ (info.elems.drop field.start).drop field.size) := by
    rw [← cons_append, ← append_assoc, ← h, bytes, take_append_drop]
  rw [read, if_neg hvin, hall, if_pos (by simp), takeWhile_zero]

theorem Terminated.read_congr (h : Terminated info)
    (hbytes : info'.bytes field = info.bytes field) : info'.read field = info.read field := by
  by_cases hvin : field = .vin
  · subst hvin
    exact congrArg some hbytes
  · obtain ⟨data, rest, heq⟩ := append_of_mem (h field hvin)
    rw [read_text hvin heq, read_text hvin (hbytes.trans heq)]

section

variable (hwrite : info.blit field.start data = some info')
include hwrite

theorem bytes_of_apart
    (hfits : data.length ≤ field.size) (hne : other ≠ field) :
    info'.bytes other = info.bytes other := by
  have hapart : field.start + field.size ≤ other.start ∨
      other.start + other.size ≤ field.start := by
    revert hne
    cases field <;> cases other <;> decide
  refine ext_getElem? fun i => ?_
  simp only [bytes, getElem?_take, getElem?_drop, Buf.getElem?_blit hwrite]
  split
  · rw [if_neg (by omega)]
  · rfl

theorem bytes_of_written
    (hfits : data.length ≤ field.size) : data <+: info'.bytes field := by
  refine prefix_iff_eq_take.mpr ?_
  rw [bytes, take_take, Nat.min_eq_left hfits, Buf.drop_take_of_blit hwrite]

end

theorem length_image (haccepts : field.accepts data.length)
    (hshort : field ≠ .vin → data.length ≠ field.size) :
    (field.image data).length ≤ field.size := by
  unfold Field.accepts at haccepts
  unfold Field.image
  split
  case isTrue hvin =>
    rw [if_pos hvin] at haccepts
    rw [hvin]
    exact Nat.le_of_eq (of_decide_eq_true haccepts)
  case isFalse hvin =>
    rw [if_neg hvin] at haccepts
    rw [length_append]
    exact Nat.lt_of_le_of_ne (of_decide_eq_true haccepts) (hshort hvin)

theorem Terminated.write (h : Terminated info) (haccepts : field.accepts data.length)
    (hfits : (field.image data).length ≤ field.size)
    (hwrite : info.blit field.start (field.image data) = some info') :
    Terminated info' ∧ (0 ∉ data → info'.read field = some data) ∧
      ∀ other, other ≠ field → info'.read other = info.read other := by
  have hsame : ∀ other, other ≠ field → info'.bytes other = info.bytes other :=
    fun other hne => bytes_of_apart hwrite hfits hne
  have hbytes := bytes_of_written hwrite hfits
  refine ⟨fun other hvin => ?_, fun hzero => ?_, fun other hne => h.read_congr (hsame other hne)⟩
  · by_cases hne : other = field
    · subst hne
      rw [Field.image, if_neg hvin] at hbytes
      exact hbytes.subset (mem_append_right data mem_cons_self)
    · rw [hsame other hne]
      exact h other hvin
  · by_cases hvin : field = .vin
    · subst hvin
      have hlength : data.length = 17 := of_decide_eq_true haccepts
      exact congrArg some (hbytes.eq_of_length_le (hlength ▸ length_take_le _ _)).symm
    · rw [Field.image, if_neg hvin] at hbytes
      obtain ⟨rest, heq⟩ := hbytes
      rw [append_assoc] at heq
      rw [read_text hvin heq.symm, takeWhile_eq_self_iff.mpr]
      exact fun b hb => decide_eq_true fun hb0 => hzero (hb0 ▸ hb)

theorem Terminated.step (h : Terminated info) {call : UInt16 × List UInt8} (hshort : Short call) :
    ∃ info' o, info.writeVehicleInfo call = some (info', o) ∧ Terminated info' ∧
      Spec ⟨info, call, o, info'⟩ := by
  unfold writeVehicleInfo
  cases hfield : Field.ofDid call.1 with
  | none => exact ⟨info, false, rfl, h, rfl⟩
  | some field =>
    by_cases haccepts : field.accepts call.2.length = true
    · have hfits := length_image haccepts (hshort field hfield)
      have hend : field.start + field.size ≤ 101 := by cases field <;> decide
      obtain ⟨info', hwrite, -⟩ := Buf.blit_eq_some info field.start (field.image call.2)
        ((Nat.add_le_add_left hfits _).trans hend)
      obtain ⟨hterminated, hself, hother⟩ := h.write haccepts hfits hwrite
      refine ⟨info', true, by simp [haccepts, hwrite], hterminated, fun hzero => ?_,
        fun did hdid => ?_⟩
      · simp [readVehicleInfo, hfield, hself hzero]
      · unfold readVehicleInfo
        cases hdid' : Field.ofDid did with
        | none => rfl
        | some other =>
          have hne : other ≠ field := by
            rintro rfl
            exact hdid ((did_of_ofDid hdid').symm.trans (did_of_ofDid hfield))
          simp only [hother other hne]
    · exact ⟨info, false, if_neg haccepts, h, rfl⟩

/-- **The texts.** If every field has its terminator and no text fills its field, then in every run
of writes a text is read as it was last written, and a write to one DID does not change another. -/
theorem texts_kept (hinfo : Terminated info) {calls : List (UInt16 × List UInt8)}
    (hshort : ∀ call ∈ calls, Short call) : Every writeVehicleInfo Spec info calls :=
  every_of_along Terminated (fun _ _ h hnow => h.step hnow) calls hinfo (along_of_forall hshort)

def blank : VehicleInfo := .fill 101 0

theorem texts_kept_short :
    Every writeVehicleInfo Spec blank [(0xF193, [65, 66]), (0xF194, [67])] := by
  refine texts_kept (fun field _ => ?_) (by decide)
  cases field <;> decide

/-- A model name of 32 bytes empties the system name. -/
theorem model_overwrites_name :
    ¬ Every writeVehicleInfo Spec blank [(0xF192, [65]), (0xF191, List.replicate 32 66)] := by
  rintro ⟨_, _, h, -, _, _, h', hspec, -⟩
  cases h
  cases h'
  cases hspec.2 0xF192 (by decide)

end VehicleInfo

end Cant.Diagnostic.Data
