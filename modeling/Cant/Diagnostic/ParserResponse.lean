/-
# `ParserResponse` — parsing responses (`diag_parser.c`)

A response is a frame with a response code in front of its data,

    version 0x01   length   service   code   data ...   checksum

and some units pad it with `0xFF`. `DiagParser_ParseResponse` takes every trailing
`0xFF` for padding, so a checksum of `0xFF` goes with it; and it subtracts five from what
is left without looking, so less than five bytes ask `Memory_Alloc` for nearly `2 ^ 32`.
That size wraps in the allocator too, which may well have a block for it, and the copy
then runs out of the frame (`parseResponse_iff`).

The length byte of a response is not read.
-/
import Cant.Diagnostic.Parser

namespace Cant.Diagnostic

open Word Cant.Memory List Option

structure DiagResponse where
  serviceId : UInt8
  responseCode : UInt8
  data : Nat
  length : Nat
  timestamp : Nat
  success : Bool

def clearedResponse : DiagResponse := ⟨0, 0, 0, 0, 0, false⟩

/-- What a call of `DiagParser_ParseResponse` answers; `response` is `none` where the
structure was not touched. -/
structure ResponseOut where
  result : ParserResult
  response : Option DiagResponse

/-- The loop that strips padding: what it leaves of a length. -/
def stripPadding (data : List UInt8) : Nat → Nat
  | 0 => 0
  | length + 1 =>
    if data[length]? = some 0xFF then stripPadding data length else length + 1

section

variable {n : Nat} {response : DiagResponse}
variable (flags : BuildFlags)

/-- `validate_message_format(data, length)`, where `length` need not be the length of
the data. -/
def validateFormatAt (data : List UInt8) (length : Nat) : Option Bool := do
  let version ← data[0]?
  if version ≠ 0x01 then some false
  else do
    let last := u32 ((length : Int) - 1)
    let expected ← data[last]?
    if expected ≠ calculateChecksum (data.take last) ∧ flags.strictChecksum then some false
    else some true

/-- What `DiagParser_ParseResponse` does with the data of a good frame, of which `length`
bytes are left. -/
def copyResponse (m : MemoryManager) (file line now : Nat) (data : List UInt8) (length : Nat)
    (response : DiagResponse) : Option (MemoryManager × ResponseOut) :=
  let dataLength := u32 ((length : Int) - 3 - 2)
  if dataLength > 0 then do
    let (m, ptr) ← m.alloc dataLength file line
    if ptr = 0 then some (m, ⟨.error, some response⟩)
    else if 4 + dataLength ≤ data.length then
      some ({ m with mem := m.mem.store ptr ((data.drop 4).take dataLength) },
        ⟨.ok, some { response with data := ptr, length := dataLength, timestamp := now }⟩)
    else none
  else some (m, ⟨.ok, some { response with timestamp := now }⟩)

def parseResponse (m : MemoryManager) (file line now : Nat) (data : List UInt8) :
    Option (MemoryManager × ResponseOut) :=
  if data.length < 4 then some (m, ⟨.invalidLength, none⟩)
  else do
    let length := stripPadding data data.length
    let valid ← validateFormatAt flags data length
    if ¬ valid then some (m, ⟨.invalidFormat, some clearedResponse⟩)
    else do
      let serviceId ← data[2]?
      let responseCode ← data[3]?
      copyResponse m file line now data length { clearedResponse with
        serviceId := serviceId, responseCode := responseCode
        success := decide (responseCode = 0x40) }

/-! ## Padding -/

theorem stripPadding_le (data : List UInt8) : ∀ n, stripPadding data n ≤ n
  | 0 => Nat.le_refl 0
  | n + 1 => by
    rw [stripPadding]
    split
    · exact Nat.le_succ_of_le (stripPadding_le data n)
    · exact .refl

variable {data : List UInt8} {m : MemoryManager} {file line now : Nat}

theorem stripPadding_stop (h : data[n]? ≠ some 0xFF) : stripPadding data (n + 1) = n + 1 := by
  rw [stripPadding, if_neg h]

theorem stripPadding_skip (h : data[n]? = some 0xFF) : stripPadding data (n + 1) ≤ n := by
  rw [stripPadding, if_pos h]
  exact stripPadding_le data n

theorem stripPadding_padded (frame : List UInt8) (pad : Nat) : ∀ k ≤ pad,
    stripPadding (frame ++ List.replicate pad 0xFF) (frame.length + k) =
      stripPadding (frame ++ List.replicate pad 0xFF) frame.length := by
  intro k hk
  induction k with
  | zero => rfl
  | succ k ih =>
    have hbyte : (frame ++ List.replicate pad 0xFF)[frame.length + k]? = some 0xFF := by
      rw [getElem?_append_right (Nat.le_add_right _ _), Nat.add_sub_cancel_left,
        getElem?_replicate, if_pos (Nat.lt_of_succ_le hk)]
    rw [← Nat.add_assoc, stripPadding, if_pos hbyte]
    exact ih (Nat.le_of_succ_le hk)

theorem stripPadding_all : ∀ {n : Nat}, stripPadding data n = 0 →
    ∀ i < n, data[i]? = some 0xFF
  | 0, _, i, hi => absurd hi (Nat.not_lt_zero i)
  | n + 1, h, i, hi => by
    rw [stripPadding] at h
    split at h
    case isTrue hpad =>
      rcases Nat.lt_succ_iff_lt_or_eq.mp hi with hlt | rfl
      · exact stripPadding_all h i hlt
      · exact hpad
    case isFalse => cases h

/-! ## Reading -/

/-- The bytes without their padding pass for a frame and are fewer than five, and the
memory manager has a block for what is then asked of it. -/
def Overreads (m : MemoryManager) (file line : Nat) (data : List UInt8) : Prop :=
  validateFormatAt flags data (stripPadding data data.length) = some true ∧
    stripPadding data data.length < 5 ∧
    ∃ m₁ ptr, m.alloc (u32 ((stripPadding data data.length : Int) - 3 - 2)) file line
      = some (m₁, ptr) ∧ ptr ≠ 0

theorem stripPadding_ne_zero (hlen : 4 ≤ data.length) (hversion : data[0]? = some 0x01) :
    stripPadding data data.length ≠ 0 := by
  intro hzero
  have hpad := stripPadding_all hzero 0 (Nat.lt_of_lt_of_le (by decide) hlen)
  rw [hversion] at hpad
  cases Option.some.inj hpad

theorem validateFormatAt_isSome (hlen : 4 ≤ data.length) (hmax : data.length < 2 ^ 32) :
    ∃ valid, validateFormatAt flags data (stripPadding data data.length) = some valid ∧
      (valid = true → stripPadding data data.length ≠ 0) := by
  have hle := stripPadding_le data data.length
  have hfirst := getElem?_eq_getElem (by omega : 0 < data.length)
  rw [validateFormatAt, hfirst]
  simp only [bind_eq_bind, bind_some]
  split
  case isTrue =>
    refine ⟨false, rfl, ?_⟩
    intro h
    cases h
  case isFalse hversion =>
    rw [not_not.mp hversion] at hfirst
    have hpos := stripPadding_ne_zero hlen hfirst
    have hlast : u32 ((stripPadding data data.length : Int) - 1) < data.length := by
      unfold u32
      omega
    rw [getElem?_eq_getElem hlast, bind_some]
    split
    · exact ⟨false, rfl, fun _ => hpos⟩
    · exact ⟨true, rfl, fun _ => hpos⟩

/-- The copy stays inside the data, unless less than five bytes are left of them and there
is a block for what is asked. -/
theorem copyResponse_isSome_iff {m₁ : MemoryManager} {ptr : Nat} {length : Nat}
    (hmax : data.length < 2 ^ 32) (hpos : length ≠ 0) (hle : length ≤ data.length)
    (halloc : m.alloc (u32 ((length : Int) - 3 - 2)) file line = some (m₁, ptr)) :
    (copyResponse m file line now data length response).isSome ↔ 5 ≤ length ∨ ptr = 0 := by
  rw [copyResponse, halloc]
  simp only [bind_eq_bind, bind_some]
  by_cases hptr : ptr = 0
  · refine iff_of_true ?_ (Or.inr hptr)
    split <;> rfl
  · rw [if_neg hptr]
    by_cases hshort : length < 5
    · have hwrap : u32 ((length : Int) - 3 - 2) > 0 ∧
          ¬ 4 + u32 ((length : Int) - 3 - 2) ≤ data.length := by
        unfold u32
        omega
      rw [if_pos hwrap.1, if_neg hwrap.2]
      refine iff_of_false (by simp) ?_
      rintro (h | h)
      · exact absurd hshort (Nat.not_lt.mpr h)
      · exact hptr h
    · have hroom : 4 + u32 ((length : Int) - 3 - 2) ≤ data.length := by
        unfold u32
        omega
      refine iff_of_true ?_ (Or.inl (Nat.le_of_not_lt hshort))
      split <;> rfl

/-- **What a call reads.** It stays inside the given bytes unless it overreads. -/
theorem parseResponse_isSome_iff (m : MemoryManager) (file line now : Nat) (hlen : 4 ≤ data.length)
    (hmax : data.length < 2 ^ 32)
    (hanswers : (m.alloc (u32 ((stripPadding data data.length : Int) - 3 - 2)) file line).isSome) :
    (parseResponse flags m file line now data).isSome ↔
      ¬ Overreads flags m file line data := by
  obtain ⟨valid, hvalid, hpos⟩ := validateFormatAt_isSome flags hlen hmax
  obtain ⟨⟨m₁, ptr⟩, halloc⟩ := isSome_iff_exists.mp hanswers
  rw [parseResponse, if_neg (Nat.not_lt.mpr hlen)]
  simp only [hvalid, bind_eq_bind, bind_some]
  cases valid with
  | false =>
    refine iff_of_true rfl ?_
    rintro ⟨hformat, -⟩
    rw [hvalid] at hformat
    cases hformat
  | true =>
    rw [if_neg (by simp), getElem?_eq_getElem (by omega : 2 < data.length),
      getElem?_eq_getElem (by omega : 3 < data.length)]
    simp only [bind_some]
    rw [copyResponse_isSome_iff hmax (hpos rfl) (stripPadding_le data data.length) halloc]
    constructor
    · rintro hfine ⟨-, hshort, m₂, ptr₂, halloc₂, hptr⟩
      cases halloc.symm.trans halloc₂
      rcases hfine with h | h
      · exact absurd hshort (Nat.not_lt.mpr h)
      · exact hptr h
    · intro hnot
      by_contra hbad
      rw [not_or, Nat.not_le] at hbad
      exact hnot ⟨hvalid, hbad.1, m₁, ptr, halloc, hbad.2⟩

/-! ## Well-formed responses -/

def responseFront (length serviceId responseCode : UInt8) (data : List UInt8) : List UInt8 :=
  0x01 :: length :: serviceId :: responseCode :: data

def responseFrame (length serviceId responseCode : UInt8) (data : List UInt8) : List UInt8 :=
  responseFront length serviceId responseCode data ++
    [calculateChecksum (responseFront length serviceId responseCode data)]

@[simp] theorem length_responseFront (length serviceId responseCode : UInt8) (data : List UInt8) :
    (responseFront length serviceId responseCode data).length = data.length + 4 := rfl

@[simp] theorem length_responseFrame (length serviceId responseCode : UInt8) (data : List UInt8) :
    (responseFrame length serviceId responseCode data).length = data.length + 5 := by
  rw [responseFrame, length_append]
  rfl

/-- The bytes are parsed as a response with that service, code and data. -/
def ParsedAs (m : MemoryManager) (file line now : Nat) (bytes : List UInt8)
    (serviceId responseCode : UInt8) (data : List UInt8) : Prop :=
  ∃ m' response, parseResponse flags m file line now bytes = some (m', ⟨.ok, some response⟩) ∧
    response.serviceId = serviceId ∧ response.responseCode = responseCode ∧
    response.length = data.length ∧ m'.mem.load response.data response.length = data

variable {flags}

theorem length_of_parseResponse {m' : MemoryManager}
    (h : parseResponse flags m file line now data = some (m', ⟨.ok, some response⟩)) :
    response.length = u32 ((stripPadding data data.length : Int) - 3 - 2) := by
  unfold parseResponse at h
  split at h
  case isTrue => cases h
  case isFalse =>
    obtain ⟨valid, -, h⟩ := bind_eq_some_iff.mp h
    split at h
    case isTrue => cases h
    case isFalse =>
      obtain ⟨serviceId, -, h⟩ := bind_eq_some_iff.mp h
      obtain ⟨responseCode, -, h⟩ := bind_eq_some_iff.mp h
      unfold copyResponse at h
      dsimp only at h
      split at h
      case isTrue =>
        obtain ⟨⟨m₁, ptr⟩, -, h⟩ := bind_eq_some_iff.mp h
        split at h
        case isTrue => cases h
        case isFalse =>
          split at h
          case isTrue =>
            cases h
            rfl
          case isFalse => cases h
      case isFalse hzero =>
        cases h
        exact (Nat.eq_zero_of_not_pos hzero).symm

section

variable (length serviceId responseCode : UInt8)

variable (data rest : List UInt8)

theorem take_responseFrame :
    (responseFrame length serviceId responseCode data ++ rest).take (data.length + 4) =
      responseFront length serviceId responseCode data := by
  rw [responseFrame, append_assoc]
  exact take_left' (length_responseFront _ _ _ _)

theorem getElem?_responseFrame :
    (responseFrame length serviceId responseCode data ++ rest)[data.length + 4]? =
      some (calculateChecksum (responseFront length serviceId responseCode data)) := by
  rw [responseFrame, append_assoc,
    getElem?_append_right (Nat.le_of_eq (length_responseFront _ _ _ _)),
    length_responseFront, Nat.sub_self]
  rfl

theorem validateFormatAt_responseFrame (hmax : data.length + 5 < 2 ^ 32) :
    validateFormatAt flags (responseFrame length serviceId responseCode data ++ rest)
      (data.length + 5) = some true := by
  have hfirst : (responseFrame length serviceId responseCode data ++ rest)[0]? = some 0x01 := rfl
  have hlast : u32 (((data.length + 5 : Nat) : Int) - 1) = data.length + 4 := by
    unfold u32
    omega
  rw [validateFormatAt, hfirst, hlast]
  simp [getElem?_responseFrame, take_responseFrame]

end

theorem copyResponse_responseFrame {length serviceId responseCode : UInt8} (rest : List UInt8)
    (hmax : data.length + 5 < 2 ^ 32) (response : DiagResponse)
    (halloc : data ≠ [] → ∃ m₁ ptr, m.alloc data.length file line = some (m₁, ptr) ∧ ptr ≠ 0)
    (hservice : response.serviceId = serviceId) (hcode : response.responseCode = responseCode)
    (hlength : response.length = 0) :
    ∃ m' response', copyResponse m file line now
        (responseFrame length serviceId responseCode data ++ rest) (data.length + 5) response
          = some (m', ⟨.ok, some response'⟩) ∧
      response'.serviceId = serviceId ∧ response'.responseCode = responseCode ∧
      response'.length = data.length ∧ m'.mem.load response'.data response'.length = data := by
  have hsize : u32 (((data.length + 5 : Nat) : Int) - 3 - 2) = data.length := by
    unfold u32
    omega
  have hcopy : ((responseFrame length serviceId responseCode data ++ rest).drop 4).take data.length
      = data := by
    show List.take data.length ((data ++ [_]) ++ rest) = data
    rw [append_assoc]
    exact take_left
  have hroom : 4 + data.length ≤
      (responseFrame length serviceId responseCode data ++ rest).length := by
    rw [length_append, length_responseFrame]
    omega
  rw [copyResponse, hsize]
  by_cases hempty : data = []
  · subst hempty
    exact ⟨m, { response with timestamp := now }, rfl, hservice, hcode, hlength, by
      rw [hlength]
      rfl⟩
  · obtain ⟨m₁, ptr, hblock, hptr⟩ := halloc hempty
    simp only [if_pos (length_pos_iff.mpr hempty), Run.some_bind hblock, if_neg hptr,
      if_pos hroom, hcopy]
    exact ⟨_, _, rfl, hservice, hcode, rfl, Mem.load_store_self m₁.mem ptr data⟩

/-- **A response** padded with any number of `0xFF` is parsed exactly if its checksum is
not `0xFF`. -/
theorem parsedAs_iff (m : MemoryManager) (file line now : Nat)
    (length serviceId responseCode : UInt8) (data : List UInt8) (pad : Nat)
    (hmax : data.length + 5 + pad < 2 ^ 32)
    (halloc : data ≠ [] → ∃ m₁ ptr, m.alloc data.length file line = some (m₁, ptr) ∧ ptr ≠ 0) :
    ParsedAs flags m file line now
        (responseFrame length serviceId responseCode data ++ List.replicate pad 0xFF)
        serviceId responseCode data ↔
      calculateChecksum (responseFront length serviceId responseCode data) ≠ 0xFF := by
  have hsum := getElem?_responseFrame length serviceId responseCode data (List.replicate pad 0xFF)
  have htotal : (responseFrame length serviceId responseCode data ++
      List.replicate pad 0xFF).length = data.length + 5 + pad := by
    rw [length_append, length_responseFrame, length_replicate]
  have hstrip := stripPadding_padded (responseFrame length serviceId responseCode data) pad pad
    (Nat.le_refl pad)
  rw [length_responseFrame] at hstrip
  constructor
  · rintro ⟨m', response, hparse, -, -, hlength, -⟩ hpadding
    rw [hpadding] at hsum
    have hskip : stripPadding _ (data.length + 5) ≤ data.length + 4 := stripPadding_skip hsum
    rw [length_of_parseResponse hparse, htotal] at hlength
    unfold u32 at hlength
    omega
  · intro hno
    have hstop := stripPadding_stop (fun h => hno (mem_unique hsum h))
    have hvalid : validateFormatAt flags _ (data.length + 5) = some true :=
      validateFormatAt_responseFrame length serviceId responseCode data (List.replicate pad 0xFF)
        (by omega)
    have hservice : (responseFrame length serviceId responseCode data ++
        List.replicate pad 0xFF)[2]? = some serviceId := rfl
    have hcode : (responseFrame length serviceId responseCode data ++
        List.replicate pad 0xFF)[3]? = some responseCode := rfl
    unfold ParsedAs
    rw [parseResponse, if_neg (by omega), htotal, hstrip, hstop]
    simp only [hvalid, hservice, Run.some_bind hcode]
    exact copyResponse_responseFrame _ (by omega) _ halloc rfl rfl rfl

variable (flags) in
/-- **Responses.** Of four bytes or more `DiagParser_ParseResponse` reads only what it is given,
unless less than five are left without the padding, pass for a frame, and `Memory_Alloc` has nearly
`2 ^ 32` bytes for them; and a padded response is parsed with its service, code and data exactly if
its checksum is not `0xFF`. -/
theorem padded_response_iff (m : MemoryManager) (file line now : Nat) :
    (∀ data : List UInt8, 4 ≤ data.length → data.length < 2 ^ 32 →
      (m.alloc (u32 ((stripPadding data data.length : Int) - 3 - 2)) file line).isSome →
      ((parseResponse flags m file line now data).isSome ↔
        ¬ Overreads flags m file line data)) ∧
    (∀ (length serviceId responseCode : UInt8) (data : List UInt8) (pad : Nat),
      data.length + 5 + pad < 2 ^ 32 →
      (data ≠ [] → ∃ m₁ ptr, m.alloc data.length file line = some (m₁, ptr) ∧ ptr ≠ 0) →
      (ParsedAs flags m file line now
          (responseFrame length serviceId responseCode data ++ List.replicate pad 0xFF)
          serviceId responseCode data ↔
        calculateChecksum (responseFront length serviceId responseCode data) ≠ 0xFF)) := by
  refine ⟨?_, ?_⟩
  · intro data hlen hmax hanswers
    exact parseResponse_isSome_iff flags m file line now hlen hmax hanswers
  · intro length serviceId responseCode data pad hmax halloc
    exact parsedAs_iff m file line now length serviceId responseCode data pad hmax halloc

theorem padded_response_ok : ∃ m,
    MemoryManager.init heap256 (fun _ => 0) 4096 (fun _ => (0, false)) = some m ∧
    ParsedAs ⟨false, true⟩ m 0 0 0
      (responseFrame 2 0x62 0x40 [0x11] ++ List.replicate 3 0xFF) 0x62 0x40 [0x11] ∧
    (parseResponse ⟨false, true⟩ m 0 0 0 [0x02, 0xFF, 0x62, 0x40, 0x11]).isSome := by
  refine ⟨_, rfl, ?_⟩
  obtain ⟨hread, hparse⟩ := padded_response_iff ⟨false, true⟩ _ 0 0 0
  constructor
  · exact (hparse 2 0x62 0x40 [0x11] 3 (by decide) fun _ => ⟨_, _, rfl, by decide⟩).mpr (by decide)
  · refine (hread [0x02, 0xFF, 0x62, 0x40, 0x11] (by decide) (by decide) rfl).mpr ?_
    exact fun h => absurd h.1 (by decide)

/-- `01 02 62 40 5C FF` is a response with the data `5C`, and is refused; and for
`01 00 62 9D` the copy is not defined. -/
theorem checksum_taken_for_padding :
    responseFrame 0x02 0x62 0x40 [0x5C] = [0x01, 0x02, 0x62, 0x40, 0x5C, 0xFF] ∧
    ((MemoryManager.init heap256 (fun _ => 0) 4096 (fun _ => (0, false))).bind fun m =>
      (parseResponse ⟨false, true⟩ m 0 0 0 [0x01, 0x02, 0x62, 0x40, 0x5C, 0xFF]).map
        fun r => r.2.result) = some .invalidFormat ∧
    ((MemoryManager.init heap256 (fun _ => 0) 4096 (fun _ => (0, false))).map fun m =>
      (parseResponse ⟨false, true⟩ m 0 0 0 [0x01, 0x00, 0x62, 0x9D]).isSome) = some false := by
  refine ⟨by decide, by decide +kernel, by decide +kernel⟩

end

end Cant.Diagnostic
