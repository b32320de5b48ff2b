/-
# `E2EDetection` — which changes of a message the CRC shows

`E2E_Protect` and `E2E_Check` compute a CRC over the header bytes

    data_id (2)   sequence (4)   length (2, with include_length)

and then assign the CRC of the payload to the same variable: the header is not in
the CRC. The payload loop reads tables of which only the first sixteen (profile 2)
or eight (profile 4) entries are initialised. Its register remembers the last two
or four entries read and nothing else (`Cant.Lib.Crc`), so a change of one byte shows
in the CRC exactly if one of those entries changes (`altered_detected_iff`). For
profile 1 the first table access is out of bounds, already in the header.
-/
import Cant.Safety.E2E

namespace Cant.Safety

open Word List

def noRead : Nat → Option Nat := fun _ => none

/-! ## Changing one byte -/

/-- `n` with its byte of weight `256 ^ k` replaced. -/
def setByte (n k : Nat) (b : UInt8) : Nat := n - n / 256 ^ k % 256 * 256 ^ k + b.toNat * 256 ^ k

/-- A byte of the header or the payload; header bytes are counted from the lowest. -/
inductive MessageByte where
  | dataId (k : Fin 2)
  | sequence (k : Fin 4)
  | length (k : Fin 2)
  | payload (i : Nat)

/-- The message with one byte replaced and everything else, the CRC included, as it
was. -/
def E2EProtectedData.alter (d : E2EProtectedData) (b : UInt8) : MessageByte → E2EProtectedData
  | .dataId k => { d with dataId := setByte d.dataId k b }
  | .sequence k => { d with sequence := setByte d.sequence k b }
  | .length k => { d with length := setByte d.length k b }
  | .payload i => { d with data := d.data.map fun bytes => bytes.set i b }

/-- The change shows: the CRC that `E2E_Check` recomputes is another one, and no
receiver accepts the message, whatever its state and the time. -/
def Detected (config : E2EConfig) (d d' : E2EProtectedData) : Prop :=
  ∃ c c', messageCrc noRead config d = some c ∧ messageCrc noRead config d' = some c' ∧ c ≠ c' ∧
    ∀ r now r', check noRead config r d' now ≠ some (r', .ok)

/-- The last table entries read for the payloads differ: the last two for profile 2,
the last four for profile 4. -/
def EntriesDiffer (profile : E2EProfile) (x x' : List UInt8) : Prop :=
  match profile with
  | .profile2 => Crc.recent 2 crc16Table 0xFFFFFFFF [0xFF, 0xFF, 0xFF, 0xFF] x
      ≠ Crc.recent 2 crc16Table 0xFFFFFFFF [0xFF, 0xFF, 0xFF, 0xFF] x'
  | .profile4 => Crc.recent 4 crc32Table 0xFFFFFFFF [0xFF, 0xFF, 0xFF, 0xFF] x
      ≠ Crc.recent 4 crc32Table 0xFFFFFFFF [0xFF, 0xFF, 0xFF, 0xFF] x'
  | _ => False

/-! ## The two tables -/

theorem getD_mem {es : List Nat} (hzero : 0 ∈ es) (i : Nat) : es.getD i 0 ∈ es := by
  by_cases h : i < es.length
  · rw [getD_eq_getElem _ _ h]
    exact getElem_mem h
  · rw [getD_eq_default _ _ (by omega)]
    exact hzero

/-- The register over such a table, if the low bytes of the listed values and of the
initial register are distinct. -/
theorem register_eq_iff {w : Nat} (hw : w ≤ 4) (listed : List Nat) (hzero : 0 ∈ listed)
    (hlow : ∀ e ∈ 0xFF :: listed, ∀ e' ∈ 0xFF :: listed, e % 2 ^ 8 = e' % 2 ^ 8 → e = e')
    (x x' : List UInt8) :
    x.foldl (Crc.step w (listed.getD · 0)) 0xFFFFFFFF % 2 ^ (8 * w)
        = x'.foldl (Crc.step w (listed.getD · 0)) 0xFFFFFFFF % 2 ^ (8 * w) ↔
      Crc.recent w (listed.getD · 0) 0xFFFFFFFF [0xFF, 0xFF, 0xFF, 0xFF] x
        = Crc.recent w (listed.getD · 0) 0xFFFFFFFF [0xFF, 0xFF, 0xFF, 0xFF] x' := by
  refine Crc.crc_eq_iff (0xFF :: listed) hlow ?_ ?_ (by decide) hw
    (show w ≤ [0xFF, 0xFF, 0xFF, 0xFF].length from hw) x x'
  · intro i
    exact .tail _ (getD_mem hzero _)
  · intro e he
    simp only [mem_cons, not_mem_nil, or_false, or_self] at he
    exact he ▸ .head _

theorem profile2_eq_iff (x x' : List UInt8) :
    calculateCrc noRead .profile2 x = calculateCrc noRead .profile2 x' ↔
      ¬ EntriesDiffer .profile2 x x' := by
  have hmask : ∀ n : Nat, n &&& 0xFFFF = n % 2 ^ (8 * 2) :=
    fun n => Nat.and_two_pow_sub_one_eq_mod n 16
  rw [calculateCrc, calculateCrc, Option.some.injEq, hmask, hmask, EntriesDiffer, not_not]
  exact register_eq_iff (by decide) _ (by decide) (by decide) x x'

theorem profile4_eq_iff (x x' : List UInt8) :
    calculateCrc noRead .profile4 x = calculateCrc noRead .profile4 x' ↔
      ¬ EntriesDiffer .profile4 x x' := by
  have hmod : ∀ bs : List UInt8, bs.foldl (Crc.step 4 crc32Table) 0xFFFFFFFF
      = bs.foldl (Crc.step 4 crc32Table) 0xFFFFFFFF % 2 ^ (8 * 4) :=
    fun bs => (Nat.mod_eq_of_lt (Crc.foldl_step_lt bs (by decide))).symm
  rw [calculateCrc, calculateCrc, Option.some.injEq, hmod x, hmod x', EntriesDiffer, not_not]
  exact register_eq_iff (by decide) _ (by decide) (by decide) x x'

theorem profile1_header (config : E2EConfig) (d : E2EProtectedData) :
    calculateCrc noRead .profile1 (buildHeader config d) = none := by
  have hwild : ∀ b : UInt8, ¬ 0xFFFFFFFF ^^^ b.toNat < 256 := by
    intro b
    have hdiv : (0xFFFFFFFF ^^^ b.toNat) / 2 ^ 8 = 0xFFFFFF := by
      rw [Nat.xor_div_two_pow, Nat.div_eq_of_lt b.toNat_lt, Nat.xor_zero]
    omega
  rw [buildHeader, calculateCrc, cons_append, crc8Loop, if_neg (hwild _)]
  rfl

theorem messageCrc_eq {config : E2EConfig} (h : config.profile ≠ .profile1) (d : E2EProtectedData) :
    messageCrc noRead config d = d.payload.bind (calculateCrc noRead config.profile) := by
  obtain ⟨v, hv⟩ : ∃ v, calculateCrc noRead config.profile (buildHeader config d) = some v :=
    calculateCrc_isSome (Or.inl h) _
  rw [messageCrc, hv]
  rfl

theorem calculateCrc_ne_iff {profile : E2EProfile} (h : profile = .profile2 ∨ profile = .profile4)
    (x x' : List UInt8) :
    calculateCrc noRead profile x ≠ calculateCrc noRead profile x' ↔
      EntriesDiffer profile x x' := by
  rcases h with rfl | rfl
  · rw [ne_eq, profile2_eq_iff, not_not]
  · rw [ne_eq, profile4_eq_iff, not_not]

/-! ## Detection -/

theorem crc_alter (d : E2EProtectedData) (b : UInt8) (m : MessageByte) :
    (d.alter b m).crc = d.crc := by
  cases m <;> rfl

theorem payload_alter_protected (raw : E2EProtectedData) (seq dataId crc : Nat) (b : UInt8)
    (m : MessageByte) :
    (E2EProtectedData.alter { raw with sequence := seq, dataId := dataId, crc := crc } b m).payload
      = (raw.alter b m).payload := by
  cases m <;> rfl

/-- **A message with the CRC of another one** is detected exactly if the last entries read
differ. -/
theorem detected_iff {config : E2EConfig}
    (h : config.profile = .profile2 ∨ config.profile = .profile4) {d d' : E2EProtectedData}
    (hcrc : messageCrc noRead config d = some d.crc) (hsame : d'.crc = d.crc) :
    Detected config d d' ↔ ∃ x x', d.payload = some x ∧ d'.payload = some x' ∧
      EntriesDiffer config.profile x x' := by
  have hnot1 : config.profile ≠ .profile1 := by
    rcases h with h | h <;> rw [h] <;> decide
  have hcrcs := hcrc
  rw [messageCrc_eq hnot1] at hcrcs
  obtain ⟨x, hx, hxc⟩ := Option.bind_eq_some_iff.mp hcrcs
  constructor
  · rintro ⟨c, c', hc, hc', hne, -⟩
    rw [messageCrc_eq hnot1] at hc'
    obtain ⟨x', hx', hxc'⟩ := Option.bind_eq_some_iff.mp hc'
    refine ⟨x, x', hx, hx', (calculateCrc_ne_iff h x x').mp ?_⟩
    rw [hxc, ← hcrc, hc, hxc']
    exact fun heq => hne (Option.some.inj heq)
  · rintro ⟨y, x', hy, hx', hdiffer⟩
    cases hx.symm.trans hy
    obtain ⟨c', hc'⟩ : ∃ c', calculateCrc noRead config.profile x' = some c' :=
      calculateCrc_isSome (Or.inl hnot1) x'
    have hcrc' : messageCrc noRead config d' = some c' := by
      rw [messageCrc_eq hnot1, hx']
      exact hc'
    have hne : d.crc ≠ c' := by
      rintro rfl
      exact (calculateCrc_ne_iff h x x').mpr hdiffer (hxc.trans hc'.symm)
    refine ⟨d.crc, c', hcrc, hcrc', hne, ?_⟩
    intro r now r' hcheck
    cases check_checked hcheck with
    | accepted _ _ _ hmatch =>
      rw [hcrc', hsame] at hmatch
      exact hne (Option.some.inj hmatch).symm
    | rejected hno => exact hno rfl

/-- **Which changes show.** One byte of a message that `E2E_Protect` makes with profile 1, 2 or 4
is replaced. The change shows in the CRC, and no receiver accepts the message, if and only if the
profile is not 1, `max_delta_counter` is not zero, and the payload that is read gives other entries
among the last two (four) read from the table. -/
theorem altered_detected_iff {config : E2EConfig} (hconfig : validateConfig config = true)
    (hprofile : config.profile = .profile1 ∨ config.profile = .profile2 ∨
      config.profile = .profile4)
    {s : E2EState} (hs : s.initialized = true) {raw : E2EProtectedData}
    (hraw : validateData config raw = true) (now : Nat) (m : MessageByte) (b : UInt8) :
    (∃ s' d, protect noRead config s raw now = some (s', d, .ok) ∧
        Detected config d (d.alter b m)) ↔
      config.maxDeltaCounter ≠ 0 ∧ ∃ x x', raw.payload = some x ∧
        (raw.alter b m).payload = some x' ∧ EntriesDiffer config.profile x x' := by
  rcases hprofile with h1 | h24
  · -- `E2E_Protect` does not get past the header
    constructor
    · rintro ⟨s', d, hprotect, -⟩
      obtain ⟨-, seq, crc, -, hcrc, -⟩ := protect_ok_iff.mp hprotect
      rw [messageCrc, h1, profile1_header] at hcrc
      cases hcrc
    · rintro ⟨-, x, x', -, -, hdiffer⟩
      rw [h1] at hdiffer
      exact hdiffer.elim
  have hnot1 : config.profile ≠ .profile1 := by
    rcases h24 with h | h <;> rw [h] <;> decide
  constructor
  · rintro ⟨s', d, hprotect, hdetected⟩
    obtain ⟨-, seq, crc, hseq, hcrc, -, rfl⟩ := protect_ok_iff.mp hprotect
    have hmade : messageCrc noRead config
        { raw with sequence := seq, dataId := config.dataId, crc := crc } = some crc := by
      exact hcrc
    obtain ⟨x, x', hx, hx', hdiffer⟩ :=
      (detected_iff h24 hmade (crc_alter _ b m)).mp hdetected
    rw [payload_alter_protected] at hx'
    refine ⟨fun hm => ?_, x, x', hx, hx', hdiffer⟩
    rw [nextSequence, if_pos hm] at hseq
    cases hseq
  · rintro ⟨hm, x, x', hx, hx', hdiffer⟩
    obtain ⟨c, hc⟩ : ∃ c, calculateCrc noRead config.profile x = some c :=
      calculateCrc_isSome (Or.inl hnot1) x
    have hcrc : ∀ d : E2EProtectedData, d.payload = some x →
        messageCrc noRead config d = some c := by
      intro d hd
      rw [messageCrc_eq hnot1, hd]
      exact hc
    have husable : usable config s raw = true := by
      rw [usable, hs, hconfig, hraw]
      rfl
    obtain ⟨seq, hseq⟩ : ∃ seq, nextSequence config s.sequenceCounter = some seq :=
      ⟨_, if_neg hm⟩
    have hmade : messageCrc noRead config
        { raw with sequence := seq, dataId := config.dataId, crc := c } = some c := hcrc _ hx
    refine ⟨_, _, protect_ok_iff.mpr ⟨husable, seq, c, hseq, hcrc _ hx, rfl, rfl⟩, ?_⟩
    refine (detected_iff h24 hmade (crc_alter _ b m)).mpr ⟨x, x', hx, ?_, hdiffer⟩
    rw [payload_alter_protected]
    exact hx'

theorem altered_detected_payload :
    validateConfig sampleConfig = true ∧
      (∃ s' d, protect noRead sampleConfig ⟨0, 0, .init, true⟩ ⟨some [0xF1, 0x02], 2, 0, 0, 0⟩ 10
          = some (s', d, .ok) ∧ Detected sampleConfig d (d.alter 0xF7 (.payload 0))) := by
  have hraw : validateData sampleConfig ⟨some [0xF1, 0x02], 2, 0, 0, 0⟩ = true := by decide
  refine ⟨by decide, (altered_detected_iff (by decide) (Or.inr (Or.inl rfl)) rfl hraw 10
    (.payload 0) 0xF7).mpr ⟨by decide, [0xF1, 0x02], [0xF7, 0x02], rfl, rfl, ?_⟩⟩
  show Crc.recent 2 crc16Table _ _ _ ≠ Crc.recent 2 crc16Table _ _ _
  decide +kernel

/-- The sequence number of a protected message is changed from 1 to 5, and a receiver
that waits for 5 accepts the message. -/
theorem sequence_change_accepted :
    ∃ s' d, protect noRead sampleConfig ⟨0, 0, .init, true⟩ ⟨some [1, 2], 2, 0, 0, 0⟩ 10
        = some (s', d, .ok) ∧ d.sequence = 1 ∧ (d.alter 5 (.sequence 0)).sequence = 5 ∧
      messageCrc noRead sampleConfig (d.alter 5 (.sequence 0)) = messageCrc noRead sampleConfig d ∧
      check noRead sampleConfig ⟨4, 0, .valid, true⟩ (d.alter 5 (.sequence 0)) 10
        = some (⟨5, 10, .valid, true⟩, .ok) := by
  refine ⟨⟨1, 10, .valid, true⟩, ⟨some [1, 2], 2, 0, 1, 0x1234⟩, ?_, rfl, ?_, ?_, ?_⟩
  all_goals decide +kernel

end Cant.Safety
