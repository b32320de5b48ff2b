/-
# `SecureStorage` — what is stored and what is retrieved

Each id is to give back the data of its last successful store, and a store that is refused is
to change nothing.

Every entry has offset zero, so the data of all ids lie on top of each other: an id keeps its
data only while they and the later ones begin alike. And a length that is no multiple of the
block is refused when the entry has it already. `storage_kept_iff` says that, apart from
lengths that reach behind an array, nothing else goes wrong.
-/
import Cant.Diagnostic.CryptoUtils
import Cant.Lib.FinMap
import Cant.Lib.Past

namespace Cant.Diagnostic

open Keyed Cant.Keystream Past Run Option

/-- The storage is there to be used: switched on, with the one algorithm that encrypts, and a
key. -/
structure CryptoConfig.Enabled (config : CryptoConfig) : Prop where
  aes : config.algorithm = .aes128
  storage : config.enableSecureStorage = true
  key : 0 < config.keyLength

namespace CryptoContext

abbrev Entry := Taken CryptoContext (UInt32 × Option (List UInt8)) Bool

def lastStored (id : UInt32) : List Entry → Option (List UInt8)
  | [] => none
  | e :: past => if e.input.1 = id ∧ e.output = true then e.input.2 else lastStored id past

def Unchanged (e : Entry) (_ : List Entry) : Prop :=
  e.output = false → ∀ id, e.post.secureRetrieve id = e.pre.secureRetrieve id

/-- Every id gives back what was last stored, and no refused store has changed any. -/
structure Kept (x : List Entry × CryptoContext) : Prop where
  retrieved : ∀ id data, lastStored id x.1 = some data → x.2.secureRetrieve id = some (some data)
  refused : Historically Unchanged x.1

def retrieved (c : CryptoContext) (id : UInt32) : Option (List UInt8) := (c.secureRetrieve id).join

def Proceeds (c : CryptoContext) (id : UInt32) (data : List UInt8) : Prop :=
  c.findSecureEntry id ≠ none ∨
    data.length ≤ secureStorageSize ∧ c.entries.length < maxSecureEntries
  deriving Decidable

/-- A store of whole blocks stays inside the arrays, and begins as what any other id gives back
or the other way round; any other store is one of an id that gives nothing back. -/
def Safe (c : CryptoContext) (id : UInt32) (data : Option (List UInt8)) : Prop :=
  ∀ bytes ∈ data, c.Proceeds id bytes →
    (bytes.length % 16 ≠ 0 → c.retrieved id = none) ∧
    (bytes.length % 16 = 0 → bytes.length ≤ secureStorageSize ∧
      (bytes.length ≤ 32 ∨ c.config.keyLength.toNat ≤ 32) ∧
      ∀ e ∈ c.entries, e.id ≠ id → ∀ old ∈ c.retrieved e.id, old <+: bytes ∨ bytes <+: old)
  deriving Decidable

/-! ## Entries -/

structure Sound (config : CryptoConfig) (c : CryptoContext) : Prop where
  same : c.config = config
  initialized : c.initialized = true
  unique : Unique SecureEntry.id c.entries
  first : ∀ e ∈ c.entries, e.offset = 0

variable {config : CryptoConfig} {c c' : CryptoContext} {id : UInt32} {data output : List UInt8}
  {e : SecureEntry}

theorem Sound.init (config : CryptoConfig) : Sound config (init config) :=
  ⟨rfl, rfl, List.nodup_nil, nofun⟩

theorem Sound.ready (h : Sound config c) (hon : config.Enabled) :
    (!c.initialized || !c.config.enableSecureStorage) = false := by
  rw [h.initialized, h.same, hon.storage]
  rfl

/-- An entry got its length and its hash. -/
structure Marks (c c' : CryptoContext) (id : UInt32) (data : List UInt8) : Prop where
  storage : c'.storage = c.storage
  found : c'.findSecureEntry id = some ⟨id, data.length, 0, calculateHash c.config data⟩
  others : ∀ id', id' ≠ id → c'.findSecureEntry id' = c.findSecureEntry id'

section

variable (h : Sound config c)
include h

theorem Sound.offset (he : c.findSecureEntry id = some e) : e.offset = 0 :=
  h.first e (mem_of_lookup he).1

theorem Sound.markEntry (id : UInt32) (data : List UInt8) : Sound config (c.markEntry id data) := by
  refine ⟨h.same, h.initialized, h.unique.update fun _ => rfl, fun e he => ?_⟩
  rcases mem_update he with hold | ⟨e', hmem, -, rfl⟩
  · exact h.first e hold
  · exact h.first e' hmem

theorem Marks.of_found (he : c.findSecureEntry id = some e)
    (data : List UInt8) : Marks c (c.markEntry id data) id data := by
  have hkey : ∀ e : SecureEntry, { e with
      length := data.length, hash := calculateHash c.config data }.id = e.id := fun _ => rfl
  have hmap := toMap_update (k := id) hkey c.entries
  have hlookup : toMap SecureEntry.id c.entries id = some e := he
  rw [hlookup] at hmap
  refine ⟨rfl, ?_, fun id' hne => ?_⟩
  · refine (congrFun hmap id).trans ?_
    rw [Function.update_self, map_some, (mem_of_lookup he).2, h.offset he]
  · refine (congrFun hmap id').trans ?_
    rw [Function.update_of_ne hne]
    rfl

theorem Sound.blank (hnew : c.findSecureEntry id = none) :
    Sound config { c with entries := c.entries ++ [SecureEntry.blank id] } := by
  refine ⟨h.same, h.initialized, h.unique.append hnew, fun e he => ?_⟩
  rcases List.mem_append.mp he with hold | hlast
  · exact h.first e hold
  · rw [List.mem_singleton.mp hlast]
    rfl

end

theorem find_blank (hnew : c.findSecureEntry id = none) (id' : UInt32) :
    { c with entries := c.entries ++ [SecureEntry.blank id] }.findSecureEntry id' =
      if id' = id then some (SecureEntry.blank id) else c.findSecureEntry id' := by
  have hnew' : lookup SecureEntry.id (SecureEntry.blank id).id c.entries = none := hnew
  refine (congrFun (toMap_append hnew') id').trans ?_
  rw [Function.update_apply]
  rfl

theorem Sound.secureStore_cases (h : Sound config c) (hon : config.Enabled) (id : UInt32)
    (data : List UInt8) :
    (¬ c.Proceeds id data ∧ c.secureStore id (some data) = some (c, false)) ∨
      (c.Proceeds id data ∧ ∃ c', Sound config c' ∧ Marks c c' id data ∧
        c.secureStore id (some data) = c'.sealData 0 data) := by
  have hready := h.ready hon
  cases hfind : c.findSecureEntry id with
  | some e =>
    refine .inr ⟨.inl (by rw [hfind]; exact some_ne_none e), c.markEntry id data,
      h.markEntry id data, Marks.of_found h hfind data, ?_⟩
    simp [secureStore, hready, hfind, h.offset hfind]
  | none =>
    by_cases hlong : data.length > secureStorageSize
    · refine .inl ⟨?_, ?_⟩
      · rintro (hfound | ⟨hshort, -⟩)
        · exact hfound hfind
        · omega
      · simp [secureStore, hfind, hlong]
    · by_cases hfull : c.entries.length ≥ maxSecureEntries
      · refine .inl ⟨?_, ?_⟩
        · rintro (hfound | ⟨-, hroom⟩)
          · exact hfound hfind
          · omega
        · simp [secureStore, hfind, hfull]
      · have hblank := h.blank hfind
        have hmarks := Marks.of_found hblank ((find_blank hfind id).trans (if_pos rfl)) data
        refine .inr ⟨.inr ⟨by omega, by omega⟩, _, hblank.markEntry id data,
          ⟨hmarks.storage, hmarks.found, fun id' hne => ?_⟩, ?_⟩
        · rw [hmarks.others id' hne, find_blank hfind, if_neg hne]
        · simp [secureStore, hready, hfind, hlong, hfull]

/-! ## Retrieving -/

/-- The entry of an id is one of `data`, whatever is in the storage. -/
structure Filed (config : CryptoConfig) (c : CryptoContext) (id : UInt32) (data : List UInt8) :
    Prop where
  found : c.findSecureEntry id = some ⟨id, data.length, 0, calculateHash config data⟩
  even : data.length % 16 = 0
  fits : data.length ≤ secureStorageSize

theorem cipher_odd {length : Nat} (hodd : length % 16 ≠ 0) (input : Option (List UInt8)) :
    c.cipher length input = some none := by
  simp [cipher, hodd]

theorem Sound.cipher_even (h : Sound config c) (hon : config.Enabled) {length : Nat}
    (heven : length % 16 = 0) (bytes : List UInt8) :
    c.cipher length (some bytes) = (mask config.keyAt 0 bytes).map some := by
  simp only [cipher, h.initialized, h.same, hon.aes, heven, ne_eq, not_true, decide_false,
    Bool.not_true, Bool.or_self, Bool.false_eq_true, if_false, bind_eq_bind, bind_some]
  cases mask config.keyAt 0 bytes with
  | none | some output => rfl

theorem retrieve_odd (hfind : c.findSecureEntry id = some e) (hodd : e.length % 16 ≠ 0) :
    c.secureRetrieve id = some none := by
  simp [secureRetrieve, hfind, decrypt, cipher_odd hodd]

section

variable (hs : Sound config c) (hon : config.Enabled)
include hs hon

theorem Sound.retrieve_iff (hfiled : Filed config c id data) :
    c.secureRetrieve id = some (some data) ↔
      mask config.keyAt 0 data = some (c.storage.load 0 data.length) := by
  have hfits : 0 + data.length ≤ secureStorageSize := by
    rw [Nat.zero_add]
    exact hfiled.fits
  have hread : c.readStorage 0 data.length = some (c.storage.load 0 data.length) := if_pos hfits
  simp only [secureRetrieve, hs.ready hon, hfiled.found, decrypt, hread,
    hs.cipher_even hon hfiled.even, Bool.false_eq_true, if_false, bind_eq_bind]
  constructor
  · intro hback
    obtain ⟨result, hresult, hgiven⟩ := bind_eq_some_iff.mp hback
    obtain ⟨bytes, hbytes, rfl⟩ := map_eq_some_iff.mp hresult
    dsimp only at hgiven
    split at hgiven
    · cases hgiven
      exact mask_mask hbytes
    · cases hgiven
  · intro hmask
    rw [mask_mask hmask, map_some, bind_some]
    dsimp only
    rw [hs.same, if_pos rfl]

end

/-! ## Sealing -/

theorem sealData_odd (hodd : data.length % 16 ≠ 0) : c.sealData 0 data = some (c, false) := by
  simp [sealData, encrypt, cipher_odd hodd]

section

variable (hs : Sound config c) (hon : config.Enabled)
include hs hon

theorem Sound.sealData_even (heven : data.length % 16 = 0)
    (hmask : mask config.keyAt 0 data = some output) (hfits : data.length ≤ secureStorageSize) :
    c.sealData 0 data = some ({ c with storage := c.storage.store 0 output }, true) := by
  have hlength : 0 + output.length ≤ secureStorageSize := by
    rw [Nat.zero_add, length_mask hmask]
    exact hfits
  simp only [sealData, encrypt, hs.cipher_even hon heven, hmask, hlength, if_true, map_some,
    bind_eq_bind, bind_some]

theorem Sound.sealData_inside (heven : data.length % 16 = 0) {r : CryptoContext × Bool}
    (h : c.sealData 0 data = some r) :
    data.length ≤ secureStorageSize ∧ ∃ output, mask config.keyAt 0 data = some output := by
  simp only [sealData, encrypt, hs.cipher_even hon heven, bind_eq_bind] at h
  obtain ⟨result, hresult, hrest⟩ := bind_eq_some_iff.mp h
  obtain ⟨output, houtput, rfl⟩ := map_eq_some_iff.mp hresult
  dsimp only at hrest
  split at hrest
  case isTrue hlength =>
    rw [Nat.zero_add, length_mask houtput] at hlength
    exact ⟨hlength, output, houtput⟩
  case isFalse => cases hrest

end

structure Whole (config : CryptoConfig) (x : List Entry × CryptoContext) : Prop where
  sound : Sound config x.2
  filed : ∀ id data, lastStored id x.1 = some data → Filed config x.2 id data
  stored : ∀ id data, lastStored id x.1 = some data →
    mask config.keyAt 0 data = some (x.2.storage.load 0 data.length)
  idle : ∀ id, lastStored id x.1 = none → ∀ e, x.2.findSecureEntry id = some e → e.length % 16 ≠ 0

section

variable {x : List Entry × CryptoContext} (h : Whole config x) (hon : config.Enabled)
include h hon

theorem Whole.secureRetrieve (id : UInt32) : x.2.secureRetrieve id = some (lastStored id x.1) := by
  cases hlast : lastStored id x.1 with
  | some data =>
    exact (h.sound.retrieve_iff hon (h.filed id data hlast)).mpr (h.stored id data hlast)
  | none =>
    cases hfind : x.2.findSecureEntry id with
    | none => simp [CryptoContext.secureRetrieve, hfind]
    | some e => exact retrieve_odd hfind (h.idle id hlast e hfind)

theorem Whole.retrieved_eq (id : UInt32) : x.2.retrieved id = lastStored id x.1 := by
  rw [retrieved, h.secureRetrieve hon]
  rfl

theorem Whole.kept (hpast : Historically Unchanged x.1) : Kept x := by
  refine ⟨fun id data hlast => ?_, hpast⟩
  rw [h.secureRetrieve hon, hlast]

end

section

variable {x : List Entry × CryptoContext}

theorem lastStored_refused (id id' : UInt32) (data : Option (List UInt8)) (past : List Entry) :
    lastStored id' (⟨c, (id, data), false, c'⟩ :: past) = lastStored id' past :=
  if_neg fun hboth => Bool.false_ne_true hboth.2

theorem lastStored_done (id id' : UInt32) (past : List Entry) :
    lastStored id' (⟨c, (id, some data), true, c'⟩ :: past) =
      if id' = id then some data else lastStored id' past := by
  by_cases heq : id' = id
  · rw [if_pos heq]
    exact if_pos ⟨heq.symm, rfl⟩
  · rw [if_neg heq]
    exact if_neg fun hboth => heq hboth.1.symm

theorem Filed.of_find (hfiled : Filed config c id data)
    (hfind : c'.findSecureEntry id = c.findSecureEntry id) : Filed config c' id data :=
  ⟨hfind.trans hfiled.found, hfiled.even, hfiled.fits⟩

section

variable (h : Whole config x)
include h

theorem Whole.same (id : UInt32) (data : Option (List UInt8)) :
    Whole config (⟨x.2, (id, data), false, x.2⟩ :: x.1, x.2) := by
  refine ⟨h.sound, fun id' => ?_, fun id' => ?_, fun id' => ?_⟩
  · rw [lastStored_refused]
    exact h.filed id'
  · rw [lastStored_refused]
    exact h.stored id'
  · rw [lastStored_refused]
    exact h.idle id'

theorem Whole.marked (hs' : Sound config c') (hmarks : Marks x.2 c' id data)
    (hodd : data.length % 16 ≠ 0) (hidle : lastStored id x.1 = none) :
    Whole config (⟨x.2, (id, some data), false, c'⟩ :: x.1, c') := by
  have hother : ∀ id' old, lastStored id' x.1 = some old → id' ≠ id := by
    rintro id' old hlast rfl
    exact some_ne_none old (hlast.symm.trans hidle)
  refine ⟨hs', fun id' old hlast => ?_, fun id' old hlast => ?_, fun id' hlast e he => ?_⟩
  · rw [lastStored_refused] at hlast
    exact (h.filed id' old hlast).of_find (hmarks.others id' (hother id' old hlast))
  · rw [lastStored_refused] at hlast
    rw [hmarks.storage]
    exact h.stored id' old hlast
  · rw [lastStored_refused] at hlast
    by_cases heq : id' = id
    · rw [heq, hmarks.found] at he
      cases he
      exact hodd
    · exact h.idle id' hlast e ((hmarks.others id' heq).symm.trans he)

theorem Whole.alike_iff (hstorage : c'.storage = x.2.storage) {old : List UInt8}
    (hlast : lastStored id x.1 = some old) (hmask : mask config.keyAt 0 data = some output) :
    mask config.keyAt 0 old = some ((c'.storage.store 0 output).load 0 old.length) ↔
      old <+: data ∨ data <+: old := by
  have hold := h.stored id old hlast
  rw [Mem.load_store_overlay, hstorage, hold, Option.some.injEq, eq_comm, Mem.overlay_eq_iff,
    mask_isPrefix_iff hmask hold, mask_isPrefix_iff hold hmask, or_comm]

theorem Whole.written (hs' : Sound config c') (hmarks : Marks x.2 c' id data)
    (heven : data.length % 16 = 0) (hfits : data.length ≤ secureStorageSize)
    (hmask : mask config.keyAt 0 data = some output)
    (halike : ∀ id' old, id' ≠ id → lastStored id' x.1 = some old → old <+: data ∨ data <+: old) :
    Whole config (⟨x.2, (id, some data), true, { c' with storage := c'.storage.store 0 output }⟩ ::
      x.1, { c' with storage := c'.storage.store 0 output }) := by
  refine ⟨⟨hs'.same, hs'.initialized, hs'.unique, hs'.first⟩, fun id' old hlast => ?_,
    fun id' old hlast => ?_, fun id' hlast e he => ?_⟩
  · rw [lastStored_done] at hlast
    split at hlast
    case isTrue heq =>
      cases hlast
      rw [heq]
      exact ⟨h.sound.same ▸ hmarks.found, heven, hfits⟩
    case isFalse hne => exact (h.filed id' old hlast).of_find (hmarks.others id' hne)
  · rw [lastStored_done] at hlast
    split at hlast
    case isTrue heq =>
      cases hlast
      rw [hmask, ← length_mask hmask, Mem.load_store_self]
    case isFalse hne =>
      exact (h.alike_iff hmarks.storage hlast hmask).mpr (halike id' old hne hlast)
  · rw [lastStored_done] at hlast
    split at hlast
    · cases hlast
    case isFalse hne => exact h.idle id' hlast e ((hmarks.others id' hne).symm.trans he)

end

variable {data : Option (List UInt8)} (h : Whole config x) (hon : config.Enabled)
include h hon

theorem Whole.unchanged
    (h' : Whole config (⟨x.2, (id, data), false, c'⟩ :: x.1, c')) :
    Unchanged ⟨x.2, (id, data), false, c'⟩ x.1 := by
  intro _ id'
  rw [h'.secureRetrieve hon, h.secureRetrieve hon, lastStored_refused]

theorem Whole.step_safe (hsafe : x.2.Safe id data) :
    ∃ c' ok, x.2.secureStore id data = some (c', ok) ∧
      Whole config (⟨x.2, (id, data), ok, c'⟩ :: x.1, c') ∧
      Unchanged ⟨x.2, (id, data), ok, c'⟩ x.1 := by
  cases data with
  | none =>
    have hsame := h.same id none
    refine ⟨x.2, false, ?_, hsame, h.unchanged hon hsame⟩
    simp [secureStore]
  | some data =>
    rcases h.sound.secureStore_cases hon id data with
      ⟨-, hcall⟩ | ⟨hproceeds, c', hs', hmarks, hcall⟩
    · have hsame := h.same id (some data)
      exact ⟨x.2, false, hcall, hsame, h.unchanged hon hsame⟩
    · obtain ⟨hodd, heven⟩ := hsafe data rfl hproceeds
      by_cases hlength : data.length % 16 = 0
      · obtain ⟨hfits, hshort, halike⟩ := heven hlength
        rw [h.sound.same, ← config.mask_isSome_iff hon.key] at hshort
        obtain ⟨output, hmask⟩ := hshort
        refine ⟨_, true, hcall.trans (hs'.sealData_even hon hlength hmask hfits), ?_, nofun⟩
        refine h.written hs' hmarks hlength hfits hmask fun id' old hne hlast => ?_
        obtain ⟨hmem, hkey⟩ := mem_of_lookup (h.filed id' old hlast).found
        exact halike _ hmem hne old ((h.retrieved_eq hon id').trans hlast)
      · have hidle : lastStored id x.1 = none := (h.retrieved_eq hon id).symm.trans (hodd hlength)
        have hmarked := h.marked hs' hmarks hlength hidle
        exact ⟨c', false, hcall.trans (sealData_odd hlength), hmarked, h.unchanged hon hmarked⟩

theorem Whole.safe_of_kept {ok : Bool}
    (hcall : x.2.secureStore id data = some (c', ok))
    (hkept : Kept (⟨x.2, (id, data), ok, c'⟩ :: x.1, c')) : x.2.Safe id data := by
  rintro bytes rfl hproceeds
  rcases h.sound.secureStore_cases hon id bytes with ⟨hnot, -⟩ | ⟨-, c₁, hs₁, hmarks, hstore⟩
  · exact absurd hproceeds hnot
  rw [hstore] at hcall
  constructor
  · intro hodd
    cases (sealData_odd hodd).symm.trans hcall
    rw [h.retrieved_eq hon]
    by_contra hsome
    obtain ⟨old, hlast⟩ := ne_none_iff_exists'.mp hsome
    have hback := hkept.retrieved id old ((lastStored_refused id id _ _).trans hlast)
    rw [retrieve_odd hmarks.found hodd] at hback
    cases hback
  · intro heven
    obtain ⟨hfits, output, hmask⟩ := hs₁.sealData_inside hon heven hcall
    cases (hs₁.sealData_even hon heven hmask hfits).symm.trans hcall
    refine ⟨hfits, ?_, fun e _ hne old hold => ?_⟩
    · rw [h.sound.same]
      exact (config.mask_isSome_iff hon.key bytes).mp ⟨output, hmask⟩
    · have hlast : lastStored e.id x.1 = some old := (h.retrieved_eq hon e.id).symm.trans hold
      have hback := hkept.retrieved e.id old
        ((lastStored_done id e.id _).trans ((if_neg hne).trans hlast))
      have hfiled := (h.filed e.id old hlast).of_find (hmarks.others e.id hne)
      have hs₂ : Sound config { c₁ with storage := c₁.storage.store 0 output } :=
        ⟨hs₁.same, hs₁.initialized, hs₁.unique, hs₁.first⟩
      have hstill := (hs₂.retrieve_iff hon ⟨hfiled.found, hfiled.even, hfiled.fits⟩).mp hback
      exact (h.alike_iff hmarks.storage hlast hmask).mp hstill

end

/-- **The secure storage, over every run.** Every id gives back what was last stored, a
refused store changes nothing and no store leaves the storage, exactly as long as every store
is safe. -/
theorem storage_kept_iff (hon : config.Enabled) (stores : List (UInt32 × Option (List UInt8))) :
    Throughout (logged step) Kept ([], init config) stores ↔
      Along (logged step) (fun x i => x.2.Safe i.1 i.2) ([], init config) stores := by
  have hstart : Whole config ([], init config) := ⟨Sound.init config, nofun, nofun, nofun⟩
  refine throughout_logged_iff (fun x => Whole config x ∧ Historically Unchanged x.1)
    (fun x hx => hx.1.kept hon hx.2) ?_ ?_ stores ⟨hstart, trivial⟩
  · rintro x ⟨id, data⟩ ⟨hwhole, hpast⟩ hsafe
    obtain ⟨c', ok, hcall, hnext, hunchanged⟩ := hwhole.step_safe hon hsafe
    exact ⟨c', ok, hcall, hnext, hunchanged, hpast⟩
  · rintro x ⟨id, data⟩ c' ok ⟨hwhole, -⟩ hcall hkept
    exact hwhole.safe_of_kept hon hcall hkept

def sixteenBytes : CryptoConfig :=
  ⟨.aes128, ⟨List.replicate 32 0x5A, rfl⟩, 16, true⟩

theorem storage_kept_one_id :
    sixteenBytes.Enabled ∧
      Throughout (logged step) Kept ([], init sixteenBytes)
        [(1, some (List.replicate 16 0x11)), (1, some (List.replicate 32 0x22)),
          (2, some [0x33])] := by
  have hon : sixteenBytes.Enabled := ⟨rfl, rfl, by decide⟩
  exact ⟨hon, (storage_kept_iff hon _).mpr (by decide)⟩

/-- Data of a second id overwrite those of the first, whose hash does not match any more. -/
theorem second_id_overwrites :
    sixteenBytes.Enabled ∧
      (∃ c, run step (init sixteenBytes)
          [(1, some (List.replicate 16 0x11)), (2, some (List.replicate 16 0x22))]
          = some (c, [true, true]) ∧
        c.secureRetrieve 1 = some none) ∧
      ¬ Throughout (logged step) Kept ([], init sixteenBytes)
        [(1, some (List.replicate 16 0x11)), (2, some (List.replicate 16 0x22))] := by
  refine ⟨⟨rfl, rfl, by decide⟩, ⟨_, rfl, by decide⟩, fun h => ?_⟩
  cases (h.last rfl).retrieved 1 (List.replicate 16 0x11) rfl

end CryptoContext

end Cant.Diagnostic
