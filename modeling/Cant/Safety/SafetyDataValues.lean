/-
# `SafetyDataValues` — reads return the latest value

What the data unit is for is `DataSpec`: a table of values, in which a read gives the
bytes of the latest accepted write or of the default, and a verification never fails.
`reads_return_latest` is the refinement.

Disjoint areas are not enough for that. `Safety_Data_Init` and `Safety_Data_Reset` store
the default past the end of an item that is shorter than its type
(`reset_breaks_neighbour`), so the theorem asks that no default reaches another item.
-/
import Cant.Lib.Run
import Cant.Safety.SafetyData

namespace Cant.Safety

open Word Run Cant.Utils

variable {F : Type}

/-! ## One item -/

/-- The item holds `v`: the value, its CRC and its copy are those of `v`. -/
structure Holds (p : Platform F) (inst : SafetyDataInstance F) (mem : Mem) (v : List UInt8) :
    Prop where
  data : mem.load inst.config.dataPtr inst.config.dataSize = v
  crc : inst.crc = p.crc.calculateCrc32 v
  copy : inst.config.redundantPtr ≠ 0 → ∀ f, inst.config.protection.copyByte = some f →
    mem.load inst.config.redundantPtr inst.config.dataSize = v.map f

theorem Holds.congr {p : Platform F} {inst : SafetyDataInstance F} {mem mem' : Mem}
    {v : List UInt8} (h : Holds p inst mem v) (hd : inst.config.dataPtr ≠ 0)
    (hmem : ∀ x ∈ inst.config.areas, mem' x = mem x) : Holds p inst mem' v where
  data := (SafetyDataConfig.load_data_congr hd fun x hx => hmem x (Or.inl hx)).trans h.data
  crc := h.crc
  copy hr f hf :=
    (SafetyDataConfig.load_copy_congr hr fun x hx => hmem x (Or.inr hx)).trans (h.copy hr f hf)

namespace SafetyDataInstance

variable {p : Platform F} {inst : SafetyDataInstance F} {mem : Mem} {v : List UInt8}

section

variable (h : Holds p inst mem v)
include h

theorem checks_of_holds (hd : inst.config.dataPtr ≠ 0) : inst.checks p mem = true := by
  by_cases hcrc : inst.config.protection = .crc
  · rw [checks_of_crc hcrc hd, h.data]
    exact h.crc.symm
  · by_cases hcopy : ∃ f, inst.config.protection.copyByte = some f ∧ inst.config.redundantPtr ≠ 0
    · obtain ⟨f, hf, hr⟩ := hcopy
      rw [checks_of_copyByte hf hr, h.data]
      exact h.copy hr f hf
    · push Not at hcopy
      exact checks_of_neither hcrc hcopy

theorem verify_of_holds (hd : inst.config.dataPtr ≠ 0) :
    inst.verify p mem = ((inst, mem), true) := by
  rw [verify, if_neg (by rw [checks_of_holds h hd]; exact not_not.mpr rfl)]

theorem read_of_holds (hd : inst.config.dataPtr ≠ 0) : inst.read p mem = ((inst, mem), some v) := by
  rw [read, if_neg hd, verify_of_holds h hd]
  dsimp only
  rw [if_neg (not_not.mpr rfl), h.data]

end

variable (hd : inst.config.dataPtr ≠ 0)

include hd

theorem write_out_of_range (mem : Mem) {value : Mem}
    (hv : inst.config.validateValueRange p value = false) :
    inst.write p value mem =
      (({ inst with errorCount := u32 (inst.errorCount + 1) }, mem), false) := by
  rw [write, if_neg hd, if_pos (by rw [hv]; exact Bool.false_ne_true)]

variable (hown : Disjoint inst.config.dataArea inst.config.copyArea)

include hown

theorem protect_holds (p : Platform F) (mem : Mem) :
    Holds p (inst.protect p mem).1 (inst.protect p mem).2
      (mem.load inst.config.dataPtr inst.config.dataSize) := by
  have hdata : (inst.config.updateRedundantCopy mem).load inst.config.dataPtr inst.config.dataSize
      = mem.load inst.config.dataPtr inst.config.dataSize :=
    SafetyDataConfig.load_data_congr hd fun x hx =>
      SafetyDataConfig.updateRedundantCopy_of_not (Set.disjoint_left.mp hown hx)
  refine ⟨hdata, ?_, fun hr f hf => ?_⟩
  · show SafetyDataConfig.calculateDataCrc p inst.config _ = _
    rw [SafetyDataConfig.calculateDataCrc, if_neg hd, hdata]
  · exact SafetyDataConfig.load_updateRedundantCopy hown hd hr hf

theorem write_holds (mem : Mem) {value : Mem} (hv : inst.config.validateValueRange p value = true) :
    (inst.write p value mem).2 = true ∧ Holds p (inst.write p value mem).1.1
      (inst.write p value mem).1.2 (value.load 0 inst.config.dataSize) := by
  have hprotect := protect_holds hd hown p
    (mem.store inst.config.dataPtr (value.load 0 inst.config.dataSize))
  have hload := Mem.load_store_self mem inst.config.dataPtr (value.load 0 inst.config.dataSize)
  rw [Mem.length_load] at hload
  rw [hload] at hprotect
  rw [write, if_neg hd, if_neg (by rw [hv]; exact not_not.mpr rfl)]
  exact ⟨rfl, hprotect⟩

section

variable (h : Holds p inst mem v)
include h

theorem reset_holds :
    Holds p (inst.reset p mem).1.1 (inst.reset p mem).1.2
      (Mem.overlay (inst.config.defaultBytes p) v) := by
  have hprotect := protect_holds hd hown p (inst.config.storeDefault p mem)
  rw [SafetyDataConfig.load_storeDefault, h.data] at hprotect
  rw [reset, if_neg hd]
  exact ⟨hprotect.data, hprotect.crc, hprotect.copy⟩

theorem backup_holds : Holds p (inst.backup mem).1.1 (inst.backup mem).1.2 v := by
  rw [backup]
  split
  · exact h
  · have hprotect := protect_holds hd hown p mem
    rw [h.data] at hprotect
    exact ⟨hprotect.data, h.crc, hprotect.copy⟩

theorem restore_holds : Holds p (inst.restore p mem).1.1 (inst.restore p mem).1.2 v := by
  rw [restore]
  split
  case isTrue => exact h
  case isFalse hr =>
    have hdata : (inst.config.protection.transfer inst.config.dataPtr inst.config.redundantPtr
        inst.config.dataSize mem).load inst.config.dataPtr inst.config.dataSize = v := by
      cases hf : inst.config.protection.copyByte with
      | none => rw [ProtectionMethod.transfer_of_none hf, h.data]
      | some f =>
        rw [(SafetyDataConfig.load_restored hown hd hr hf).1, h.copy hr f hf,
          ProtectionMethod.copyByte_involutive hf]
    refine ⟨hdata, ?_, fun _ f hf => ?_⟩
    · show SafetyDataConfig.calculateDataCrc p inst.config _ = _
      rw [SafetyDataConfig.calculateDataCrc, if_neg hd, hdata]
    · exact (SafetyDataConfig.load_restored hown hd hr hf).2.trans (h.copy hr f hf)

end

end SafetyDataInstance

/-- An item after its turn in `Safety_Data_Init`: it is initialised if it has a data
pointer, and then it holds its default. -/
structure Started (p : Platform F) (inst : SafetyDataInstance F) (mem : Mem) : Prop where
  initialized : inst.initialized = decide (inst.config.dataPtr ≠ 0)
  holds : inst.config.dataPtr ≠ 0 → ∃ old : List UInt8, old.length = inst.config.dataSize ∧
    Holds p inst mem (Mem.overlay (inst.config.defaultBytes p) old)

theorem SafetyDataInstance.init_started (p : Platform F) {config : SafetyDataConfig F}
    (hown : Disjoint config.dataArea config.copyArea) (mem : Mem) :
    (SafetyDataInstance.init p config mem).1.config = config ∧
      Started p (SafetyDataInstance.init p config mem).1
        (SafetyDataInstance.init p config mem).2 ∧
      ∀ x ∉ config.stores,
        (SafetyDataInstance.init p config mem).2 x = mem x := by
  rw [SafetyDataInstance.init]
  by_cases hd : config.dataPtr = 0
  · rw [if_pos hd]
    exact ⟨rfl, ⟨by simp [hd], fun h => absurd hd h⟩, fun _ _ => rfl⟩
  · rw [if_neg hd]
    have hprotect := @protect_holds F ⟨config, 0, 0, false, false⟩ hd hown p
      (config.storeDefault p mem)
    rw [SafetyDataConfig.load_storeDefault] at hprotect
    refine ⟨rfl, ⟨by simp [protect, hd], fun _ => ⟨_, Mem.length_load _ _ _, hprotect.data,
      hprotect.crc, hprotect.copy⟩⟩, fun x hx => ?_⟩
    exact ((protect_framed p ⟨config, 0, 0, false, false⟩ _).frame x
      fun hcopy => hx (Or.inl (Or.inr hcopy))).trans
      (SafetyDataConfig.storeDefault_of_not p hd fun hdefault => hx (Or.inr hdefault))

/-! ## The table -/

/-- No two areas of the items have a byte in common. -/
structure DisjointAreas (configs : List (SafetyDataConfig F)) : Prop where
  own : ∀ c ∈ configs, Disjoint c.dataArea c.copyArea
  pairwise : configs.Pairwise fun c d => Disjoint c.areas d.areas

/-- No default of `Safety_Data_Init` is stored into an item that had its turn. -/
def InitClear (configs : List (SafetyDataConfig F)) : Prop :=
  configs.Pairwise fun c d => Disjoint d.defaultArea c.areas

variable {configs : List (SafetyDataConfig F)}

theorem DisjointAreas.of_ne (h : DisjointAreas configs) {i j : Nat} {c d : SafetyDataConfig F}
    (hij : i ≠ j) (hc : configs[i]? = some c) (hd : configs[j]? = some d) :
    Disjoint c.areas d.areas := by
  have hpair := List.pairwise_iff_getElem.mp h.pairwise
  obtain ⟨hi, rfl⟩ := List.getElem?_eq_some_iff.mp hc
  obtain ⟨hj, rfl⟩ := List.getElem?_eq_some_iff.mp hd
  rcases Nat.lt_or_gt_of_ne hij with hlt | hgt
  · exact hpair i j hi hj hlt
  · exact (hpair j i hj hi hgt).symm

/-- **The loop of `Safety_Data_Init`**: every item is started, and stays so while the
later ones have their turns. -/
theorem initAll_started (p : Platform F) : ∀ {configs : List (SafetyDataConfig F)},
    DisjointAreas configs → InitClear configs → ∀ mem : Mem,
    (SafetyData.initAll p configs mem).1.map (·.config) = configs ∧
      (∀ inst ∈ (SafetyData.initAll p configs mem).1,
        Started p inst (SafetyData.initAll p configs mem).2) ∧
      ∀ x, (∀ c ∈ configs, x ∉ c.stores) →
        (SafetyData.initAll p configs mem).2 x = mem x := by
  intro configs
  induction configs with
  | nil => exact fun _ _ _ => ⟨rfl, nofun, fun _ _ => rfl⟩
  | cons c configs ih =>
    intro hareas hclear mem
    obtain ⟨hfirst, hrest⟩ := List.pairwise_cons.mp hareas.pairwise
    obtain ⟨hfirst', hrest'⟩ := List.pairwise_cons.mp hclear
    obtain ⟨hconfig, hstarted, hframe⟩ := SafetyDataInstance.init_started p
      (hareas.own c List.mem_cons_self) mem
    obtain ⟨hconfigs, hall, hframes⟩ := ih
      ⟨fun d hd => hareas.own d (List.mem_cons_of_mem c hd), hrest⟩ hrest'
      (SafetyDataInstance.init p c mem).2
    rw [SafetyData.initAll]
    refine ⟨by rw [List.map_cons, hconfig, hconfigs], ?_, fun x hx => ?_⟩
    · intro inst hinst
      rcases List.mem_cons.mp hinst with rfl | hinst
      · refine ⟨hstarted.initialized, fun hd => ?_⟩
        obtain ⟨old, hold, hholds⟩ := hstarted.holds hd
        refine ⟨old, hold, hholds.congr hd fun x hx => hframes x fun d hd hin => ?_⟩
        rw [hconfig] at hx
        -- the later items write neither into their areas nor, by `InitClear`, past them
        rcases hin with hin | hin
        · exact Set.disjoint_left.mp (hfirst d hd) hx hin
        · exact Set.disjoint_left.mp (hfirst' d hd) hin hx
      · exact hall inst hinst
    · exact (hframes x fun d hd => hx d (List.mem_cons_of_mem c hd)).trans
        (hframe x (hx c List.mem_cons_self))

/-- The table of the values, as the code keeps it. -/
structure Rep (p : Platform F) (configs : List (SafetyDataConfig F)) (s : SafetyData F)
    (latest : Nat → List UInt8) : Prop where
  initialized : s.initialized = true
  configs_eq : s.data.map (·.config) = configs
  started : ∀ inst ∈ s.data, inst.initialized = decide (inst.config.dataPtr ≠ 0)
  holds : ∀ k inst, s.data[k]? = some inst → inst.config.dataPtr ≠ 0 →
    Holds p inst s.mem (latest k)

section

variable {p : Platform F} {configs : List (SafetyDataConfig F)} {s : SafetyData F}
  {latest : Nat → List UInt8} {k : Nat}

variable (h : Rep p configs s latest)
include h

theorem Rep.config_of {inst : SafetyDataInstance F}
    (hk : s.data[k]? = some inst) : configs[k]? = some inst.config := by
  rw [← h.configs_eq, List.getElem?_map, hk]
  rfl

/-- **A call on an item** is refused if the id has no data pointer, and otherwise
reaches the item. -/
theorem Rep.onInstance_cases {γ : Type} (refusal : γ)
    (f : SafetyDataInstance F → Mem → (SafetyDataInstance F × Mem) × γ) :
    (∀ c, configs[k]? = some c → c.dataPtr = 0) ∧ s.onInstance k refusal f = (s, refusal) ∨
    ∃ inst, s.data[k]? = some inst ∧ inst.config.dataPtr ≠ 0 ∧ s.onInstance k refusal f =
      ({ s with data := s.data.set k (f inst s.mem).1.1, mem := (f inst s.mem).1.2 },
        (f inst s.mem).2) := by
  rcases s.onInstance_cases k refusal f with ⟨hno, hcall⟩ | ⟨inst, hk, -, hi, hcall⟩
  · refine Or.inl ⟨fun c hc => ?_, hcall⟩
    rw [← h.configs_eq, List.getElem?_map] at hc
    obtain ⟨inst, hk, rfl⟩ := Option.map_eq_some_iff.mp hc
    by_contra hd
    refine hno inst hk ⟨h.initialized, ?_⟩
    rw [h.started inst (List.mem_of_getElem? hk)]
    exact decide_eq_true hd
  · refine Or.inr ⟨inst, hk, ?_, hcall⟩
    rw [h.started inst (List.mem_of_getElem? hk)] at hi
    exact of_decide_eq_true hi

/-- **What a call leaves of the table**: the item holds `v`, the others what they held,
as long as the call stayed out of their areas. -/
theorem Rep.leaves {inst inst' : SafetyDataInstance F} {mem' : Mem}
    {v : List UInt8} {area : Set Nat} (hk : s.data[k]? = some inst)
    (hl : Framed area inst inst' s.mem mem') (hholds : Holds p inst' mem' v)
    (hclear : ∀ j c, j ≠ k → configs[j]? = some c → Disjoint area c.areas) :
    Rep p configs { s with data := s.data.set k inst', mem := mem' }
      (Function.update latest k v) where
  initialized := h.initialized
  configs_eq := by
    rw [← h.configs_eq]
    apply List.ext_getElem?
    intro j
    simp only [List.getElem?_map, List.getElem?_set]
    by_cases hj : k = j
    · subst hj
      rw [if_pos rfl, if_pos (List.getElem?_eq_some_iff.mp hk).1, hk, Option.map_some,
        Option.map_some, hl.config]
    · rw [if_neg hj]
  started i hi := by
    rcases List.mem_or_eq_of_mem_set hi with hold | rfl
    · exact h.started i hold
    · rw [hl.initialized, hl.config]
      exact h.started inst (List.mem_of_getElem? hk)
  holds j i hj hd := by
    simp only [List.getElem?_set] at hj
    by_cases hjk : k = j
    · subst hjk
      rw [Function.update_self]
      simp [(List.getElem?_eq_some_iff.mp hk).1] at hj
      subst hj
      exact hholds
    · rw [if_neg hjk] at hj
      rw [Function.update_of_ne (Ne.symm hjk)]
      refine (h.holds j i hj hd).congr hd fun x hx => hl.frame x fun harea => ?_
      exact Set.disjoint_left.mp (hclear j _ (Ne.symm hjk) (h.config_of hj)) harea hx

end

/-! ## What the unit is for -/

/-- **A table of values.** A write whose value is in range becomes the latest value, a
reset lays the default over it, and everything else leaves it alone; a read returns it
and a verification succeeds, for every id with a data pointer. -/
inductive DataSpec (p : Platform F) (configs : List (SafetyDataConfig F)) :
    (Nat → List UInt8) → DataOp F → DataOut → (Nat → List UInt8) → Prop
  | written {latest : Nat → List UInt8} {k : Nat} {c : SafetyDataConfig F} {value : Mem} :
      configs[k]? = some c → c.dataPtr ≠ 0 → c.validateValueRange p value = true →
      DataSpec p configs latest (.write k value) (.answer true)
        (Function.update latest k (value.load 0 c.dataSize))
  | unwritten {latest : Nat → List UInt8} {k : Nat} {value : Mem} :
      (∀ c, configs[k]? = some c → c.dataPtr ≠ 0 → c.validateValueRange p value = false) →
      DataSpec p configs latest (.write k value) (.answer false) latest
  | read {latest : Nat → List UInt8} {k : Nat} {c : SafetyDataConfig F} :
      configs[k]? = some c → c.dataPtr ≠ 0 →
      DataSpec p configs latest (.read k) (.value (some (latest k))) latest
  | unread {latest : Nat → List UInt8} {k : Nat} :
      (∀ c, configs[k]? = some c → c.dataPtr = 0) →
      DataSpec p configs latest (.read k) (.value none) latest
  | verified {latest : Nat → List UInt8} {k : Nat} {c : SafetyDataConfig F} :
      configs[k]? = some c → c.dataPtr ≠ 0 →
      DataSpec p configs latest (.verify k) (.answer true) latest
  | unverified {latest : Nat → List UInt8} {k : Nat} :
      (∀ c, configs[k]? = some c → c.dataPtr = 0) →
      DataSpec p configs latest (.verify k) (.answer false) latest
  | reset {latest : Nat → List UInt8} {k : Nat} {c : SafetyDataConfig F} :
      configs[k]? = some c → c.dataPtr ≠ 0 →
      DataSpec p configs latest (.reset k) .done
        (Function.update latest k (Mem.overlay (c.defaultBytes p) (latest k)))
  | unreset {latest : Nat → List UInt8} {k : Nat} :
      (∀ c, configs[k]? = some c → c.dataPtr = 0) →
      DataSpec p configs latest (.reset k) .done latest
  | backup {latest : Nat → List UInt8} {k : Nat} {ok : Bool} :
      DataSpec p configs latest (.backup k) (.answer ok) latest
  | restore {latest : Nat → List UInt8} {k : Nat} {ok : Bool} :
      DataSpec p configs latest (.restore k) (.answer ok) latest
  | outside {latest : Nat → List UInt8} {address : Nat} {byte : UInt8} :
      DataSpec p configs latest (.outside address byte) .done latest

def valuesIn (configs : List (SafetyDataConfig F)) (mem : Mem) (k : Nat) : List UInt8 :=
  match configs[k]? with
  | some c => mem.load c.dataPtr c.dataSize
  | none => []

/-- The six calls on items, and writes of somebody else that stay out of the areas. -/
def DataCall (configs : List (SafetyDataConfig F)) : DataOp F → Prop
  | .init _ | .deInit => False
  | .outside address _ => ∀ c ∈ configs, address ∉ c.areas
  | _ => True

/-- The default of a reset is not stored into another item. -/
def ResetClear (configs : List (SafetyDataConfig F)) : DataOp F → Prop
  | .reset k => ∀ j c d, j ≠ k → configs[k]? = some c → configs[j]? = some d →
      Disjoint c.defaultArea d.areas
  | _ => True

/-! Both conditions on the defaults hold if every item is as large as its type. -/

theorem SafetyDataConfig.defaultArea_subset {c : SafetyDataConfig F}
    (h : c.type.size ≤ c.dataSize) : c.defaultArea ⊆ c.areas := by
  rintro x ⟨hd, hlo, hhi⟩
  exact Or.inl ⟨hd, hlo, by omega⟩

theorem initClear_of_fits (hareas : DisjointAreas configs)
    (hfits : ∀ c ∈ configs, c.type.size ≤ c.dataSize) : InitClear configs := by
  refine hareas.pairwise.imp_of_mem fun _ hd hdisj => ?_
  exact hdisj.symm.mono_left (SafetyDataConfig.defaultArea_subset (hfits _ hd))

theorem resetClear_of_fits (hareas : DisjointAreas configs)
    (hfits : ∀ c ∈ configs, c.type.size ≤ c.dataSize) (op : DataOp F) : ResetClear configs op := by
  cases op with
  | reset k =>
    intro j c d hj hc hd
    exact (hareas.of_ne (Ne.symm hj) hc hd).mono_left
      (SafetyDataConfig.defaultArea_subset (hfits c (List.mem_of_getElem? hc)))
  | _ => trivial

section

variable {p : Platform F} {configs : List (SafetyDataConfig F)} {s : SafetyData F}
  {latest : Nat → List UInt8}

theorem Rep.same (h : Rep p configs s latest) {k : Nat} {inst inst' : SafetyDataInstance F}
    {mem' : Mem} (hareas : DisjointAreas configs) (hk : s.data[k]? = some inst)
    (hl : Framed inst.config.areas inst inst' s.mem mem') (hholds : Holds p inst' mem' (latest k)) :
    Rep p configs { s with data := s.data.set k inst', mem := mem' } latest := by
  have hrep := h.leaves hk hl hholds fun j c hj hc =>
    hareas.of_ne (Ne.symm hj) (h.config_of hk) hc
  rwa [Function.update_eq_self] at hrep

/-- A call meets the specification if it does on an item that holds its value, and if a
refusal is right where there is none. -/
theorem Rep.step_of_item (h : Rep p configs s latest) {op : DataOp F} {k : Nat} {γ : Type}
    {refusal : γ} {f : SafetyDataInstance F → Mem → (SafetyDataInstance F × Mem) × γ}
    {out : γ → DataOut} (hstep : s.step p op = some ((s.onInstance k refusal f).map id out))
    (hnone : (∀ c, configs[k]? = some c → c.dataPtr = 0) →
      DataSpec p configs latest op (out refusal) latest)
    (hitem : ∀ inst, s.data[k]? = some inst → inst.config.dataPtr ≠ 0 →
      ∃ latest', DataSpec p configs latest op (out (f inst s.mem).2) latest' ∧
        Rep p configs { s with data := s.data.set k (f inst s.mem).1.1,
                               mem := (f inst s.mem).1.2 } latest') :
    ∃ s' o latest', s.step p op = some (s', o) ∧ DataSpec p configs latest op o latest' ∧
      Rep p configs s' latest' := by
  rcases h.onInstance_cases refusal f with ⟨hno, hcall⟩ | ⟨inst, hk, hd, hcall⟩
  · exact ⟨s, out refusal, latest, by rw [hstep, hcall]; rfl, hnone hno, h⟩
  · obtain ⟨latest', hspec, hrep⟩ := hitem inst hk hd
    exact ⟨_, _, latest', by rw [hstep, hcall]; rfl, hspec, hrep⟩

theorem step_refines (hareas : DisjointAreas configs) (h : Rep p configs s latest)
    {op : DataOp F} (hop : DataCall configs op) (hreset : ResetClear configs op) :
    ∃ s' out latest', s.step p op = some (s', out) ∧ DataSpec p configs latest op out latest' ∧
      Rep p configs s' latest' := by
  have hown : ∀ {k : Nat} {inst : SafetyDataInstance F}, s.data[k]? = some inst →
      Disjoint inst.config.dataArea inst.config.copyArea :=
    fun hk => hareas.own _ (List.mem_of_getElem? (h.config_of hk))
  cases op with
  | init | deInit => exact hop.elim
  | outside address byte =>
    refine ⟨_, _, latest, rfl, .outside, h.initialized, h.configs_eq, h.started, ?_⟩
    intro k inst hk hd
    refine (h.holds k inst hk hd).congr hd fun x hx => Mem.store_single_of_ne ?_
    rintro rfl
    exact hop _ (List.mem_of_getElem? (h.config_of hk)) hx
  | write k value =>
    refine h.step_of_item rfl (fun hno => .unwritten fun c hc hd => absurd (hno c hc) hd) ?_
    intro inst hk hd
    have hframed := inst.write_framed p s.mem value
    cases hv : inst.config.validateValueRange p value with
    | true =>
      obtain ⟨hanswer, hholds⟩ := SafetyDataInstance.write_holds hd (hown hk) s.mem hv
      rw [hanswer]
      exact ⟨_, .written (h.config_of hk) hd hv, h.leaves hk hframed hholds
        fun j d hj hdj => hareas.of_ne (Ne.symm hj) (h.config_of hk) hdj⟩
    | false =>
      have hholds := h.holds k inst hk hd
      rw [SafetyDataInstance.write_out_of_range hd s.mem hv] at hframed ⊢
      refine ⟨latest, .unwritten fun c hc _ => ?_, h.same hareas hk hframed ?_⟩
      · cases (h.config_of hk).symm.trans hc
        exact hv
      · exact ⟨hholds.data, hholds.crc, hholds.copy⟩
  | read k =>
    refine h.step_of_item rfl .unread fun inst hk hd => ?_
    have hholds := h.holds k inst hk hd
    rw [SafetyDataInstance.read_of_holds hholds hd]
    exact ⟨latest, .read (h.config_of hk) hd, h.same hareas hk ⟨rfl, rfl, fun _ _ => rfl⟩ hholds⟩
  | verify k =>
    refine h.step_of_item rfl .unverified fun inst hk hd => ?_
    have hholds := h.holds k inst hk hd
    rw [SafetyDataInstance.verify_of_holds hholds hd]
    exact ⟨latest, .verified (h.config_of hk) hd,
      h.same hareas hk ⟨rfl, rfl, fun _ _ => rfl⟩ hholds⟩
  | reset k =>
    refine h.step_of_item rfl .unreset fun inst hk hd => ?_
    have hholds := SafetyDataInstance.reset_holds hd (hown hk) (h.holds k inst hk hd)
    refine ⟨_, .reset (h.config_of hk) hd,
      h.leaves hk (inst.reset_framed p s.mem) hholds fun j d hj hdj => ?_⟩
    -- the areas are apart, and the default stays clear of the other items
    exact Set.disjoint_union_left.mpr ⟨hareas.of_ne (Ne.symm hj) (h.config_of hk) hdj,
      hreset j _ d hj (h.config_of hk) hdj⟩
  | backup k =>
    refine h.step_of_item rfl (fun _ => .backup) fun inst hk hd => ?_
    exact ⟨latest, .backup, h.same hareas hk
      ((inst.backup_framed s.mem).mono Set.subset_union_right)
      (SafetyDataInstance.backup_holds hd (hown hk) (h.holds k inst hk hd))⟩
  | restore k =>
    refine h.step_of_item rfl (fun _ => .restore) fun inst hk hd => ?_
    exact ⟨latest, .restore, h.same hareas hk
      ((inst.restore_framed p s.mem hd).mono Set.subset_union_left)
      (SafetyDataInstance.restore_holds hd (hown hk) (h.holds k inst hk hd))⟩

/-- **The table after `Safety_Data_Init`**: every item holds its default, laid over what
was there. -/
theorem init_rep {s₀ : SafetyData F} (hinit : s₀.init p configs = (s, true))
    (hareas : DisjointAreas configs) (hclear : InitClear configs) :
    Rep p configs s (valuesIn configs s.mem) ∧ ∀ k c, configs[k]? = some c → c.dataPtr ≠ 0 →
      ∃ old : List UInt8, old.length = c.dataSize ∧
        valuesIn configs s.mem k = Mem.overlay (c.defaultBytes p) old := by
  rw [SafetyData.init] at hinit
  split at hinit
  case isTrue => cases hinit
  case isFalse =>
    obtain ⟨hconfigs, hall, -⟩ := initAll_started p hareas hclear s₀.mem
    cases hinit
    have hvalue : ∀ (k : Nat) (c : SafetyDataConfig F), configs[k]? = some c →
        valuesIn configs (SafetyData.initAll p configs s₀.mem).2 k =
          (SafetyData.initAll p configs s₀.mem).2.load c.dataPtr c.dataSize := by
      intro k c hc
      rw [valuesIn, hc]
    refine ⟨⟨rfl, hconfigs, fun inst hinst => (hall inst hinst).initialized, ?_⟩, ?_⟩
    · intro k inst hk hd
      obtain ⟨old, -, hholds⟩ := (hall inst (List.mem_of_getElem? hk)).holds hd
      have hc : configs[k]? = some inst.config := by
        rw [← hconfigs, List.getElem?_map, hk]
        rfl
      rw [hvalue k _ hc, hholds.data]
      exact hholds
    · intro k c hc hd
      rw [hvalue k c hc]
      rw [← hconfigs, List.getElem?_map] at hc
      obtain ⟨inst, hk, rfl⟩ := Option.map_eq_some_iff.mp hc
      obtain ⟨old, hold, hholds⟩ := (hall inst (List.mem_of_getElem? hk)).holds hd
      exact ⟨old, hold, hholds.data⟩

/-- **Reads return the latest value.** After `Safety_Data_Init` with disjoint areas, every run is a
behaviour of the table of values, which starts with the defaults, provided that no default is stored
past the end of its item into another one: at the start into one that had its turn, at a reset into
any. -/
theorem reads_return_latest {s₀ : SafetyData F} (hinit : s₀.init p configs = (s, true))
    (hareas : DisjointAreas configs) (hclear : InitClear configs) (calls : List (DataOp F))
    (hcalls : ∀ op ∈ calls, DataCall configs op) (hreset : ∀ op ∈ calls, ResetClear configs op) :
    (∀ k c, configs[k]? = some c → c.dataPtr ≠ 0 → ∃ old : List UInt8,
      old.length = c.dataSize ∧
        valuesIn configs s.mem k = Mem.overlay (c.defaultBytes p) old) ∧
    ∃ t outs last, run (SafetyData.step p) s calls = some (t, outs) ∧
      Trace (DataSpec p configs) (valuesIn configs s.mem) calls outs last := by
  obtain ⟨hrep, hdefault⟩ := init_rep hinit hareas hclear
  have hstep : ∀ s a op, Rep p configs s a → DataCall configs op ∧ ResetClear configs op →
      ∃ s' out a', s.step p op = some (s', out) ∧ DataSpec p configs a op out a' ∧
        Rep p configs s' a' :=
    fun s a op h hok => step_refines hareas h hok.1 hok.2
  obtain ⟨t, outs, last, hrun, htrace, -⟩ := run_traces (Rep p configs) hstep calls hrep
    (along_of_forall fun op hop => ⟨hcalls op hop, hreset op hop⟩)
  exact ⟨hdefault, t, outs, last, hrun, htrace⟩

end

/-- A platform whose only float is 0.0, with the CRC unit initialised. -/
def zeroPlatform : Platform Unit where
  ofBytes _ _ := ()
  toBytes type _ := List.replicate type.size 0
  length_toBytes _ _ := List.length_replicate
  le _ _ := true
  crc := CrcState.start.crcInit

/-- The unit before `Safety_Data_Init`, in an empty memory. -/
def uninitialized : SafetyData Unit := ⟨[], false, fun _ => 0⟩

/-- An `int32_t` with a plain copy and a `bool` with an inverted one. -/
def twoItems : List (SafetyDataConfig Unit) :=
  [⟨100, 200, 4, .int32, .redundant, (), (), ()⟩, ⟨104, 204, 1, .bool, .inverse, (), (), ()⟩]

theorem twoItems_disjoint : DisjointAreas twoItems := by
  constructor <;>
    simp [twoItems, Set.disjoint_left, SafetyDataConfig.dataArea, SafetyDataConfig.copyArea,
      SafetyDataConfig.areas] <;>
    grind

theorem reads_return_latest_twoItems : ∃ t outs last,
    (uninitialized.init zeroPlatform twoItems).2 = true ∧
    run (SafetyData.step zeroPlatform) (uninitialized.init zeroPlatform twoItems).1
      [.write 0 fun _ => 7, .reset 1, .backup 1, .restore 0, .read 0] = some (t, outs) ∧
    Trace (DataSpec zeroPlatform twoItems)
      (valuesIn twoItems (uninitialized.init zeroPlatform twoItems).1.mem)
      [.write 0 fun _ => 7, .reset 1, .backup 1, .restore 0, .read 0] outs last := by
  have hinit : (uninitialized.init zeroPlatform twoItems).2 = true := by decide
  have hfits : ∀ c ∈ twoItems, c.type.size ≤ c.dataSize := by
    simp [twoItems, SafetyDataType.size]
  obtain ⟨-, t, outs, last, hrun, htrace⟩ := reads_return_latest
    (Prod.ext rfl hinit : uninitialized.init zeroPlatform twoItems = (_, true))
    twoItems_disjoint (initClear_of_fits twoItems_disjoint hfits)
    [.write 0 fun _ => 7, .reset 1, .backup 1, .restore 0, .read 0]
    (by simp [DataCall]) (fun op _ => resetClear_of_fits twoItems_disjoint hfits op)
  exact ⟨t, outs, last, hinit, hrun, htrace⟩

/-- An `int32_t` item of one byte, and a `bool` in the next byte. -/
def shortItem : List (SafetyDataConfig Unit) :=
  [⟨100, 0, 1, .int32, .crc, (), (), ()⟩, ⟨101, 0, 1, .bool, .crc, (), (), ()⟩]

/-- **A reset writes over its neighbour.** `Safety_Data_Reset` of the first item stores
four bytes at address 100, and the second item, written before, no longer verifies. -/
theorem reset_breaks_neighbour : DisjointAreas shortItem ∧
    (uninitialized.init zeroPlatform shortItem).2 = true ∧
    (run (SafetyData.step zeroPlatform) (uninitialized.init zeroPlatform shortItem).1
      [.write 1 fun _ => 1, .reset 0, .verify 1, .read 1]).map Prod.snd =
        some [.answer true, .done, .answer false, .value none] := by
  refine ⟨⟨?_, ?_⟩, by decide, by decide +kernel⟩
  · simp [shortItem, Set.disjoint_left, SafetyDataConfig.dataArea, SafetyDataConfig.copyArea]
  · simp [shortItem, Set.disjoint_left, SafetyDataConfig.dataArea, SafetyDataConfig.copyArea,
      SafetyDataConfig.areas]
    omega

end Cant.Safety
