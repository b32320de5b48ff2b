/-
# `Corruption` — a corrupted value is not read

Somebody writes over an item, and `Safety_Data_Verify` rejects what is there now, `v`.
From then on the guard of the item, its CRC or its copy, is not the one of `v`, and a read
that returned `v` would have found the two in agreement. So `v` stays unread as long as
the guard does not become the guard of `v`, and that is the whole invariant
(`Quarantined`).

Two more calls make one, and should not (`corrupted_laundered`):

* `Safety_Data_Backup` copies the value over a plain or inverted copy without looking
  whether the value verifies;
* `Safety_Data_Restore` of an item with a CRC and a redundant area has no copy to restore
  from, and computes the CRC of whatever is there.
-/
import Cant.Safety.SafetyDataValues

namespace Cant.Safety

open Word Run Cant.Utils List

variable {F : Type}

/-! ## What every reachable state has -/

def SafetyData.WellFormed (s : SafetyData F) : Prop :=
  ∀ inst ∈ s.data, inst.initialized = true → inst.config.dataPtr ≠ 0

theorem SafetyDataInstance.init_pointer (p : Platform F) {config : SafetyDataConfig F} {mem : Mem}
    (h : (SafetyDataInstance.init p config mem).1.initialized = true) :
    (SafetyDataInstance.init p config mem).1.config.dataPtr ≠ 0 := by
  rw [SafetyDataInstance.init] at h ⊢
  split at h
  case isTrue => cases h
  case isFalse hd =>
    rw [if_neg hd]
    exact hd

theorem initAll_wellFormed (p : Platform F) (configs : List (SafetyDataConfig F)) (mem : Mem) :
    ∀ inst ∈ (SafetyData.initAll p configs mem).1, inst.initialized = true →
      inst.config.dataPtr ≠ 0 := by
  induction configs generalizing mem with
  | nil => exact nofun
  | cons c configs ih =>
    intro inst hinst
    rcases mem_cons.mp hinst with rfl | hinst
    · exact SafetyDataInstance.init_pointer p
    · exact ih _ inst hinst

def DataOp.item : DataOp F → Option Nat
  | .write k _ | .read k | .verify k | .reset k | .backup k | .restore k => some k
  | .init _ | .deInit | .outside _ _ => none

/-- What a call on item `k` may do to the unit. -/
inductive Moves (s : SafetyData F) (k : Nat) : SafetyData F → Prop
  | refused : Moves s k s
  | item {inst inst' : SafetyDataInstance F} {mem' : Mem} : s.data[k]? = some inst →
      Framed inst.config.stores inst inst' s.mem mem' →
      Moves s k { s with data := s.data.set k inst', mem := mem' }

section

variable {p : Platform F} {s s' : SafetyData F} {k : Nat}

theorem onInstance_moves (hwf : s.WellFormed) {γ : Type} {refusal : γ}
    {f : SafetyDataInstance F → Mem → (SafetyDataInstance F × Mem) × γ}
    (hf : ∀ inst, inst.config.dataPtr ≠ 0 →
      Framed inst.config.stores inst (f inst s.mem).1.1 s.mem (f inst s.mem).1.2) :
    Moves s k (s.onInstance k refusal f).1 := by
  rcases s.onInstance_cases k refusal f with ⟨-, hcall⟩ | ⟨inst, hk, -, hi, hcall⟩
  · rw [hcall]
    exact .refused
  · rw [hcall]
    exact .item hk (hf inst (hwf inst (mem_of_getElem? hk) hi))

theorem step_moves (hwf : s.WellFormed) {op : DataOp F} {out : DataOut} (hop : op.item = some k)
    (hstep : s.step p op = some (s', out)) : Moves s k s' := by
  have hareas : ∀ c : SafetyDataConfig F, c.areas ⊆ c.stores := fun _ => Set.subset_union_left
  cases op with
  | write j value =>
    cases hop
    cases hstep
    exact onInstance_moves hwf fun inst _ => (inst.write_framed p s.mem value).mono (hareas _)
  | read j =>
    cases hop
    cases hstep
    exact onInstance_moves hwf fun inst _ =>
      (inst.read_framed p s.mem).mono (Set.empty_subset _)
  | verify j =>
    cases hop
    cases hstep
    exact onInstance_moves hwf fun inst _ =>
      (inst.verify_framed p s.mem).mono (Set.empty_subset _)
  | reset j =>
    cases hop
    cases hstep
    exact onInstance_moves hwf fun inst _ => inst.reset_framed p s.mem
  | backup j =>
    cases hop
    cases hstep
    exact onInstance_moves hwf fun inst _ =>
      (inst.backup_framed s.mem).mono (Set.subset_union_right.trans (hareas _))
  | restore j =>
    cases hop
    cases hstep
    exact onInstance_moves hwf fun inst hd =>
      (inst.restore_framed p s.mem hd).mono (Set.subset_union_left.trans (hareas _))
  | init configs | deInit | outside address byte => cases hop

theorem Moves.wellFormed (h : Moves s k s') (hwf : s.WellFormed) : s'.WellFormed := by
  cases h with
  | refused => exact hwf
  | item hk hframed =>
    intro inst hinst
    rcases mem_or_eq_of_mem_set hinst with hold | rfl
    · exact hwf inst hold
    · rw [hframed.config, hframed.initialized]
      exact hwf _ (mem_of_getElem? hk)

theorem Moves.configs (h : Moves s k s') : s'.data.map (·.config) = s.data.map (·.config) := by
  cases h with
  | refused => rfl
  | item hk hframed =>
    apply ext_getElem?
    intro j
    rw [map_set, hframed.config, getElem?_set, length_map]
    by_cases hj : k = j
    · subst hj
      rw [if_pos rfl, if_pos (List.getElem?_eq_some_iff.mp hk).1, List.getElem?_map, hk]
      rfl
    · rw [if_neg hj]

theorem step_wellFormed {op : DataOp F} {out : DataOut} (hwf : s.WellFormed)
    (hstep : s.step p op = some (s', out)) : s'.WellFormed := by
  cases hitem : op.item with
  | some k => exact (step_moves hwf hitem hstep).wellFormed hwf
  | none =>
    cases op with
    | init configs =>
      cases hstep
      show (s.init p configs).1.WellFormed
      rw [SafetyData.init]
      split
      · exact hwf
      · exact initAll_wellFormed p configs s.mem
    | deInit =>
      cases hstep
      exact fun _ h => absurd h not_mem_nil
    | outside address byte =>
      cases hstep
      exact hwf
    | _ => cases hitem

end

/-! ## The guard of an item -/

/-- The guard of the item, its CRC or its copy, is not that of `v`. -/
def Guarded (p : Platform F) (v : List UInt8) (inst : SafetyDataInstance F) (mem : Mem) : Prop :=
  inst.config.protection = .crc ∧ inst.crc ≠ p.crc.calculateCrc32 v ∨
    ∃ f, inst.config.protection.copyByte = some f ∧ inst.config.redundantPtr ≠ 0 ∧
      mem.load inst.config.redundantPtr inst.config.dataSize ≠ v.map f

section

variable {p : Platform F} {v : List UInt8} {inst inst' : SafetyDataInstance F} {mem mem' : Mem}

/-- **What a rejection says**: the guard is not that of the value that is there. -/
theorem guarded_of_rejected (hd : inst.config.dataPtr ≠ 0) (h : inst.checks p mem = false) :
    Guarded p (mem.load inst.config.dataPtr inst.config.dataSize) inst mem := by
  by_cases hcrc : inst.config.protection = .crc
  · refine Or.inl ⟨hcrc, fun heq => ?_⟩
    rw [(SafetyDataInstance.checks_of_crc hcrc hd).mpr heq.symm] at h
    cases h
  · by_cases hcopy : ∃ f, inst.config.protection.copyByte = some f ∧ inst.config.redundantPtr ≠ 0
    · obtain ⟨f, hf, hr⟩ := hcopy
      refine Or.inr ⟨f, hf, hr, fun heq => ?_⟩
      rw [(SafetyDataInstance.checks_of_copyByte hf hr).mpr heq] at h
      cases h
    · push Not at hcopy
      rw [SafetyDataInstance.checks_of_neither hcrc hcopy] at h
      cases h

section

variable (h : Guarded p v inst mem)
include h

theorem read_ne_of_guarded : (inst.read p mem).2 ≠ some v := by
  intro hread
  rw [SafetyDataInstance.read] at hread
  split at hread
  case isTrue => cases hread
  case isFalse hd =>
    cases hchecks : inst.checks p mem with
    | false => simp [SafetyDataInstance.verify, hchecks] at hread
    | true =>
      simp [SafetyDataInstance.verify, hchecks] at hread
      rcases h with ⟨hcrc, hne⟩ | ⟨f, hf, hr, hne⟩
      · rw [SafetyDataInstance.checks_of_crc hcrc hd, hread] at hchecks
        exact hne hchecks.symm
      · rw [SafetyDataInstance.checks_of_copyByte hf hr, hread] at hchecks
        exact hne hchecks

theorem Guarded.congr (hconfig : inst'.config = inst.config)
    (hcrc : inst'.crc = inst.crc) (hmem : ∀ x ∈ inst.config.copyArea, mem' x = mem x) :
    Guarded p v inst' mem' := by
  rcases h with ⟨hp, hne⟩ | ⟨f, hf, hr, hne⟩
  · exact Or.inl ⟨by rw [hconfig]; exact hp, by rw [hcrc]; exact hne⟩
  · refine Or.inr ⟨f, by rw [hconfig]; exact hf, by rw [hconfig]; exact hr, ?_⟩
    rw [hconfig, SafetyDataConfig.load_copy_congr hr hmem]
    exact hne

theorem Guarded.write {value : Mem} (hrefused : (inst.write p value mem).2 = false) :
    Guarded p v (inst.write p value mem).1.1 (inst.write p value mem).1.2 := by
  rw [SafetyDataInstance.write] at hrefused ⊢
  split at hrefused
  case isTrue hd =>
    rw [if_pos hd]
    exact h
  case isFalse hd =>
    split at hrefused
    case isTrue hv =>
      rw [if_neg hd, if_pos hv]
      exact h.congr rfl rfl fun _ _ => rfl
    case isFalse => cases hrefused

theorem Guarded.verify : Guarded p v (inst.verify p mem).1.1 (inst.verify p mem).1.2 := by
  rw [SafetyDataInstance.verify]
  split
  · exact h.congr rfl rfl fun _ _ => rfl
  · exact h

theorem Guarded.read : Guarded p v (inst.read p mem).1.1 (inst.read p mem).1.2 := by
  rw [SafetyDataInstance.read]
  split
  case isTrue => exact h
  case isFalse =>
    dsimp only
    split <;> exact h.verify

theorem Guarded.backup (hd : inst.config.dataPtr ≠ 0)
    (hown : Disjoint inst.config.dataArea inst.config.copyArea)
    (hclean : inst.config.protection ≠ .crc →
      mem.load inst.config.dataPtr inst.config.dataSize ≠ v) :
    Guarded p v (inst.backup mem).1.1 (inst.backup mem).1.2 := by
  rw [SafetyDataInstance.backup]
  split
  case isTrue => exact h
  case isFalse hr =>
    rcases h with ⟨hp, hne⟩ | ⟨f, hf, -, -⟩
    · exact Or.inl ⟨hp, hne⟩
    · refine Or.inr ⟨f, hf, hr, ?_⟩
      rw [SafetyDataConfig.load_updateRedundantCopy hown hd hr hf]
      intro heq
      have hvalue := congrArg (List.map f) heq
      rw [ProtectionMethod.copyByte_involutive hf, ProtectionMethod.copyByte_involutive hf]
        at hvalue
      refine hclean (fun hcrc => ?_) hvalue
      rw [hcrc] at hf
      cases hf

theorem Guarded.restore (hd : inst.config.dataPtr ≠ 0)
    (hown : Disjoint inst.config.dataArea inst.config.copyArea)
    (hclean : inst.config.protection = .crc → inst.config.redundantPtr = 0) :
    Guarded p v (inst.restore p mem).1.1 (inst.restore p mem).1.2 := by
  rw [SafetyDataInstance.restore]
  split
  case isTrue => exact h
  case isFalse hr =>
    rcases h with ⟨hp, -⟩ | ⟨f, hf, -, hne⟩
    · exact absurd (hclean hp) hr
    · refine Or.inr ⟨f, hf, hr, ?_⟩
      rw [(SafetyDataConfig.load_restored hown hd hr hf).2]
      exact hne

end

end

/-- Nobody changes the copy from outside, and item `k` is not overwritten. -/
def Untouched (p : Platform F) (k : Nat) (c : SafetyDataConfig F) (s : SafetyData F) :
    DataOp F → Prop
  | .write j value => j = k → (s.write p j value).2 = false
  | .reset j => j ≠ k
  | .outside address _ => address ∉ c.copyArea
  | _ => True

/-- No call makes a guard of `v`: no backup of a plain or inverted copy while the main
data hold `v`, no restore of a CRC item with a redundant area, and no new
initialisation. -/
def Unlaundered (k : Nat) (c : SafetyDataConfig F) (v : List UInt8) (s : SafetyData F) :
    DataOp F → Prop
  | .backup j => j = k → c.protection ≠ .crc → s.mem.load c.dataPtr c.dataSize ≠ v
  | .restore j => j = k → c.protection = .crc → c.redundantPtr = 0
  | .init _ => False
  | _ => True

/-- **The invariant.** As long as item `k` can be reached at all, it is guarded against
`v`, and the other items stay out of its copy. -/
structure Quarantined (p : Platform F) (k : Nat) (c : SafetyDataConfig F) (v : List UInt8)
    (s : SafetyData F) : Prop where
  wellFormed : s.WellFormed
  config : ∀ d, (s.data.map (·.config))[k]? = some d → d = c
  others : ∀ j d, j ≠ k → (s.data.map (·.config))[j]? = some d → Disjoint d.stores c.copyArea
  guarded : ∀ inst, s.data[k]? = some inst → s.initialized = true → inst.initialized = true →
    Guarded p v inst s.mem

section

variable {p : Platform F} {k : Nat} {c : SafetyDataConfig F} {v : List UInt8} {s s' : SafetyData F}

section

variable (h : Quarantined p k c v s)
include h

theorem Quarantined.config_eq {inst : SafetyDataInstance F}
    (hk : s.data[k]? = some inst) : inst.config = c :=
  h.config _ (by rw [List.getElem?_map, hk]; rfl)

theorem Quarantined.moves {j : Nat} (hmoves : Moves s j s')
    (hguarded : ∀ inst, s'.data[k]? = some inst → s'.initialized = true →
      inst.initialized = true → Guarded p v inst s'.mem) : Quarantined p k c v s' := by
  refine ⟨hmoves.wellFormed h.wellFormed, ?_, ?_, hguarded⟩
  · rw [hmoves.configs]
    exact h.config
  · rw [hmoves.configs]
    exact h.others

theorem Quarantined.moves_other {j : Nat} (hj : j ≠ k)
    (hmoves : Moves s j s') : Quarantined p k c v s' := by
  refine h.moves hmoves ?_
  cases hmoves with
  | refused => exact h.guarded
  | item hk hframed =>
    intro i hi hs hi'
    rw [getElem?_set_ne hj] at hi
    refine (h.guarded i hi hs hi').congr rfl rfl fun x hx => hframed.frame x fun hin => ?_
    rw [h.config_eq hi] at hx
    refine Set.disjoint_left.mp (h.others j _ hj ?_) hin hx
    rw [List.getElem?_map, hk]
    rfl

variable {op : DataOp F}

theorem Quarantined.onInstance {o : DataOut} {γ : Type} {refusal : γ}
    {f : SafetyDataInstance F → Mem → (SafetyDataInstance F × Mem) × γ} {out : γ → DataOut}
    (hcall : s.step p op = some ((s.onInstance k refusal f).map id out))
    (hstep : s.step p op = some (s', o)) (hmoves : Moves s k s')
    (hguard : ∀ inst, inst.config = c → inst.config.dataPtr ≠ 0 →
      (s.onInstance k refusal f).2 = (f inst s.mem).2 → Guarded p v inst s.mem →
      Guarded p v (f inst s.mem).1.1 (f inst s.mem).1.2) : Quarantined p k c v s' := by
  refine h.moves hmoves ?_
  obtain rfl : (s.onInstance k refusal f).1 = s' :=
    congrArg Prod.fst (Option.mem_unique hcall hstep)
  rcases s.onInstance_cases k refusal f with ⟨-, hcall⟩ | ⟨inst, hk, hs, hi, hcall⟩
  · rw [hcall]
    exact h.guarded
  · intro inst' hk' _ _
    have hanswer := congrArg Prod.snd hcall
    rw [hcall] at hk' ⊢
    cases (List.getElem?_set_self (List.getElem?_eq_some_iff.mp hk).1).symm.trans hk'
    exact hguard inst (h.config_eq hk) (h.wellFormed inst (mem_of_getElem? hk) hi) hanswer
      (h.guarded inst hk hs hi)

theorem Quarantined.read_ne : (s.read p k).2 ≠ some v := by
  rw [SafetyData.read]
  rcases s.onInstance_cases k none (SafetyDataInstance.read p) with
    ⟨-, hcall⟩ | ⟨inst, hk, hs, hi, hcall⟩
  · rw [hcall]
    exact Option.some_ne_none v |>.symm
  · rw [hcall]
    exact read_ne_of_guarded (h.guarded inst hk hs hi)

theorem Quarantined.step_self (hown : Disjoint c.dataArea c.copyArea)
    {out : DataOut} (hitem : op.item = some k) (hop : Untouched p k c s op)
    (hclean : Unlaundered k c v s op) (hstep : s.step p op = some (s', out)) :
    Quarantined p k c v s' := by
  have hmoves := step_moves h.wellFormed hitem hstep
  cases op with
  | write j value =>
    cases hitem
    refine h.onInstance rfl hstep hmoves fun inst _ _ hanswer hguard => hguard.write ?_
    exact hanswer.symm.trans (hop rfl)
  | read j =>
    cases hitem
    exact h.onInstance rfl hstep hmoves fun inst _ _ _ hguard => hguard.read
  | verify j =>
    cases hitem
    exact h.onInstance rfl hstep hmoves fun inst _ _ _ hguard => hguard.verify
  | reset j =>
    cases hitem
    exact absurd rfl hop
  | backup j =>
    cases hitem
    refine h.onInstance rfl hstep hmoves fun inst hc hd _ hguard => ?_
    subst hc
    exact hguard.backup hd hown (hclean rfl)
  | restore j =>
    cases hitem
    refine h.onInstance rfl hstep hmoves fun inst hc hd _ hguard => ?_
    subst hc
    exact hguard.restore hd hown (hclean rfl)
  | init configs | deInit | outside address byte => cases hitem

theorem Quarantined.step_none {out : DataOut} (hitem : op.item = none)
    (hop : Untouched p k c s op) (hclean : Unlaundered k c v s op)
    (hstep : s.step p op = some (s', out)) : Quarantined p k c v s' := by
  have hwf := step_wellFormed h.wellFormed hstep
  cases op with
  | init configs => exact hclean.elim
  | deInit =>
    cases hstep
    refine ⟨hwf, ?_, ?_, ?_⟩
    · intro _ hd
      cases hd
    · intro _ _ _ hd
      cases hd
    · intro _ hk
      cases hk
  | outside address byte =>
    cases hstep
    refine ⟨hwf, h.config, h.others, fun inst hk hs hi => ?_⟩
    refine (h.guarded inst hk hs hi).congr rfl rfl fun x hx => Mem.store_single_of_ne ?_
    rintro rfl
    rw [h.config_eq hk] at hx
    exact hop hx
  | _ => cases hitem

theorem Quarantined.step (hown : Disjoint c.dataArea c.copyArea)
    (hop : Untouched p k c s op) (hclean : Unlaundered k c v s op) :
    ∃ s' out, s.step p op = some (s', out) ∧
      (op = .read k → out ≠ .value (some v)) ∧ Quarantined p k c v s' := by
  obtain ⟨⟨s', out⟩, hstep⟩ : ∃ r, s.step p op = some r := by
    cases op <;> exact ⟨_, rfl⟩
  refine ⟨s', out, hstep, ?_, ?_⟩
  · rintro rfl rfl
    exact h.read_ne (DataOut.value.inj (congrArg Prod.snd (Option.some.inj hstep)))
  · cases hitem : op.item with
    | none => exact h.step_none hitem hop hclean hstep
    | some j =>
      by_cases hj : j = k
      · exact h.step_self hown (hj ▸ hitem) hop hclean hstep
      · exact h.moves_other hj (step_moves h.wellFormed hitem hstep)

end

theorem checks_of_verify {inst : SafetyDataInstance F} (hk : s.data[k]? = some inst)
    (hs : s.initialized = true) (hi : inst.initialized = true)
    (hreject : (s.verify p k).2 = false) : inst.checks p s.mem = false := by
  rw [SafetyData.verify] at hreject
  rcases s.onInstance_cases k false (SafetyDataInstance.verify p) with
    ⟨hno, -⟩ | ⟨inst', hk', -, -, hcall⟩
  · exact absurd ⟨hs, hi⟩ (hno inst hk)
  · cases hk.symm.trans hk'
    rw [hcall] at hreject
    cases hchecks : inst.checks p s.mem with
    | false => rfl
    | true => simp [SafetyDataInstance.verify, hchecks] at hreject

/-- **A corrupted value is not read.** Let `Safety_Data_Verify` reject item `k`, whose areas are
disjoint and whose copy the others stay out of, with its main data `v`. In every continuation that
leaves the item `Untouched` and `Unlaundered`, no read returns `v`. -/
theorem corrupted_never_read {mem : Mem} {history : List (DataOp F)} {past : List DataOut}
    (hreach : run (SafetyData.step p) ⟨[], false, mem⟩ history = some (s, past))
    {inst : SafetyDataInstance F} (hk : s.data[k]? = some inst)
    (hown : Disjoint inst.config.dataArea inst.config.copyArea)
    (hothers : ∀ j other, j ≠ k → s.data[j]? = some other →
      Disjoint other.config.stores inst.config.copyArea)
    (hreject : (s.verify p k).2 = false) (calls : List (DataOp F))
    (hcalls : Along (SafetyData.step p) (fun s op => Untouched p k inst.config s op) s calls)
    (hclean : Along (SafetyData.step p) (Unlaundered k inst.config
      (s.mem.load inst.config.dataPtr inst.config.dataSize)) s calls) :
    ∃ t outs, run (SafetyData.step p) s calls = some (t, outs) ∧
      List.Forall₂ (fun op out => op = .read k →
        out ≠ .value (some (s.mem.load inst.config.dataPtr inst.config.dataSize))) calls outs := by
  have hwf : s.WellFormed := run_inv SafetyData.WellFormed
    (fun _ _ _ _ hwf hstep => step_wellFormed hwf hstep)
    (fun _ h => absurd h not_mem_nil) hreach
  have hquarantined : Quarantined p k inst.config
      (s.mem.load inst.config.dataPtr inst.config.dataSize) s := by
    refine ⟨hwf, fun d hd => ?_, fun j d hj hd => ?_, fun inst' hk' hs hi => ?_⟩
    · rw [List.getElem?_map, hk] at hd
      exact (Option.some.inj hd).symm
    · rw [List.getElem?_map] at hd
      obtain ⟨other, hother, rfl⟩ := Option.map_eq_some_iff.mp hd
      exact hothers j other hj hother
    · cases hk.symm.trans hk'
      refine guarded_of_rejected (hwf inst (mem_of_getElem? hk) hi) ?_
      exact checks_of_verify hk hs hi hreject
  exact run_outputs _ (fun s op h hok => h.step hown hok.1 hok.2) calls hquarantined
    (along_and hcalls hclean)

end

instance (c : SafetyDataConfig F) (x : Nat) : Decidable (x ∈ c.copyArea) :=
  inferInstanceAs (Decidable (_ ∧ _ ∧ _))

instance (p : Platform F) (k : Nat) (c : SafetyDataConfig F) (s : SafetyData F) (op : DataOp F) :
    Decidable (Untouched p k c s op) := by
  cases op <;> unfold Untouched <;> infer_instance

instance (k : Nat) (c : SafetyDataConfig F) (v : List UInt8) (s : SafetyData F) (op : DataOp F) :
    Decidable (Unlaundered k c v s op) := by
  cases op <;> unfold Unlaundered <;> infer_instance

/-- A `bool` at address 100 with a redundant area at 200. -/
def flag (protection : ProtectionMethod) : SafetyDataConfig Unit :=
  ⟨100, 200, 1, .bool, protection, (), (), ()⟩

theorem corrupted_never_read_restored : ∃ s past t outs,
    run (SafetyData.step zeroPlatform) uninitialized [.init [flag .redundant], .outside 100 7] =
      some (s, past) ∧
    s.mem.load 100 1 = [7] ∧ (s.verify zeroPlatform 0).2 = false ∧
    run (SafetyData.step zeroPlatform) s [.read 0, .restore 0, .backup 0, .read 0] =
      some (t, outs) ∧
    List.Forall₂ (fun (op : DataOp Unit) out => op = .read 0 → out ≠ .value (some [7]))
      [.read 0, .restore 0, .backup 0, .read 0] outs := by
  have hreach : run (SafetyData.step zeroPlatform) uninitialized
    [.init [flag .redundant], .outside 100 7] = some _ := rfl
  have hown : Disjoint (flag .redundant).dataArea (flag .redundant).copyArea :=
    Set.disjoint_left.mpr fun x h h' => absurd h.2.2 (Nat.not_lt.mpr (Nat.le_trans
      (by decide) h'.2.1))
  obtain ⟨t, outs, hrun, houts⟩ := corrupted_never_read hreach (k := 0) rfl hown (by
      rintro (_ | j) other hj hother
      · exact absurd rfl hj
      · cases hother) rfl [.read 0, .restore 0, .backup 0, .read 0] (by decide +kernel)
    (by decide +kernel)
  exact ⟨_, _, t, outs, hreach, rfl, rfl, hrun, houts⟩

/-- **A backup and a restore launder.** The byte 7 is written over a plain copy's item, and
over a CRC item. A verification rejects it, a backup copies it over the copy, a restore
computes its CRC, and the next read returns it. -/
theorem corrupted_laundered :
    (run (SafetyData.step zeroPlatform) uninitialized
      [.init [flag .redundant], .outside 100 7, .verify 0, .backup 0, .read 0]).map Prod.snd =
        some [.answer true, .done, .answer false, .answer true, .value (some [7])] ∧
    (run (SafetyData.step zeroPlatform) uninitialized
      [.init [flag .crc], .outside 100 7, .verify 0, .restore 0, .read 0]).map Prod.snd =
        some [.answer true, .done, .answer false, .answer true, .value (some [7])] := by
  decide +kernel

end Cant.Safety
