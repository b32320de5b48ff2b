/-
# `MemoryTest` — the march test (`memory_test.c`)

The memory of a region is a function from word numbers to words, and the loops go over the
numbers below `size / 4`. How a store changes the memory is a parameter, so that the
test can be run on a memory with a fault.

All four loops go upwards. A coupling fault shows only if the victim is forced to
what it should not be between two visits of the loops: half of the faults are masked
(`marchCTest_fails_iff`).
-/
import Cant.Lib.Coupling

namespace Cant.Safety

open Cant.Coupling Function

inductive MemoryTestResult where
  | ok | failedWrite | failedRead | failedPattern | failedAddress | failedCrc | failedTimeout
  deriving DecidableEq

inductive MemoryRegionType where
  | ram | rom | flash | eeprom
  deriving DecidableEq

/-- `MemoryRegionConfig`, without the flags, which no test reads. -/
structure MemoryRegionConfig where
  startAddress : UInt32
  size : UInt32
  type : MemoryRegionType

abbrev Words := Nat → BitVec 32

variable {r : MemoryTestResult × Words} {rest : Words → MemoryTestResult × Words}
  {expected : BitVec 32}

def ifOk (r : MemoryTestResult × Words) (rest : Words → MemoryTestResult × Words) :
    MemoryTestResult × Words :=
  match r with
  | (.ok, mem) => rest mem
  | failed => failed

/-- A loop over `count` words from `p` on, left at the first failure. -/
def forWords (body : Nat → Words → MemoryTestResult × Words) :
    (count p : Nat) → Words → MemoryTestResult × Words
  | 0, _, mem => (.ok, mem)
  | count + 1, p, mem => ifOk (body p mem) (forWords body count (p + 1))

/-- `if (*ptr != expected) return MEM_TEST_FAILED_READ`. -/
def checkWord (expected : BitVec 32) (p : Nat) (mem : Words) : MemoryTestResult × Words :=
  if mem p ≠ expected then (.failedRead, mem) else (.ok, mem)

section

variable (write : Words → Nat → BitVec 32 → Words)

/-- `*ptr = value; if (*ptr != value) return MEM_TEST_FAILED_WRITE`. -/
def writeWord (value : BitVec 32) (p : Nat) (mem : Words) : MemoryTestResult × Words :=
  let mem := write mem p value
  if mem p ≠ value then (.failedWrite, mem) else (.ok, mem)

def toggleWord (expected value : BitVec 32) (p : Nat) (mem : Words) : MemoryTestResult × Words :=
  ifOk (checkWord expected p mem) (writeWord write value p)

def marchCTest (region : MemoryRegionConfig) (mem : Words) : MemoryTestResult × Words :=
  let count := region.size.toNat / 4
  ifOk (forWords (writeWord write 0) count 0 mem) fun mem =>
    ifOk (forWords (toggleWord write 0 0xFFFFFFFF) count 0 mem) fun mem =>
      ifOk (forWords (toggleWord write 0xFFFFFFFF 0) count 0 mem) fun mem =>
        forWords (checkWord 0) count 0 mem

end

/-! ## Loops -/

theorem ifOk_eq_ok : (ifOk r rest).1 = .ok ↔ r.1 = .ok ∧ (rest r.2).1 = .ok := by
  obtain ⟨result, mem⟩ := r
  cases result <;> simp [ifOk]

theorem ifOk_of_ok
    (h : r.1 = .ok) : ifOk r rest = rest r.2 := by
  obtain ⟨result, mem⟩ := r
  cases h
  rfl

section

variable {body : Nat → Words → MemoryTestResult × Words} {n : Nat} {mem : Words}

theorem forWords_inv (I : Nat → Words → Prop)
    (hbody : ∀ p mem, p < n → I p mem → (body p mem).1 = .ok → I (p + 1) (body p mem).2) :
    ∀ (count p : Nat) {mem : Words}, p + count = n → I p mem →
      (forWords body count p mem).1 = .ok → I n (forWords body count p mem).2
  | 0, p, mem, hcount, hI, _ => by
    obtain rfl : p = n := hcount
    exact hI
  | count + 1, p, mem, hcount, hI, hok => by
    obtain ⟨hfirst, hrest⟩ := ifOk_eq_ok.mp hok
    rw [forWords, ifOk_of_ok hfirst]
    exact forWords_inv I hbody count (p + 1) (by omega) (hbody p mem (by omega) hI hfirst) hrest

theorem forWords_ok (I : Nat → Words → Prop)
    (hbody : ∀ p mem, p < n → I p mem → (body p mem).1 = .ok ∧ I (p + 1) (body p mem).2) :
    ∀ (count p : Nat) {mem : Words}, p + count = n → I p mem →
      (forWords body count p mem).1 = .ok ∧ I n (forWords body count p mem).2
  | 0, p, mem, hcount, hI => by
    obtain rfl : p = n := hcount
    exact ⟨rfl, hI⟩
  | count + 1, p, mem, hcount, hI => by
    obtain ⟨hfirst, hnext⟩ := hbody p mem (by omega) hI
    rw [forWords, ifOk_of_ok hfirst]
    exact forWords_ok I hbody count (p + 1) (by omega) hnext

end

variable {mem : Words} {region : MemoryRegionConfig} {f : Fault Nat 32}

theorem checkWord_ok {p : Nat} : (checkWord expected p mem).1 = .ok ↔ mem p = expected := by
  unfold checkWord
  split <;> simp_all

theorem checkWord_snd {p : Nat} : (checkWord expected p mem).2 = mem := by
  unfold checkWord
  split <;> rfl

/-! ## The loops on a memory with a fault -/

section

variable {f : Fault Nat 32} {n : Nat} {mem : Words}

def solid (b : Bool) : BitVec 32 := if b then 0xFFFFFFFF else 0

theorem getLsbD_solid (b : Bool) (i : Fin 32) : (solid b).getLsbD i = b := by
  cases b with
  | false => exact BitVec.getLsbD_zero
  | true =>
    have hones : solid true = BitVec.allOnes 32 := rfl
    rw [hones, BitVec.getLsbD_allOnes]
    exact decide_eq_true i.isLt

theorem writeWord_fault (value : BitVec 32) (p : Nat) :
    writeWord f.write value p mem = (.ok, f.write mem p value) :=
  if_neg (not_not.mpr f.write_self)

variable {value : BitVec 32} {b : Bool} {p : Nat}

theorem toggleWord_fault {expected : BitVec 32} (h : mem p = expected) :
    toggleWord f.write expected value p mem = (.ok, f.write mem p value) := by
  rw [toggleWord, ifOk_of_ok (checkWord_ok.mpr h), checkWord_snd, writeWord_fault]

theorem toggleWord_fault_ok {expected : BitVec 32} :
    (toggleWord f.write expected value p mem).1 = .ok ↔ mem p = expected := by
  rw [toggleWord, ifOk_eq_ok, checkWord_ok, writeWord_fault]
  exact and_iff_left rfl

/-- Where the fault is not triggered or the victim has the forced value, a write changes the
region as it should. -/
theorem write_in_region {q : Nat} (hq : q < n) (hmasked : f.Triggers mem p value → f.victim < n →
      (mem f.victim).getLsbD f.victimBit = f.forced) :
    f.write mem p value q = update mem p value q := by
  by_cases htriggers : f.Triggers mem p value
  · by_cases hvictim : f.victim < n
    · rw [f.write_masked (hmasked htriggers hvictim)]
    · have hne : q ≠ f.victim := fun h => hvictim (h ▸ hq)
      rcases eq_or_ne q p with rfl | hp
      · rw [f.write_self, update_self]
      · rw [f.write_other hp hne, update_of_ne hp]
  · rw [Fault.write, if_neg htriggers]

def Masked (f : Fault Nat 32) (n : Nat) : Prop :=
  f.aggressor < n → f.victim < n → (f.forced = f.rises ↔ f.victim < f.aggressor)

theorem clear_masked (h : Masked f n) (mem : Words) :
    (forWords (writeWord f.write 0) n 0 mem).1 = .ok ∧
      ∀ q < n, (forWords (writeWord f.write 0) n 0 mem).2 q = 0 := by
  refine forWords_ok (fun p mem => ∀ q < p, mem q = 0) ?_ n 0 (Nat.zero_add n)
    fun q hq => absurd hq (Nat.not_lt_zero q)
  intro p mem hp hclear
  rw [writeWord_fault]
  refine ⟨rfl, fun q hq => ?_⟩
  rcases Nat.lt_succ_iff_lt_or_eq.mp hq with hlt | rfl
  · have hwrite : f.write mem p 0 q = update mem p 0 q := by
      refine write_in_region hlt fun htriggers hvictim => ?_
      -- the bit has fallen, and the victim below was cleared before
      have hrises : f.rises = false := by
        rw [← htriggers.2.2]
        exact BitVec.getLsbD_zero
      have hforced : f.forced = f.rises :=
        (h (htriggers.1 ▸ hp) (Nat.lt_trans hvictim hp)).mpr (htriggers.1 ▸ hvictim)
      rw [hclear f.victim hvictim, hforced, hrises]
      exact BitVec.getLsbD_zero
    show f.write mem p 0 q = 0
    rw [hwrite, update_of_ne (Nat.ne_of_lt hlt)]
    exact hclear q hlt
  · exact f.write_self

theorem toggle_masked (h : Masked f n) (b : Bool) (hmem : ∀ q < n, mem q = solid (!b)) :
    (forWords (toggleWord f.write (solid !b) (solid b)) n 0 mem).1 = .ok ∧
      ∀ q < n, (forWords (toggleWord f.write (solid !b) (solid b)) n 0 mem).2 q = solid b := by
  have hloop : (forWords (toggleWord f.write (solid !b) (solid b)) n 0 mem).1 = .ok ∧
      ∀ q < n, (forWords (toggleWord f.write (solid !b) (solid b)) n 0 mem).2 q =
        if q < n then solid b else solid !b := by
    refine forWords_ok (fun p mem => ∀ q < n, mem q = if q < p then solid b else solid !b) ?_ n 0
      (Nat.zero_add n) hmem
    intro p mem hp hmem
    have hread : mem p = solid !b := by
      rw [hmem p hp, if_neg (Nat.lt_irrefl p)]
    rw [toggleWord_fault hread]
    refine ⟨rfl, fun q hq => ?_⟩
    have hwrite : f.write mem p (solid b) q = update mem p (solid b) q := by
      refine write_in_region hq fun htriggers hvictim => ?_
      have hrises : f.rises = b := by
        rw [← htriggers.2.2, getLsbD_solid]
      have hforced := h (htriggers.1 ▸ hp) hvictim
      rw [hmem f.victim hvictim, htriggers.1]
      split
      case isTrue hlt =>
        rw [getLsbD_solid, hforced.mpr hlt, hrises]
      case isFalse hge =>
        rw [getLsbD_solid, ← hrises]
        exact (Bool.eq_not.mpr (mt hforced.mp hge)).symm
    show f.write mem p (solid b) q = _
    rw [hwrite]
    rcases eq_or_ne q p with rfl | hne
    · rw [update_self, if_pos (Nat.lt_succ_self q)]
    · rw [update_of_ne hne, hmem q hq]
      exact if_congr (by omega) rfl rfl
  refine ⟨hloop.1, fun q hq => ?_⟩
  rw [hloop.2 q hq, if_pos hq]

theorem check_masked (hmem : ∀ q < n, mem q = value) :
    (forWords (checkWord value) n 0 mem).1 = .ok := by
  refine (forWords_ok (fun _ mem => ∀ q < n, mem q = value) ?_ n 0 (Nat.zero_add n) hmem).1
  intro p mem hp hmem
  rw [checkWord_snd]
  exact ⟨checkWord_ok.mpr (hmem p hp), hmem⟩

theorem triggers_of_read (hrises : f.rises = b) (hread : mem f.aggressor = solid !b) :
    f.Triggers mem f.aggressor (solid b) := by
  rw [Fault.Triggers, hread, getLsbD_solid, getLsbD_solid, hrises]
  exact ⟨rfl, rfl, rfl⟩

theorem toggle_finds (haggressor : f.aggressor < f.victim) (hvictim : f.victim < n)
    (hrises : f.rises = b) (hforced : f.forced = b) :
    (forWords (toggleWord f.write (solid !b) (solid b)) n 0 mem).1 ≠ .ok := by
  intro hok
  have hend := forWords_inv (fun p mem => p ≤ f.victim ∧
    (f.aggressor < p → (mem f.victim).getLsbD f.victimBit = b)) ?_ n 0 (Nat.zero_add n)
    ⟨Nat.zero_le _, fun h => absurd h (Nat.not_lt_zero _)⟩ hok
  · exact Nat.not_le.mpr hvictim hend.1
  · rintro p mem hp ⟨hle, hbit⟩ hok
    have hread := toggleWord_fault_ok.mp hok
    rw [toggleWord_fault hread]
    have hne : p ≠ f.victim := by
      rintro rfl
      have hbit := hbit haggressor
      rw [hread, getLsbD_solid] at hbit
      exact (Bool.not_eq_self _).mp hbit
    refine ⟨by omega, fun hlt => ?_⟩
    rcases Nat.lt_succ_iff_lt_or_eq.mp hlt with hbefore | rfl
    · show (f.write mem p _ f.victim).getLsbD _ = _
      rw [f.write_of_ne (Nat.ne_of_gt hbefore), update_of_ne hne.symm]
      exact hbit hbefore
    · exact (f.write_forced (triggers_of_read hrises hread)).trans hforced

theorem toggle_leaves (haggressor : f.aggressor < n) (hvictim : f.victim < f.aggressor)
    (hrises : f.rises = b)
    (hok : (forWords (toggleWord f.write (solid !b) (solid b)) n 0 mem).1 = .ok) :
    ((forWords (toggleWord f.write (solid !b) (solid b)) n 0 mem).2 f.victim).getLsbD f.victimBit =
      f.forced := by
  refine forWords_inv (fun p mem => f.aggressor < p →
    (mem f.victim).getLsbD f.victimBit = f.forced) ?_ n 0 (Nat.zero_add n)
    (fun h => absurd h (Nat.not_lt_zero _)) hok haggressor
  intro p mem hp hbit hok hlt
  have hread := toggleWord_fault_ok.mp hok
  rw [toggleWord_fault hread]
  rcases Nat.lt_succ_iff_lt_or_eq.mp hlt with hbefore | rfl
  · show (f.write mem p _ f.victim).getLsbD _ = _
    rw [f.write_of_ne (Nat.ne_of_gt hbefore), update_of_ne (by omega)]
    exact hbit hbefore
  · exact f.write_forced (triggers_of_read hrises hread)

theorem next_finds {body : Nat → Words → MemoryTestResult × Words}
    (hread : ∀ p mem, (body p mem).1 = .ok → mem p = solid b)
    (hkeep : ∀ p mem, p ≠ f.aggressor → p ≠ f.victim → (body p mem).1 = .ok →
      (body p mem).2 f.victim = mem f.victim) (hvictim : f.victim < n)
    (hbelow : f.victim < f.aggressor) (hbit : (mem f.victim).getLsbD f.victimBit = !b) :
    (forWords body n 0 mem).1 ≠ .ok := by
  intro hok
  have hend := forWords_inv (fun p mem => p ≤ f.victim ∧
    (mem f.victim).getLsbD f.victimBit = !b) ?_ n 0 (Nat.zero_add n) ⟨Nat.zero_le _, hbit⟩ hok
  · exact Nat.not_le.mpr hvictim hend.1
  · rintro p mem hp ⟨hle, hbit⟩ hok
    have hne : p ≠ f.victim := by
      rintro rfl
      rw [hread _ mem hok, getLsbD_solid] at hbit
      exact (Bool.not_eq_self _).mp hbit.symm
    refine ⟨by omega, ?_⟩
    rw [hkeep p mem (by omega) hne hok]
    exact hbit

end

theorem marchCTest_ok {write : Words → Nat → BitVec 32 → Words} :
    let n := region.size.toNat / 4
    let mem₁ := (forWords (writeWord write 0) n 0 mem).2
    let mem₂ := (forWords (toggleWord write (solid false) (solid true)) n 0 mem₁).2
    let mem₃ := (forWords (toggleWord write (solid true) (solid false)) n 0 mem₂).2
    (marchCTest write region mem).1 = .ok ↔
      (forWords (writeWord write 0) n 0 mem).1 = .ok ∧
      (forWords (toggleWord write (solid false) (solid true)) n 0 mem₁).1 = .ok ∧
      (forWords (toggleWord write (solid true) (solid false)) n 0 mem₂).1 = .ok ∧
      (forWords (checkWord (solid false)) n 0 mem₃).1 = .ok := by
  simp only [marchCTest, ifOk_eq_ok]
  rfl

theorem marchCTest_of_masked (h : Masked f (region.size.toNat / 4)) (mem : Words) :
    (marchCTest f.write region mem).1 = .ok := by
  obtain ⟨h₁, hmem₁⟩ := clear_masked h mem
  obtain ⟨h₂, hmem₂⟩ := toggle_masked h true hmem₁
  obtain ⟨h₃, hmem₃⟩ := toggle_masked h false hmem₂
  exact marchCTest_ok.mpr ⟨h₁, h₂, h₃, check_masked hmem₃⟩

theorem marchCTest_finds_above (habove : f.aggressor < f.victim)
    (hvictim : f.victim < region.size.toNat / 4) (hforced : f.forced = f.rises) :
    (marchCTest f.write region mem).1 ≠ .ok := by
  intro hok
  obtain ⟨-, h₂, h₃, -⟩ := marchCTest_ok.mp hok
  cases hrises : f.rises with
  | true => exact toggle_finds habove hvictim hrises (hforced.trans hrises) h₂
  | false => exact toggle_finds habove hvictim hrises (hforced.trans hrises) h₃

theorem marchCTest_finds_below (hbelow : f.victim < f.aggressor)
    (haggressor : f.aggressor < region.size.toNat / 4) (hforced : f.forced = !f.rises) :
    (marchCTest f.write region mem).1 ≠ .ok := by
  intro hok
  have hvictim := Nat.lt_trans hbelow haggressor
  obtain ⟨-, h₂, h₃, h₄⟩ := marchCTest_ok.mp hok
  cases hrises : f.rises with
  | true =>
    refine next_finds (b := true) ?_ ?_ hvictim hbelow ?_ h₃
    · exact fun p mem hok => toggleWord_fault_ok.mp hok
    · intro p mem haggressor hne hok
      rw [toggleWord_fault (toggleWord_fault_ok.mp hok)]
      show f.write mem p _ f.victim = _
      rw [f.write_of_ne haggressor, update_of_ne hne.symm]
    · have hbit := toggle_leaves haggressor hbelow hrises h₂
      rw [hforced, hrises] at hbit
      exact hbit
  | false =>
    refine next_finds (b := false) ?_ ?_ hvictim hbelow ?_ h₄
    · exact fun p mem hok => checkWord_ok.mp hok
    · intro p mem _ _ _
      rw [checkWord_snd]
    · have hbit := toggle_leaves haggressor hbelow hrises h₃
      rw [hforced, hrises] at hbit
      exact hbit

/-- **What the march test finds.** On a memory with one coupling fault, whatever it holds, the
test fails exactly if both words are in the region and the fault forces the victim to the value
the aggressor has changed to just when the victim lies above. -/
theorem marchCTest_fails_iff (f : Fault Nat 32) (region : MemoryRegionConfig) (mem : Words) :
    (marchCTest f.write region mem).1 ≠ .ok ↔
      f.aggressor < region.size.toNat / 4 ∧ f.victim < region.size.toNat / 4 ∧
        (f.forced = f.rises ↔ f.aggressor < f.victim) := by
  have hdistinct := f.distinct
  constructor
  · intro hfails
    have hnot : ¬ Masked f (region.size.toNat / 4) := fun h => hfails (marchCTest_of_masked h mem)
    simp only [Masked, Classical.not_imp] at hnot
    obtain ⟨haggressor, hvictim, hforced⟩ := hnot
    refine ⟨haggressor, hvictim, ?_⟩
    by_cases hlt : f.aggressor < f.victim
    · have hge : ¬ f.victim < f.aggressor := Nat.not_lt.mpr (Nat.le_of_lt hlt)
      refine iff_of_true ?_ hlt
      by_contra hne
      exact hforced (iff_of_false hne hge)
    · have hgt : f.victim < f.aggressor := by omega
      refine iff_of_false ?_ hlt
      intro heq
      exact hforced (iff_of_true heq hgt)
  · rintro ⟨haggressor, hvictim, hforced⟩
    rcases Nat.lt_or_gt_of_ne hdistinct with habove | hbelow
    · exact marchCTest_finds_above habove hvictim (hforced.mpr habove)
    · refine marchCTest_finds_below hbelow haggressor (Bool.eq_not.mpr fun heq => ?_)
      exact Nat.lt_asymm hbelow (hforced.mp heq)

def clearsAbove : Fault Nat 32 :=
  ⟨0, ⟨0, Nat.zero_lt_succ 31⟩, 1, ⟨0, Nat.zero_lt_succ 31⟩, Nat.zero_ne_one, true, false⟩

/-- In a region of two words the test passes this fault. -/
theorem clearsAbove_passes :
    2 ≤ (⟨0x20000000, 8, .ram⟩ : MemoryRegionConfig).size.toNat / 4 ∧
      clearsAbove.write (fun _ => 0) 0 1 1 = 0 ∧ clearsAbove.write (fun _ => 1) 0 1 1 = 1 ∧
      clearsAbove.write (update (fun _ => 1) 0 0) 0 1 1 = 0 ∧
      (marchCTest clearsAbove.write ⟨0x20000000, 8, .ram⟩ fun _ => 0).1 = .ok := by
  decide

end Cant.Safety
