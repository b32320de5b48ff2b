/-
# `RamTests` — the tests of a RAM region, and a bit that is stuck (`memory_test.c`)

Each test is a list of accesses, as `Cant.Lib.March` has them, and what a word sees of it is
the same for every word of the region; so the coverage is read off one word's part.

Two tests are not what they should be (`ram_tests_cover`). The checkerboard takes its words by
twos, and in a region with an odd number of them it writes and reads the word behind. The
walking zero computes the next pattern from the number of the bit just tested, so the zero
stays at bit 0 for two rounds and never comes to bit 31.
-/
import Cant.Lib.March
import Cant.Safety.MemoryTest

namespace Cant.Safety

open Cant.March List

abbrev Failure := { result : MemoryTestResult // result ≠ .ok }

namespace Failure

def write : Failure := ⟨.failedWrite, MemoryTestResult.noConfusion⟩
def read : Failure := ⟨.failedRead, MemoryTestResult.noConfusion⟩
def pattern : Failure := ⟨.failedPattern, MemoryTestResult.noConfusion⟩

end Failure

abbrev RamProgram := List (Op Nat 32 Failure)

def resultOf : Option Failure → MemoryTestResult
  | none => .ok
  | some failure => failure.val

/-- The test on a memory with the writes `store`. -/
def RamProgram.run (store : Words → Nat → BitVec 32 → Words) (program : RamProgram) (mem : Words) :
    MemoryTestResult × Words :=
  let r := March.run store program mem
  (resultOf r.1, r.2)

def MemoryRegionConfig.count (region : MemoryRegionConfig) : Nat := region.size.toNat / 4

/-! ## The tests -/

def marchCProgram (region : MemoryRegionConfig) : RamProgram :=
  sweeps region.count
    [fun _ => [.write 0, .expect 0 .write],
     fun _ => [.expect 0 .read, .write 0xFFFFFFFF, .expect 0xFFFFFFFF .write],
     fun _ => [.expect 0xFFFFFFFF .read, .write 0, .expect 0 .write], fun _ => [.expect 0 .read]]

/-- `for (ptr = start; ptr < end; ptr += 2)`, with a part for `*ptr` and one for `*(ptr + 1)`. -/
def pairLoop (region : MemoryRegionConfig) (even odd : Act 32 Failure) : RamProgram :=
  (List.range ((region.count + 1) / 2)).flatMap fun i => [⟨2 * i, even⟩, ⟨2 * i + 1, odd⟩]

def checkerboardTest (region : MemoryRegionConfig) : RamProgram :=
  pairLoop region (.write 0x55555555) (.write 0xAAAAAAAA) ++
    (pairLoop region (.expect 0x55555555 .pattern) (.expect 0xAAAAAAAA .pattern) ++
      (pairLoop region (.write 0xAAAAAAAA) (.write 0x55555555) ++
        pairLoop region (.expect 0xAAAAAAAA .pattern) (.expect 0x55555555 .pattern)))

/-- The loops of the walking tests over the bits from `bit` on; `next` is how the pattern is
changed at the end of a round. -/
def walkLoops (next : Nat → BitVec 32 → BitVec 32) :
    (bits bit : Nat) → (pattern : BitVec 32) → List (Nat → List (Act 32 Failure))
  | 0, _, _ => []
  | bits + 1, bit, pattern =>
    (fun _ => [.write pattern, .expect pattern .write]) :: (fun _ => [.expect pattern .read]) ::
      walkLoops next bits (bit + 1) (next bit pattern)

def walking1Test (region : MemoryRegionConfig) : RamProgram :=
  sweeps region.count (walkLoops (fun _ pattern => pattern <<< 1) 32 0 1)

def walking0Test (region : MemoryRegionConfig) : RamProgram :=
  sweeps region.count (walkLoops (fun bit _ => ~~~ (1 <<< bit)) 32 0 0xFFFFFFFE)

def defaultPatterns : List (BitVec 32) :=
  [0x00000000, 0xFFFFFFFF, 0x55555555, 0xAAAAAAAA, 0x33333333, 0xCCCCCCCC, 0x0F0F0F0F, 0xF0F0F0F0]

def ramPatternTest (patterns : List (BitVec 32)) (region : MemoryRegionConfig) : RamProgram :=
  sweeps region.count
    (patterns.flatMap fun pattern =>
      [fun _ => [.write pattern], fun _ => [.expect pattern .pattern]])

inductive RamTest where
  | marchC | checkerboard | walking1 | walking0 | ramPattern

/-- What a test does to a region; the pattern test with the default patterns. -/
def RamTest.program : RamTest → MemoryRegionConfig → RamProgram
  | .marchC => marchCProgram
  | .checkerboard => checkerboardTest
  | .walking1 => walking1Test
  | .walking0 => walking0Test
  | .ramPattern => ramPatternTest defaultPatterns

/-! ## The march test is the one of `Cant.Safety.MemoryTest` -/

section

variable {store : Words → Nat → BitVec 32 → Words} {mem : Words}

theorem run_append (program program' : RamProgram) :
    RamProgram.run store (program ++ program') = fun mem =>
      ifOk (RamProgram.run store program mem) (RamProgram.run store program') := by
  funext mem
  simp only [RamProgram.run, March.run_append]
  rcases March.run store program mem with ⟨_ | ⟨result, hresult⟩, mem'⟩
  · rfl
  · cases result with
    | ok => exact absurd rfl hresult
    | failedWrite | failedRead | failedPattern | failedAddress | failedCrc | failedTimeout => rfl

theorem run_sweep {body : Nat → Words → MemoryTestResult × Words}
    {acts : Nat → List (Act 32 Failure)}
    (hbody : ∀ p, RamProgram.run store ((acts p).map (Op.mk p)) = body p) (count : Nat) :
    RamProgram.run store (sweep count acts) = forWords body count 0 := by
  have hfrom : ∀ n p, RamProgram.run store
      ((List.range' p n).flatMap fun q => (acts q).map (Op.mk q)) = forWords body n p := by
    intro n
    induction n with
    | zero => exact fun p => rfl
    | succ n ih =>
      intro p
      rw [range'_succ, flatMap_cons, run_append, hbody, ih]
      rfl
  rw [sweep, range_eq_range']
  exact hfrom count 0

theorem run_write (value : BitVec 32) (p : Nat) :
    RamProgram.run store [⟨p, .write value⟩, ⟨p, .expect value .write⟩] =
      writeWord store value p := by
  funext mem
  simp only [RamProgram.run, March.run, writeWord, ne_eq, ite_not]
  split <;> rfl

theorem run_check (value : BitVec 32) (p : Nat) :
    RamProgram.run store [⟨p, .expect value .read⟩] = checkWord value p := by
  funext mem
  simp only [RamProgram.run, March.run, checkWord, ne_eq, ite_not]
  split <;> rfl

theorem run_toggle (value value' : BitVec 32) (p : Nat) :
    RamProgram.run store
        [⟨p, .expect value .read⟩, ⟨p, .write value'⟩, ⟨p, .expect value' .write⟩] =
      toggleWord store value value' p := by
  refine (run_append [⟨p, .expect value .read⟩] _).trans ?_
  rw [run_check, run_write]
  rfl

/-- **The march test is its four sweeps**, whatever the writes do. -/
theorem marchCTest_eq_run (store : Words → Nat → BitVec 32 → Words) (region : MemoryRegionConfig) :
    marchCTest store region = (marchCProgram region).run store := by
  simp only [marchCProgram, sweeps, flatMap_cons, flatMap_nil, append_nil, run_append]
  rw [run_sweep (run_write 0), run_sweep (run_toggle 0 0xFFFFFFFF),
    run_sweep (run_toggle 0xFFFFFFFF 0), run_sweep (run_check 0)]
  rfl

end

/-! ## One word of a test -/

namespace RamTest

/-- The loops of a test, each with what it does to a word. -/
def loops : RamTest → List (Nat → List (Act 32 Failure))
  | .marchC =>
    [fun _ => [.write 0, .expect 0 .write],
     fun _ => [.expect 0 .read, .write 0xFFFFFFFF, .expect 0xFFFFFFFF .write],
     fun _ => [.expect 0xFFFFFFFF .read, .write 0, .expect 0 .write], fun _ => [.expect 0 .read]]
  | .checkerboard =>
    [fun p => [if p % 2 = 0 then .write 0x55555555 else .write 0xAAAAAAAA],
     fun p => [if p % 2 = 0 then .expect 0x55555555 .pattern else .expect 0xAAAAAAAA .pattern],
     fun p => [if p % 2 = 0 then .write 0xAAAAAAAA else .write 0x55555555],
     fun p => [if p % 2 = 0 then .expect 0xAAAAAAAA .pattern else .expect 0x55555555 .pattern]]
  | .walking1 => walkLoops (fun _ pattern => pattern <<< 1) 32 0 1
  | .walking0 => walkLoops (fun bit _ => ~~~ (1 <<< bit)) 32 0 0xFFFFFFFE
  | .ramPattern =>
    defaultPatterns.flatMap fun pattern =>
      [fun _ => [.write pattern], fun _ => [.expect pattern .pattern]]

def bound : RamTest → MemoryRegionConfig → Nat
  | .checkerboard, region => 2 * ((region.count + 1) / 2)
  | _, region => region.count

end RamTest

theorem pairLoop_eq_sweep (region : MemoryRegionConfig) (even odd : Act 32 Failure) :
    pairLoop region even odd =
      sweep (2 * ((region.count + 1) / 2)) fun p => [if p % 2 = 0 then even else odd] := by
  unfold pairLoop sweep
  induction (region.count + 1) / 2 with
  | zero => rfl
  | succ k ih =>
    have heven : 2 * k % 2 = 0 := by omega
    have hodd : ¬ (2 * k + 1) % 2 = 0 := by omega
    rw [range_succ, flatMap_append, ih, Nat.mul_succ, range_succ, range_succ,
      flatMap_append, flatMap_append, append_assoc]
    simp

theorem RamTest.program_eq_sweeps (test : RamTest) (region : MemoryRegionConfig) :
    test.program region = sweeps (test.bound region) test.loops := by
  cases test with
  | checkerboard =>
    simp [program, checkerboardTest, pairLoop_eq_sweep, sweeps, loops, bound]
  | marchC | walking1 | walking0 | ramPattern => rfl

section

variable {p : Nat} {v : BitVec 32}

theorem walkLoops_pass (next : Nat → BitVec 32 → BitVec 32) (bits bit : Nat)
    (pattern v : BitVec 32) :
    passes id ((walkLoops next bits bit pattern).flatMap (· p)) v = true := by
  induction bits generalizing bit pattern v with
  | zero => rfl
  | succ bits ih =>
    simp only [walkLoops, flatMap_cons, cons_append, nil_append, passes, id_eq,
      decide_true, Bool.true_and]
    exact ih (bit + 1) (next bit pattern) pattern

theorem patternLoops_pass (patterns : List (BitVec 32)) (v : BitVec 32) :
    passes id ((patterns.flatMap fun pattern =>
      [fun _ => [.write pattern], fun _ => [Act.expect pattern Failure.pattern]]).flatMap (· p)) v =
        true := by
  induction patterns generalizing v with
  | nil => rfl
  | cons pattern patterns ih =>
    simp only [flatMap_cons, cons_append, nil_append, passes, id_eq, decide_true, Bool.true_and]
    exact ih pattern

variable {x : BitVec 32}

theorem checkerboard_word (p : Nat) :
    ∃ x y : BitVec 32, y = ~~~ x ∧ RamTest.checkerboard.loops.flatMap (· p) =
      [.write x, .expect x .pattern, .write y, .expect y .pattern] := by
  simp only [RamTest.loops, flatMap_cons, flatMap_nil, cons_append, nil_append]
  by_cases heven : p % 2 = 0
  · refine ⟨0x55555555, 0xAAAAAAAA, by decide, ?_⟩
    simp [heven]
  · refine ⟨0xAAAAAAAA, 0x55555555, by decide, ?_⟩
    simp [heven]

theorem RamTest.loops_pass (test : RamTest) (p : Nat) (v : BitVec 32) :
    passes id (test.loops.flatMap (· p)) v = true := by
  cases test with
  | marchC =>
    simp [loops, passes]
  | checkerboard =>
    obtain ⟨x, y, -, hword⟩ := checkerboard_word p
    simp [hword, passes]
  | walking1 => exact walkLoops_pass _ 32 0 1 v
  | walking0 => exact walkLoops_pass _ 32 0 0xFFFFFFFE v
  | ramPattern => exact patternLoops_pass defaultPatterns v

def walkPatterns (next : Nat → BitVec 32 → BitVec 32) :
    (bits bit : Nat) → BitVec 32 → List (BitVec 32)
  | 0, _, _ => []
  | bits + 1, bit, pattern => pattern :: walkPatterns next bits (bit + 1) (next bit pattern)

theorem expected_walkLoops (next : Nat → BitVec 32 → BitVec 32) (bits bit : Nat)
    (pattern : BitVec 32) :
    x ∈ expected ((walkLoops next bits bit pattern).flatMap (· p)) ↔
      x ∈ walkPatterns next bits bit pattern := by
  induction bits generalizing bit pattern with
  | zero => exact Iff.rfl
  | succ bits ih =>
    simp [walkLoops, expected, walkPatterns, ih]

theorem not_all_of_complement {xs : List (BitVec 32)} {y : BitVec 32} (hnot : y = ~~~ x)
    (hx : x ∈ xs) (hy : y ∈ xs) (bit : Fin 32) (b : Bool) : ¬ ∀ z ∈ xs, z.getLsbD bit = b := by
  intro h
  have hfirst := h x hx
  have hsecond := h y hy
  rw [hnot, BitVec.getLsbD_not, decide_eq_true bit.isLt, hfirst] at hsecond
  cases b <;> cases hsecond

theorem mem_walking1 : ∀ (bits bit : Nat),
    x ∈ walkPatterns (fun _ pattern => pattern <<< 1) bits bit (BitVec.twoPow 32 bit) ↔
      ∃ k, bit ≤ k ∧ k < bit + bits ∧ x = BitVec.twoPow 32 k
  | 0, bit => by
    refine iff_of_false not_mem_nil ?_
    rintro ⟨k, hle, hlt, -⟩
    exact Nat.not_lt.mpr hle hlt
  | bits + 1, bit => by
    have hnext : BitVec.twoPow 32 bit <<< 1 = BitVec.twoPow 32 (bit + 1) :=
      (BitVec.shiftLeft_add (1 : BitVec 32) bit 1).symm
    rw [walkPatterns, hnext, mem_cons, mem_walking1 bits (bit + 1)]
    constructor
    · rintro (rfl | ⟨k, hle, hlt, rfl⟩)
      · exact ⟨bit, .refl, by omega, rfl⟩
      · exact ⟨k, by omega, by omega, rfl⟩
    · rintro ⟨k, hle, hlt, rfl⟩
      rcases Nat.eq_or_lt_of_le hle with rfl | hgt
      · exact .inl rfl
      · exact .inr ⟨k, hgt, by omega, rfl⟩

theorem mem_walking0 : ∀ (bits bit : Nat) (pattern : BitVec 32),
    x ∈ walkPatterns (fun bit _ => ~~~ (1 <<< bit)) (bits + 1) bit pattern ↔
      x = pattern ∨ ∃ k, bit ≤ k ∧ k < bit + bits ∧ x = ~~~ BitVec.twoPow 32 k
  | 0, bit, pattern => by
    rw [walkPatterns, walkPatterns, mem_singleton]
    refine (or_iff_left ?_).symm
    rintro ⟨k, hle, hlt, -⟩
    exact Nat.not_lt.mpr hle hlt
  | bits + 1, bit, pattern => by
    rw [walkPatterns, mem_cons, mem_walking0 bits (bit + 1)]
    refine or_congr_right ⟨?_, ?_⟩
    · rintro (rfl | ⟨k, hle, hlt, rfl⟩)
      · exact ⟨bit, .refl, by omega, rfl⟩
      · exact ⟨k, by omega, by omega, rfl⟩
    · rintro ⟨k, hle, hlt, rfl⟩
      rcases Nat.eq_or_lt_of_le hle with rfl | hgt
      · exact .inl rfl
      · exact .inr ⟨k, hgt, by omega, rfl⟩

theorem getLsbD_twoPow_self (bit : Fin 32) : (BitVec.twoPow 32 bit).getLsbD bit = true := by
  rw [BitVec.getLsbD_twoPow, decide_eq_true bit.isLt, decide_eq_true rfl, Bool.and_self]

theorem getLsbD_twoPow_ne {bit : Fin 32} {k : Nat} (hne : k ≠ bit) :
    (BitVec.twoPow 32 k).getLsbD bit = false := by
  rw [BitVec.getLsbD_twoPow, decide_eq_false hne, Bool.and_false]

theorem walking1_patterns (bit : Fin 32) (b : Bool) :
    ¬ ∀ x ∈ walkPatterns (fun _ pattern => pattern <<< 1) 32 0 1, x.getLsbD bit = b := by
  intro h
  have hk : ∀ k < 32, (BitVec.twoPow 32 k).getLsbD bit = b := fun k hlt =>
    h _ ((mem_walking1 32 0).mpr ⟨k, Nat.zero_le k, by omega, rfl⟩)
  -- the one is at this bit in one round, and at another in the next
  obtain ⟨k, hlt, hne⟩ : ∃ k < 32, k ≠ bit.val := by
    by_cases hzero : bit.val = 0
    · exact ⟨1, by decide, by omega⟩
    · exact ⟨0, by decide, by omega⟩
  have htrue := hk bit bit.isLt
  have hfalse := hk k hlt
  rw [getLsbD_twoPow_self] at htrue
  rw [getLsbD_twoPow_ne hne, ← htrue] at hfalse
  cases hfalse

theorem walking0_patterns (bit : Fin 32) (b : Bool) :
    (∀ x ∈ walkPatterns (fun bit _ => ~~~ (1 <<< bit)) 32 0 0xFFFFFFFE, x.getLsbD bit = b) ↔
      bit = 31 ∧ b = true := by
  have hnot : ∀ k, (~~~ BitVec.twoPow 32 k).getLsbD bit = !(BitVec.twoPow 32 k).getLsbD bit := by
    intro k
    rw [BitVec.getLsbD_not, decide_eq_true bit.isLt, Bool.true_and]
  constructor
  · intro h
    have hk : ∀ k < 31, (~~~ BitVec.twoPow 32 k).getLsbD bit = b := fun k hlt =>
      h _ ((mem_walking0 31 0 _).mpr (.inr ⟨k, Nat.zero_le k, by omega, rfl⟩))
    obtain ⟨k, hlt, hne⟩ : ∃ k < 31, k ≠ bit.val := by
      by_cases hzero : bit.val = 0
      · exact ⟨1, by decide, by omega⟩
      · exact ⟨0, by decide, by omega⟩
    have htrue := hk k hlt
    rw [hnot, getLsbD_twoPow_ne hne] at htrue
    refine ⟨?_, htrue.symm⟩
    by_contra hbit
    have hfalse := hk bit (by omega)
    rw [hnot, getLsbD_twoPow_self, ← htrue] at hfalse
    cases hfalse
  · rintro ⟨rfl, rfl⟩ x hx
    rcases (mem_walking0 31 0 _).mp hx with rfl | ⟨k, -, hlt, rfl⟩
    · decide
    · have hne : k ≠ (31 : Fin 32).val := Nat.ne_of_lt (Nat.lt_of_lt_of_eq hlt (Nat.zero_add 31))
      rw [hnot, getLsbD_twoPow_ne hne]
      rfl

/-- **What the comparisons of one word leave out**: bit 31 at zero, in the walking zero. -/
theorem RamTest.expected_iff (test : RamTest) (p : Nat) (bit : Fin 32) (b : Bool) :
    (∀ x ∈ expected (test.loops.flatMap (· p)), x.getLsbD bit = b) ↔
      test = .walking0 ∧ bit = 31 ∧ b = true := by
  have hones : (0xFFFFFFFF : BitVec 32) = ~~~ 0 := by decide
  cases test with
  | marchC =>
    refine iff_of_false (not_all_of_complement hones mem_cons_self ?_ bit b)
      fun h => RamTest.noConfusion h.1
    exact .tail _ (.tail _ mem_cons_self)
  | checkerboard =>
    obtain ⟨x, y, hnot, hword⟩ := checkerboard_word p
    rw [hword]
    refine iff_of_false (not_all_of_complement hnot mem_cons_self ?_ bit b)
      fun h => RamTest.noConfusion h.1
    exact .tail _ mem_cons_self
  | walking1 =>
    simp only [loops, expected_walkLoops]
    exact iff_of_false (walking1_patterns bit b) fun h => RamTest.noConfusion h.1
  | walking0 =>
    simp only [loops, expected_walkLoops, true_and]
    exact walking0_patterns bit b
  | ramPattern =>
    refine iff_of_false (not_all_of_complement hones mem_cons_self ?_ bit b)
      fun h => RamTest.noConfusion h.1
    exact .tail _ mem_cons_self

end

/-! ## The region -/

section

variable {region : MemoryRegionConfig} {mem : Words}

theorem resultOf_eq_ok {failure : Option Failure} : resultOf failure = .ok ↔ failure = none := by
  cases failure with
  | none => exact iff_of_true rfl rfl
  | some failure => exact iff_of_false failure.property (Option.some_ne_none failure)

theorem RamTest.run_sound (test : RamTest) (region : MemoryRegionConfig) (mem : Words) :
    (March.run (storing sound) (test.program region) mem).1 = none := by
  rw [test.program_eq_sweeps, sweeps_pass_iff]
  exact fun p _ => test.loops_pass p (mem p)

theorem RamTest.touched_lt_iff (test : RamTest) (region : MemoryRegionConfig)
    (store : Words → Nat → BitVec 32 → Words) (mem : Words) :
    (∀ q ∈ touched store (test.program region) mem, q < region.count) ↔
      (test = .checkerboard → region.count % 2 = 0) := by
  have hbelow : test.bound region = region.count →
      ∀ q ∈ touched store (test.program region) mem, q < region.count := by
    intro hbound q hq
    rw [test.program_eq_sweeps] at hq
    obtain ⟨op, hop, rfl⟩ := exists_op_of_touched hq
    exact hbound ▸ word_lt_of_sweeps hop
  cases test with
  | checkerboard =>
    constructor
    · intro h _
      by_contra hodd
      -- the first loop only writes, and its last write is behind the region
      refine Nat.lt_irrefl region.count (h _ (touched_of_writes ?_ ?_))
      · intro op hop
        obtain ⟨i, -, hi⟩ := mem_flatMap.mp hop
        rcases mem_cons.mp hi with rfl | hi
        · exact ⟨_, rfl⟩
        · obtain rfl := mem_singleton.mp hi
          exact ⟨_, rfl⟩
      · refine ⟨⟨2 * (region.count / 2) + 1, .write 0xAAAAAAAA⟩, ?_, ?_⟩
        · refine mem_flatMap.mpr ⟨region.count / 2, mem_range.mpr (by omega), ?_⟩
          exact .tail _ mem_cons_self
        · show 2 * (region.count / 2) + 1 = region.count
          omega
    · intro heven
      have := heven rfl
      refine hbelow ?_
      show 2 * ((region.count + 1) / 2) = region.count
      omega
  | marchC | walking1 | walking0 | ramPattern =>
    exact iff_of_true (hbelow rfl) fun h => RamTest.noConfusion h

theorem RamTest.run_stuck_iff (test : RamTest) {word : Nat} (hword : word < region.count)
    {bit : Fin 32} {b : Bool} (hstuck : (mem word).getLsbD bit = b) :
    (March.run (storing (stuck word bit b)) (test.program region) mem).1 = none ↔
      test = .walking0 ∧ bit = 31 ∧ b = true := by
  have hbound : word < test.bound region := by
    cases test with
    | checkerboard =>
      show word < 2 * ((region.count + 1) / 2)
      omega
    | marchC | walking1 | walking0 | ramPattern => exact hword
  rw [passes_stuck_iff (test.run_sound region mem) hstuck, test.program_eq_sweeps, onWord_sweeps,
    if_pos hbound]
  exact test.expected_iff word bit b

end

/-- **The tests of a RAM region.** A test stays inside, unless it is the checkerboard and the
number of words is odd; without a fault it answers `MEM_TEST_OK`; and with a bit of a word stuck it
does not, unless it is the walking zero and bit 31 is stuck at one. -/
theorem ram_tests_cover (test : RamTest) (region : MemoryRegionConfig) (mem : Words) :
    (∀ store : Words → Nat → BitVec 32 → Words,
      (∀ q ∈ touched store (test.program region) mem, q < region.count) ↔
        (test = .checkerboard → region.count % 2 = 0)) ∧
    (RamProgram.run (storing sound) (test.program region) mem).1 = .ok ∧
    ∀ word < region.count, ∀ (bit : Fin 32) (b : Bool), (mem word).getLsbD bit = b →
      ((RamProgram.run (storing (stuck word bit b)) (test.program region) mem).1 ≠ .ok ↔
        ¬ (test = .walking0 ∧ bit = 31 ∧ b = true)) := by
  refine ⟨fun store => test.touched_lt_iff region store mem,
    resultOf_eq_ok.mpr (test.run_sound region mem), ?_⟩
  intro word hword bit b hstuck
  exact not_congr (resultOf_eq_ok.trans (test.run_stuck_iff hword hstuck))

def fourWords : MemoryRegionConfig := ⟨0x20000000, 16, .ram⟩

theorem march_finds_stuck_bit :
    2 < fourWords.count ∧ (RamProgram.run (storing (stuck 2 3 false))
      (RamTest.marchC.program fourWords) fun _ => 0).1 ≠ .ok := by
  have hcover := (ram_tests_cover .marchC fourWords fun _ => 0).2.2 2
    (by decide) 3 false (by decide)
  exact ⟨by decide, hcover.mpr fun h => RamTest.noConfusion h.1⟩

def oneWord : MemoryRegionConfig := ⟨0x20000000, 4, .ram⟩

/-- The checkerboard of one word writes the word behind it; and with the uppermost bit of the
word stuck at one, the walking zero answers `MEM_TEST_OK`. -/
theorem checkerboard_and_walking0_fail :
    (oneWord.count = 1 ∧
      1 ∈ touched (storing sound) (RamTest.checkerboard.program oneWord) fun _ => 0) ∧
    (RamProgram.run (storing (stuck 0 31 true)) (RamTest.walking0.program oneWord)
      fun _ => 0xFFFFFFFF).1 = .ok := by
  have hmissed : (March.run (storing (stuck 0 31 true)) (RamTest.walking0.program oneWord)
      fun _ => 0xFFFFFFFF).1 = none :=
    (RamTest.walking0.run_stuck_iff (by decide) (by decide)).mpr ⟨rfl, rfl, rfl⟩
  exact ⟨⟨rfl, .tail _ mem_cons_self⟩, resultOf_eq_ok.mpr hmissed⟩

end Cant.Safety
