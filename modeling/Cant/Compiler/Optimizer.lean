/-
# `Optimizer` — passes of the compiler (`analysis/peephole.c`, `transforms/pattern_optimizer.c`,
`transforms/diagnostic_patterns.c`)

The strength reduction turns products with powers of two and quotients by them into shifts.

The merging of patterns makes one of two neighbours that have the same mask, with the bits of both
in its data. It accepts what the two did just when they ask for the same masked bytes; otherwise
frames are lost, unless another pattern matches them.

A matcher compares whole bytes, so it is the masked comparison just for masks without partial bytes.
-/
import Mathlib.Algebra.Order.Ring.Nat
import Mathlib.Data.Nat.Bitwise

namespace Cant.Compiler

open List

/-! ## Strength reduction -/

inductive IROp where
  | add | sub | mul | div | mod | and | or | xor | not | shl | shr | eq | neq | lt | gt | le | ge

/-- An expression whose right operand is an integer literal, or NULL. The left one is not looked
at. -/
structure BinaryExpr where
  op : IROp
  right : Option Nat

/-- What the cases of the switch put in place of an operation. -/
def IROp.shift : IROp → Option IROp
  | .mul => some .shl
  | .div => some .shr
  | _ => none

def isPowerOfTwo (value : Nat) : Bool := value != 0 && value &&& (value - 1) == 0

/-- The loop of `count_trailing_zeros`; a value other than zero is fuel enough. -/
def countTrailingZeros : (fuel value count : Nat) → Option Nat
  | 0, _, _ => none
  | fuel + 1, value, count =>
    if value &&& 1 = 0 then countTrailingZeros fuel (value >>> 1) (count + 1) else some count

/-- `optimize_strength_reduction`; `allocated` is whether `ir_create_constant` gets its node. -/
def optimizeStrengthReduction (allocated : Bool) (n : BinaryExpr) : Option (BinaryExpr × Bool) :=
  match n.op.shift, n.right with
  | some shift, some value =>
    if isPowerOfTwo value then
      (countTrailingZeros value value 0).map fun count =>
        (⟨shift, if allocated then some count else none⟩, true)
    else some (n, false)
  | _, _ => some (n, false)

/-- The value on operands of 64 bits, where it is defined, of the operations the reduction knows. -/
def IROp.eval : IROp → Nat → Nat → Option Nat
  | .mul, x, y => some (x * y % 2 ^ 64)
  | .div, x, y => if y = 0 then none else some (x / y)
  | .shl, x, y => if y < 64 then some (x <<< y % 2 ^ 64) else none
  | .shr, x, y => if y < 64 then some (x >>> y) else none
  | _, _, _ => none

/-- What is to come of an operation with a literal: for a power of two a shift by a literal, of the
same value whatever the left operand, and the node itself otherwise. -/
def Reduced (op : IROp) (value : Nat) (r : BinaryExpr × Bool) : Prop :=
  if value.isPowerOfTwo then ∃ shift count, (shift = .shl ∨ shift = .shr) ∧
    r = (⟨shift, some count⟩, true) ∧ ∀ x < 2 ^ 64, shift.eval x count = op.eval x value
  else r = (⟨op, some value⟩, false)

theorem isPowerOfTwo_iff {value : Nat} : isPowerOfTwo value = true ↔ value.isPowerOfTwo := by
  by_cases h0 : value = 0
  · simp [isPowerOfTwo, h0, Nat.isPowerOfTwo, (Nat.two_pow_pos _).ne]
  · simp [isPowerOfTwo, h0, Nat.and_sub_one_eq_zero_iff_isPowerOfTwo h0]

theorem countTrailingZeros_two_pow (k : Nat) :
    ∀ fuel count, k < fuel → countTrailingZeros fuel (2 ^ k) count = some (count + k) := by
  induction k with
  | zero =>
    rintro (_ | fuel) count hf
    · cases hf
    · rfl
  | succ k ih =>
    rintro (_ | fuel) count hf
    · cases hf
    have heven : 2 ^ (k + 1) &&& 1 = 0 := by simp [Nat.and_one_is_mod, Nat.pow_succ]
    have hhalf : 2 ^ (k + 1) >>> 1 = 2 ^ k := by simp [Nat.shiftRight_one, Nat.pow_succ]
    rw [countTrailingZeros, if_pos heven, hhalf, ih fuel _ (Nat.lt_of_succ_lt_succ hf),
      Nat.add_right_comm, Nat.add_assoc]

theorem shift_eval {op : IROp} (hop : op = .mul ∨ op = .div) :
    ∃ shift, op.shift = some shift ∧ (shift = .shl ∨ shift = .shr) ∧
      ∀ k < 64, ∀ x, shift.eval x k = op.eval x (2 ^ k) := by
  rcases hop with rfl | rfl
  · refine ⟨.shl, rfl, .inl rfl, fun k hk x => ?_⟩
    simp [IROp.eval, hk, Nat.shiftLeft_eq]
  · refine ⟨.shr, rfl, .inr rfl, fun k hk x => ?_⟩
    simp [IROp.eval, hk, Nat.shiftRight_eq_div_pow]

/-- **A product with a literal or a quotient by it is reduced as it should be**, unless the literal
is a power of two and there is no node for the new constant: then the operand is NULL. -/
theorem strengthReduction_reduced_iff {op : IROp} (hop : op = .mul ∨ op = .div) {value : Nat}
    (hvalue : value < 2 ^ 64) (allocated : Bool) :
    ∃ r, optimizeStrengthReduction allocated ⟨op, some value⟩ = some r ∧
      (Reduced op value r ↔ (value.isPowerOfTwo → allocated = true)) := by
  obtain ⟨shift, hop, hshift, heval⟩ := shift_eval hop
  by_cases hp : value.isPowerOfTwo
  · have hpow := isPowerOfTwo_iff.mpr hp
    simp only [optimizeStrengthReduction, hop, hpow, Reduced, hp, if_true]
    obtain ⟨k, rfl⟩ := hp
    have hk : k < 64 := (Nat.pow_lt_pow_iff_right (by decide)).mp hvalue
    rw [countTrailingZeros_two_pow k _ 0 Nat.lt_two_pow_self, Nat.zero_add]
    refine ⟨_, rfl, ?_⟩
    cases allocated with
    | false => simp
    | true => exact iff_of_true ⟨shift, k, hshift, rfl, fun x _ => heval k hk x⟩ fun _ => rfl
  · have hpow : ¬ isPowerOfTwo value = true := fun h => hp (isPowerOfTwo_iff.mp h)
    simp only [optimizeStrengthReduction, hop, hpow, Reduced, hp]
    exact ⟨_, rfl, iff_of_true rfl nofun⟩

theorem strengthReduction_times_eight :
    ∃ r, optimizeStrengthReduction true ⟨.mul, some 8⟩ = some r ∧
      (Reduced .mul 8 r ↔ (Nat.isPowerOfTwo 8 → true = true)) :=
  strengthReduction_reduced_iff (.inl rfl) (by decide) true

/-- With no memory for the constant, a product with 8 becomes a shift by NULL. -/
theorem times_eight_by_null :
    optimizeStrengthReduction false ⟨.mul, some 8⟩ = some (⟨.shl, none⟩, true) ∧
      ¬ Reduced .mul 8 (⟨.shl, none⟩, true) := by
  refine ⟨rfl, ?_⟩
  rw [Reduced, if_pos ⟨3, rfl⟩]
  rintro ⟨_, _, -, hr, -⟩
  cases hr

/-! ## Merging of patterns -/

/-- `data_length` is the length of both lists; a merged pattern has `handlers` in place of a
`handler`. -/
structure FramePattern (η : Type) where
  data : List UInt8
  mask : List UInt8
  handler : Option η
  handlers : List (Option η)
  dataLength : data.length = mask.length

namespace FramePattern
variable {η : Type}

def masked (p : FramePattern η) : List UInt8 := p.data.zipWith (· &&& ·) p.mask

/-- The masked bytes of the frame are those of the pattern. -/
def Matches (p : FramePattern η) (frame : List UInt8) : Prop :=
  frame.zipWith (· &&& ·) p.mask = p.masked
deriving Decidable

def canMergePatterns (a b : FramePattern η) : Bool :=
  a.data.length == b.data.length && a.mask == b.mask

/-- The bytes that a merge has room for: its length is a `uint8_t`. -/
def mergedLength (a : FramePattern η) : Nat := a.data.length % 256

def createMergedPattern (a b : FramePattern η) : FramePattern η where
  data := (a.data.zipWith (· ||| ·) b.data).take a.mergedLength
  mask := (a.mask.zipWith (· &&& ·) b.mask).take a.mergedLength
  handler := none
  handlers := [a.handler, b.handler]
  dataLength := by simp [a.dataLength, b.dataLength]

/-- `merge_similar_patterns`, with its result; `allocated` is whether a merge gets its memory, by
the number of patterns behind it. -/
def mergeSimilarPatterns (allocated : Nat → Bool) :
    List (FramePattern η) → List (FramePattern η) × Bool
  | a :: b :: rest =>
    if canMergePatterns a b && allocated rest.length then
      (createMergedPattern a b :: (mergeSimilarPatterns allocated rest).1, true)
    else
      let r := mergeSimilarPatterns allocated (b :: rest)
      (a :: r.1, r.2)
  | patterns => (patterns, false)

/-- The pairs that `merge_similar_patterns` makes one of. -/
def mergedPairs (allocated : Nat → Bool) :
    List (FramePattern η) → List (FramePattern η × FramePattern η)
  | a :: b :: rest =>
    if canMergePatterns a b && allocated rest.length then (a, b) :: mergedPairs allocated rest
    else mergedPairs allocated (b :: rest)
  | _ => []

/-- What a pattern asks for in the bytes that a merge keeps. -/
def kept (p : FramePattern η) : List UInt8 := p.masked.take p.mergedLength

def Loses (a b : FramePattern η) (frame : List UInt8) : Prop :=
  (a.Matches frame ∨ b.Matches frame) ∧ ¬ (createMergedPattern a b).Matches frame

theorem zipWith_take (frame mask : List UInt8) (n : Nat) :
    frame.zipWith (· &&& ·) (mask.take n) = (frame.zipWith (· &&& ·) mask).take n := by
  refine ext_getElem? fun i => ?_
  by_cases hi : i < n <;> simp [getElem?_zipWith, hi]

section

variable {a b : FramePattern η} (h : canMergePatterns a b = true)
include h

theorem same_shape : b.mergedLength = a.mergedLength ∧ b.mask = a.mask := by
  obtain ⟨hlength, hmask⟩ : a.data.length = b.data.length ∧ a.mask = b.mask := by
    simpa [canMergePatterns] using h
  rw [mergedLength, mergedLength, hlength, hmask]
  exact ⟨rfl, rfl⟩

theorem mask_merged : (createMergedPattern a b).mask = a.mask.take a.mergedLength := by
  simp [createMergedPattern, (same_shape h).2, zipWith_self]

theorem masked_merged : (createMergedPattern a b).masked = a.kept.zipWith (· ||| ·) b.kept := by
  obtain ⟨hlength, hmask⟩ := same_shape h
  rw [masked, mask_merged h, kept, kept, masked, masked, hlength, hmask, ← take_zipWith]
  refine (zipWith_take _ _ _).trans (ext_getElem? fun i => ?_)
  by_cases hi : i < a.mergedLength
  · simp only [createMergedPattern, getElem?_zipWith, getElem?_take, hi, if_true]
    cases a.data[i]? <;> cases b.data[i]? <;> cases a.mask[i]? <;> try rfl
    exact congrArg (some ∘ UInt8.ofBitVec) BitVec.and_or_distrib_right
  · simp [hi]

theorem matches_merged (frame : List UInt8) : (createMergedPattern a b).Matches frame ↔
    (frame.zipWith (· &&& ·) a.mask).take a.mergedLength = a.kept.zipWith (· ||| ·) b.kept := by
  rw [Matches, mask_merged h, zipWith_take, masked_merged h]

/-- The merged pattern accepts every frame of the two just when they ask for the same bytes. -/
theorem createMergedPattern_loses_iff : (∀ frame, ¬ Loses a b frame) ↔ a.kept = b.kept := by
  obtain ⟨hlength, hmask⟩ := same_shape h
  simp only [Loses, not_and_not_right, matches_merged h]
  constructor
  · intro hcovers
    have hdata := hcovers a.data (.inl rfl)
    have hdata' := hcovers b.data (.inr rfl)
    rw [← hlength, ← hmask] at hdata'
    exact hdata.trans hdata'.symm
  · intro heq frame hframe
    rw [← heq, zipWith_self]
    simp only [UInt8.or_self, map_id']
    rcases hframe with hframe | hframe
    · rw [hframe]
      rfl
    · rw [← hlength, ← hmask, hframe, heq]
      rfl

end

variable (allocated : Nat → Bool) (patterns : List (FramePattern η))

theorem mem_of_merged {m : FramePattern η × FramePattern η}
    (hm : m ∈ mergedPairs allocated patterns) : m.1 ∈ patterns ∧ m.2 ∈ patterns := by
  fun_induction mergedPairs allocated patterns with
  | case1 a b rest _ ih =>
    rcases mem_cons.mp hm with rfl | hm
    · simp
    · simp [ih hm]
  | case2 a b rest _ ih => exact ⟨.tail _ (ih hm).1, .tail _ (ih hm).2⟩
  | case3 => cases hm

theorem left_or_merged {p : FramePattern η} (hp : p ∈ patterns) :
    p ∈ (mergeSimilarPatterns allocated patterns).1 ∨
      ∃ a b, (a, b) ∈ mergedPairs allocated patterns ∧ (p = a ∨ p = b) ∧
        canMergePatterns a b = true ∧
        createMergedPattern a b ∈ (mergeSimilarPatterns allocated patterns).1 := by
  fun_induction mergeSimilarPatterns allocated patterns with
  | case1 a b rest hmerge ih =>
    rw [mergedPairs, if_pos hmerge]
    have hcan := (Bool.and_eq_true_iff.mp hmerge).1
    rcases mem_cons.mp hp with heq | hp
    · exact .inr ⟨a, b, .head _, .inl heq, hcan, .head _⟩
    rcases mem_cons.mp hp with heq | hp
    · exact .inr ⟨a, b, .head _, .inr heq, hcan, .head _⟩
    refine (ih hp).imp (.tail _) ?_
    rintro ⟨a', b', hpair, heq, hcan, hmem⟩
    exact ⟨a', b', .tail _ hpair, heq, hcan, .tail _ hmem⟩
  | case2 a b rest hmerge r ih =>
    rw [mergedPairs, if_neg hmerge]
    rcases mem_cons.mp hp with rfl | hp
    · exact .inl (.head _)
    refine (ih hp).imp (.tail _) ?_
    rintro ⟨a', b', hpair, heq, hcan, hmem⟩
    exact ⟨a', b', hpair, heq, hcan, .tail _ hmem⟩
  | case3 => exact .inl hp

/-- The pattern of one byte with the lowest bit of the mask set. -/
def lowestBit (data : UInt8) : FramePattern Unit := ⟨[data], [1], none, [], rfl⟩

/-- The loop of `analyze_pattern` from index `i` on, with its wildcards and whether they are
contiguous. -/
def analyzeMask (i wildcards : Nat) (contiguous inWildcard : Bool) : List UInt8 → Nat × Bool
  | [] => (wildcards, contiguous)
  | m :: mask =>
    if m = 0 then
      analyzeMask (i + 1) (wildcards + 1) (contiguous && (inWildcard || i == 0)) true mask
    else analyzeMask (i + 1) wildcards (contiguous && !inWildcard) false mask

def shouldUseLookupTable (mask : List UInt8) : Bool :=
  let (wildcards, contiguous) := analyzeMask 0 0 true false mask
  decide ((mask.takeWhile (· == 0xFF)).length ≤ 4) && decide (wildcards > 2) && !contiguous

inductive Matcher where
  | lookup (table : List Bool)
  | binary (conditions : List (Nat × UInt8))

/-- `matches_pattern`, on the bytes of the value. -/
def matchesPattern (p : FramePattern η) (value : Nat) : Bool :=
  p.Matches ((List.range p.data.length).map fun i => UInt8.ofNat (value >>> (i * 8)))

/-- `create_lookup_matcher`, with allocations taken to succeed; a shift of an `int` by its width or
more is not defined. -/
def createLookupMatcher (p : FramePattern η) : Option Matcher :=
  if p.data.length * 8 < 32 then
    some (.lookup ((List.range (1 <<< (p.data.length * 8))).map p.matchesPattern))
  else none

/-- `create_binary_matcher`, with allocations taken to succeed. -/
def createBinaryMatcher (p : FramePattern η) : Matcher :=
  .binary (((p.data.zip p.mask).zipIdx.filter (·.1.2 != 0)).map fun c => (c.2, c.1.1))

/-- `create_optimized_matcher` without SIMD. -/
def createOptimizedMatcher (p : FramePattern η) : Option Matcher :=
  if shouldUseLookupTable p.mask then p.createLookupMatcher else some p.createBinaryMatcher

def Matcher.accepts (frame : List UInt8) : Matcher → Bool
  | .lookup table => table.getD (frame.foldr (fun byte value => value * 256 + byte.toNat) 0) false
  | .binary conditions => conditions.all fun c => frame[c.1]? == some c.2

theorem four_le_of_lookup {mask : List UInt8} (h : shouldUseLookupTable mask = true) :
    4 ≤ mask.length := by
  rcases mask with _ | ⟨a, _ | ⟨b, _ | ⟨c, _ | ⟨d, mask⟩⟩⟩⟩
  case cons.cons.cons.cons => simp
  all_goals
    simp only [shouldUseLookupTable, analyzeMask] at h
    grind

theorem createOptimizedMatcher_eq_some {p : FramePattern η} {m : Matcher} :
    p.createOptimizedMatcher = some m ↔
      shouldUseLookupTable p.mask = false ∧ p.createBinaryMatcher = m := by
  unfold createOptimizedMatcher
  split
  case isTrue h =>
    have hlong := four_le_of_lookup h
    rw [← p.dataLength] at hlong
    simp [createLookupMatcher, h, Nat.not_lt.mpr (by omega : 32 ≤ p.data.length * 8)]
  case isFalse h => simp [h]

variable {p : FramePattern η} {frame : List UInt8}

theorem accepts_binary : p.createBinaryMatcher.accepts frame = true ↔
    ∀ (d m : UInt8) (i : Nat), p.data[i]? = some d → p.mask[i]? = some m →
      m = 0 ∨ frame[i]? = some d := by
  simp [createBinaryMatcher, Matcher.accepts, mem_zipIdx_iff_getElem?, getElem?_zip_eq_some]

theorem matches_iff (h : frame.length = p.data.length) : p.Matches frame ↔
    ∀ (i : Nat) (f d m : UInt8), frame[i]? = some f → p.data[i]? = some d → p.mask[i]? = some m →
      f &&& m = d &&& m := by
  rw [Matches, masked, List.ext_getElem?_iff]
  simp only [getElem?_zipWith]
  refine forall_congr' fun i => ?_
  cases hd : p.data[i]? <;> cases hm : p.mask[i]? <;> cases hf : frame[i]? <;> simp
  all_goals grind

theorem xor_not_and (d b : UInt8) : (d ^^^ ~~~b) &&& b = d &&& b := by
  rw [← UInt8.toBitVec_inj]
  ext i hi
  cases hb : b.toBitVec[i] <;> simp [hb]

/-- **The matcher is the masked comparison** just when the pattern is none for the lookup table and
no byte of its mask is partial. -/
theorem optimizedMatcher_exact_iff (p : FramePattern η) :
    (∃ m, p.createOptimizedMatcher = some m ∧ ∀ frame, frame.length = p.data.length →
      (m.accepts frame = true ↔ p.Matches frame)) ↔
    shouldUseLookupTable p.mask = false ∧ ∀ b ∈ p.mask, b = 0 ∨ b = 0xFF := by
  constructor
  · rintro ⟨m, hm, hexact⟩
    obtain ⟨hlookup, rfl⟩ := createOptimizedMatcher_eq_some.mp hm
    refine ⟨hlookup, fun b hb => ?_⟩
    obtain ⟨i, hi⟩ := mem_iff_getElem?.mp hb
    have hlt : i < p.data.length := by
      rw [p.dataLength]
      exact (List.getElem?_eq_some_iff.mp hi).1
    have hd := getElem?_eq_getElem hlt
    -- The data of the pattern, with the bits of this byte inverted that are not in the mask.
    have hlen : (p.data.set i (p.data[i] ^^^ ~~~b)).length = p.data.length := length_set
    have hmatch := (matches_iff hlen).mpr fun j f d m hf hd' hm => by
      by_cases hij : i = j
      · subst hij
        rw [getElem?_set_self hlt, Option.some_inj] at hf
        obtain rfl := Option.mem_unique hi hm
        obtain rfl := Option.mem_unique hd hd'
        rw [← hf, xor_not_and]
      · rw [getElem?_set_ne hij] at hf
        rw [Option.mem_unique hf hd']
    refine (accepts_binary.mp ((hexact _ hlen).mpr hmatch) _ b i hd hi).imp_right fun heq => ?_
    rw [getElem?_set_self hlt, Option.some_inj] at heq
    have hnot : ~~~b = ~~~0xFF := (UInt8.xor_right_inj _).mp (heq.trans UInt8.xor_zero.symm)
    exact UInt8.not_inj.mp hnot
  · rintro ⟨hlookup, hbytes⟩
    refine ⟨_, createOptimizedMatcher_eq_some.mpr ⟨hlookup, rfl⟩, fun frame hlen => ?_⟩
    rw [accepts_binary, matches_iff hlen]
    constructor
    · intro h i f d m hf hd hm
      rcases h d m i hd hm with rfl | hf'
      · simp
      · rw [Option.mem_unique hf hf']
    · intro h d m i hd hm
      rcases hbytes m (mem_of_getElem? hm) with rfl | rfl
      · exact .inl rfl
      · have hi : i < frame.length := hlen ▸ (List.getElem?_eq_some_iff.mp hd).1
        have heq := h i _ d _ (getElem?_eq_getElem hi) hd hm
        rw [getElem?_eq_getElem hi]
        exact .inr (congrArg some (UInt8.and_neg_one.symm.trans (heq.trans UInt8.and_neg_one)))

/-- The pattern of the even bytes is matched by 2, which the matcher refuses; and for a mask of four
bytes with three wildcards the size of the table is not defined. -/
theorem even_byte_refused :
    (∃ m, (lowestBit 0).createOptimizedMatcher = some m ∧ m.accepts [2] = false) ∧
      (lowestBit 0).Matches [2] ∧
      (⟨[0, 0, 0, 0], [0xFF, 0, 0, 0], none, [], rfl⟩ : FramePattern Unit).createOptimizedMatcher =
        none :=
  ⟨⟨_, rfl, rfl⟩, by decide, by decide⟩

end FramePattern

end Cant.Compiler
