/-
# `Word` — unsigned machine words as naturals

A C expression of unsigned type is computed over `Int` and then reduced to the
width of the variable it is stored in. `u8`, `u16`, `u32` and `u64` are those
reductions; a value that is already in range passes through unchanged.

A byte in memory is a `UInt8`. Read into an expression it is promoted, as C
promotes it, so it appears as `b.toNat`; stored back it is cut by `UInt8.ofNat`.
-/
import Mathlib.Data.Nat.Bitwise

namespace Cant.Word

/-- Reduction to `uint8_t`. -/
def u8 (z : Int) : Nat := (z % 256).toNat

/-- Reduction to `uint16_t`. -/
def u16 (z : Int) : Nat := (z % 65536).toNat

/-- Reduction to `uint32_t`. -/
def u32 (z : Int) : Nat := (z % 4294967296).toNat

/-- Reduction to a 64-bit `size_t`. -/
def u64 (z : Int) : Nat := (z % 18446744073709551616).toNat

theorem u32_lt (z : Int) : u32 z < 4294967296 := by
  unfold u32; omega

variable {hi lo n : Nat}

theorem u8_of_lt (h : n < 256) : u8 n = n := by
  unfold u8; omega

theorem u16_of_lt (h : n < 65536) : u16 n = n := by
  unfold u16; omega

theorem u32_of_lt (h : n < 4294967296) : u32 n = n := by
  unfold u32; omega

theorem u64_of_lt (h : n < 18446744073709551616) : u64 n = n := by
  unfold u64; omega

theorem u32_sub {a b : Nat} (hb : b ≤ a) (ha : a < 4294967296) : u32 ((a : Int) - b) = a - b := by
  unfold u32; omega

theorem u64_sub {a b : Nat} (hb : b ≤ a) (ha : a < 18446744073709551616) :
    u64 ((a : Int) - b) = a - b := by
  unfold u64; omega

theorem toNat_succ_of_lt {b : UInt8} (h : b.toNat < n) (hn : n < 256) :
    (b + 1).toNat = b.toNat + 1 := by
  rw [UInt8.toNat_add, UInt8.toNat_one]
  omega

/-- The 32-bit word with the bytes `b₀` to `b₃`, the lowest first. -/
def word32 (b₀ b₁ b₂ b₃ : UInt8) : UInt32 :=
  b₀.toUInt32 ||| (b₁.toUInt32 <<< 8) ||| (b₂.toUInt32 <<< 16) ||| (b₃.toUInt32 <<< 24)

theorem or_shiftLeft {k : Nat} (h : lo < 2 ^ k) : lo ||| hi <<< k = lo + 2 ^ k * hi := by
  rw [Nat.or_comm, ← Nat.shiftLeft_add_eq_or_of_lt h, Nat.shiftLeft_eq, Nat.mul_comm, Nat.add_comm]

/-- The ones from bit `n` up to bit `m` cut a number to `m` bits and round it down to a
multiple of `2 ^ n`. -/
theorem and_mask (x : Nat) {m : Nat} (h : n ≤ m) :
    x &&& (2 ^ m - 2 ^ n) = x % 2 ^ m / 2 ^ n * 2 ^ n := by
  have hmask : 2 ^ m - 2 ^ n = (2 ^ (m - n) - 1) <<< n := by
    rw [Nat.shiftLeft_eq, Nat.sub_mul, Nat.one_mul, ← Nat.pow_add, Nat.sub_add_cancel h]
  refine Nat.eq_of_testBit_eq fun i => ?_
  rw [hmask, ← Nat.shiftRight_eq_div_pow, ← Nat.shiftLeft_eq, Nat.testBit_and,
    Nat.testBit_shiftLeft, Nat.testBit_shiftLeft, Nat.testBit_shiftRight, Nat.testBit_mod_two_pow,
    Nat.testBit_two_pow_sub_one]
  by_cases hi : n ≤ i
  · have hlt : i - n < m - n ↔ i < m := by omega
    simp [hi, hlt, Bool.and_comm]
  · simp [hi]

section

variable (b₀ b₁ b₂ b₃ : UInt8)

theorem toNat_word32 :
    (word32 b₀ b₁ b₂ b₃).toNat =
      b₀.toNat + 256 * b₁.toNat + 65536 * b₂.toNat + 16777216 * b₃.toNat := by
  have h₀ : b₀.toNat < 256 := b₀.toNat_lt
  have h₁ : b₁.toNat < 256 := b₁.toNat_lt
  have h₂ : b₂.toNat < 256 := b₂.toNat_lt
  have hshift : ∀ (b : UInt8) (k : Nat), k ≤ 24 → b.toNat <<< k % 2 ^ 32 = b.toNat <<< k := by
    intro b k hk
    refine Nat.mod_eq_of_lt ?_
    calc b.toNat <<< k = b.toNat * 2 ^ k := Nat.shiftLeft_eq _ _
      _ ≤ 255 * 2 ^ 24 := Nat.mul_le_mul (Nat.le_of_lt_succ b.toNat_lt)
        (Nat.pow_le_pow_right (by decide) hk)
      _ < 2 ^ 32 := by decide
  have hsum : (word32 b₀ b₁ b₂ b₃).toNat =
      b₀.toNat ||| b₁.toNat <<< 8 ||| b₂.toNat <<< 16 ||| b₃.toNat <<< 24 := by
    rw [← hshift b₁ 8 (by decide), ← hshift b₂ 16 (by decide), ← hshift b₃ 24 (by decide)]
    rfl
  rw [hsum, or_shiftLeft (k := 8) h₀, or_shiftLeft (k := 16) (by omega),
    or_shiftLeft (k := 24) (by omega)]
  omega

theorem word32_toUInt8 : (word32 b₀ b₁ b₂ b₃).toUInt8 = b₀ := by
  refine UInt8.toNat_inj.mp ?_
  have h₀ : b₀.toNat < 256 := b₀.toNat_lt
  rw [UInt32.toNat_toUInt8, toNat_word32]
  omega

theorem word32_shiftRight : word32 b₀ b₁ b₂ b₃ >>> 8 = word32 b₁ b₂ b₃ 0 := by
  refine UInt32.toNat_inj.mp ?_
  have h₀ : b₀.toNat < 256 := b₀.toNat_lt
  have hzero : (0 : UInt8).toNat = 0 := rfl
  have hshift : (word32 b₀ b₁ b₂ b₃ >>> 8).toNat = (word32 b₀ b₁ b₂ b₃).toNat >>> 8 := rfl
  rw [hshift, toNat_word32, toNat_word32]
  omega

end

def wordBytes (w : UInt32) : List UInt8 :=
  [.ofNat w.toNat, .ofNat (w.toNat / 256), .ofNat (w.toNat / 65536), .ofNat (w.toNat / 16777216)]

theorem word32_eq_iff {b₀ b₁ b₂ b₃ : UInt8} {w : UInt32} :
    word32 b₀ b₁ b₂ b₃ = w ↔ [b₀, b₁, b₂, b₃] = wordBytes w := by
  have h₀ : b₀.toNat < 256 := b₀.toNat_lt
  have h₁ : b₁.toNat < 256 := b₁.toNat_lt
  have h₂ : b₂.toNat < 256 := b₂.toNat_lt
  have hw : w.toNat < 4294967296 := w.toNat_lt
  have hofNat : ∀ n : Nat, (UInt8.ofNat n).toNat = n % 256 := fun n => rfl
  simp only [wordBytes, List.cons.injEq, and_true, ← UInt32.toNat_inj, ← UInt8.toNat_inj, hofNat,
    toNat_word32]
  omega

/-! ## Two nibbles in a byte -/

theorem shl4_or (h : lo < 16) : (hi <<< 4) ||| lo = 16 * hi + lo := by
  rw [← Nat.shiftLeft_add_eq_or_of_lt (i := 4) (by simpa using h)]
  omega

theorem and_0x0F (n : Nat) : n &&& 0x0F = n % 16 :=
  Nat.and_two_pow_sub_one_eq_mod n 4

theorem and_0xFF (n : Nat) : n &&& 0xFF = n % 256 :=
  Nat.and_two_pow_sub_one_eq_mod n 8

theorem toNat_ofNat_nibbles (hh : hi < 16) (hl : lo < 16) :
    (UInt8.ofNat ((hi <<< 4) ||| lo)).toNat = 16 * hi + lo := by
  rw [shl4_or hl, UInt8.toNat_ofNat']
  omega

theorem nibbles_shr (hh : hi < 16) (hl : lo < 16) :
    (UInt8.ofNat ((hi <<< 4) ||| lo)).toNat >>> 4 = hi := by
  rw [toNat_ofNat_nibbles hh hl]
  omega

theorem nibbles_and (hh : hi < 16) (hl : lo < 16) :
    (UInt8.ofNat ((hi <<< 4) ||| lo)).toNat &&& 0x0F = lo := by
  rw [toNat_ofNat_nibbles hh hl, and_0x0F]
  omega

end Cant.Word
