/-
# `Crc` — what a table-driven CRC register remembers

The loop of a table-driven CRC shifts its register left by one byte and exclusive-ors
a table entry into it; which entry is decided by the byte that is shifted out and
the next byte of the message. After `w` steps nothing of the old content is left in
a register of `w` bytes, so it is a function of the last `w` entries read
(`foldl_step`).

If the values it reads are told apart by their low bytes, it determines them too
(`crc_eq_iff`): the register agrees on two messages if and only if the last `w`
entries read do.
-/
import Mathlib.Data.Nat.Bitwise

namespace Cant.Crc

open List

/-- The register that has read `es`, the latest entry first. -/
def encode : List Nat → Nat
  | [] => 0
  | e :: es => e ^^^ (encode es <<< 8)

theorem encode_cons_mod (e : Nat) (es : List Nat) : encode (e :: es) % 2 ^ 8 = e % 2 ^ 8 := by
  rw [encode, Nat.xor_mod_two_pow, Nat.shiftLeft_eq, Nat.mul_mod_left, Nat.xor_zero]

theorem encode_cons_div (e : Nat) (es : List Nat) :
    encode (e :: es) / 2 ^ 8 = e / 2 ^ 8 ^^^ encode es := by
  rw [encode, Nat.xor_div_two_pow, Nat.shiftLeft_eq, Nat.mul_div_cancel _ (by decide)]

theorem xor_left_cancel_mod {a x y k : Nat} :
    (a ^^^ x) % 2 ^ k = (a ^^^ y) % 2 ^ k ↔ x % 2 ^ k = y % 2 ^ k := by
  rw [Nat.xor_mod_two_pow, Nat.xor_mod_two_pow]
  exact Nat.xor_right_inj

/-- **The low `k` bytes hold the last `k` entries**, if the low byte of an entry
tells which one it is. -/
theorem encode_mod_eq_iff {values : List Nat}
    (hlow : ∀ e ∈ values, ∀ e' ∈ values, e % 2 ^ 8 = e' % 2 ^ 8 → e = e') :
    ∀ (k : Nat) {es es' : List Nat}, (∀ e ∈ es, e ∈ values) → (∀ e ∈ es', e ∈ values) →
      k ≤ es.length → k ≤ es'.length →
      (encode es % 2 ^ (8 * k) = encode es' % 2 ^ (8 * k) ↔ es.take k = es'.take k)
  | 0, _, _, _, _, _, _ => by simp [Nat.mod_one]
  | k + 1, [], _, _, _, h, _ => absurd h (by simp)
  | k + 1, _ :: _, [], _, _, _, h' => absurd h' (by simp)
  | k + 1, e :: es, e' :: es', hP, hP', h, h' => by
    have ih := encode_mod_eq_iff hlow k (fun x hx => hP x (.tail _ hx))
      (fun x hx => hP' x (.tail _ hx)) (Nat.le_of_succ_le_succ h)
      (Nat.le_of_succ_le_succ h')
    have hsplit : ∀ n : Nat, n % 2 ^ (8 * (k + 1)) =
        n % 2 ^ 8 + 2 ^ 8 * (n / 2 ^ 8 % 2 ^ (8 * k)) := by
      intro n
      rw [Nat.mul_succ, Nat.add_comm, Nat.pow_add, Nat.mod_mul]
    rw [hsplit, hsplit, encode_cons_mod, encode_cons_mod, encode_cons_div, encode_cons_div,
      take_succ_cons, take_succ_cons, List.cons.injEq, ← ih]
    constructor
    · intro heq
      have hmod : e % 2 ^ 8 = e' % 2 ^ 8 := by omega
      obtain rfl := hlow e (hP e mem_cons_self) e' (hP' e' mem_cons_self) hmod
      have hrest := Nat.eq_of_mul_eq_mul_left (by decide) (Nat.add_left_cancel heq)
      exact ⟨rfl, xor_left_cancel_mod.mp hrest⟩
    · rintro ⟨rfl, heq⟩
      rw [xor_left_cancel_mod.mpr heq]

/-! ## The loop -/

section

variable {crc : Nat} {es : List Nat}
variable (w : Nat) (table : Nat → Nat)

/-- The table index for the next byte: the top byte of a register of `w` bytes,
exclusive-ored with it. -/
def index (crc : Nat) (b : UInt8) : Nat := ((crc >>> (8 * (w - 1))) ^^^ b.toNat) &&& 0xFF

def step (crc : Nat) (b : UInt8) : Nat := ((crc <<< 8) ^^^ table (index w crc b)) % 2 ^ 32

def indices : Nat → List UInt8 → List Nat
  | _, [] => []
  | crc, b :: bs => index w crc b :: indices (step w table crc b) bs

def entries : Nat → List UInt8 → List Nat
  | _, [] => []
  | crc, b :: bs => table (index w crc b) :: entries (step w table crc b) bs

variable {w table}

theorem index_lt (crc : Nat) (b : UInt8) : index w crc b < 256 :=
  Nat.and_le_right.trans_lt (by decide)

theorem indices_lt : ∀ {bs : List UInt8} {crc : Nat}, ∀ i ∈ indices w table crc bs, i < 256
  | [], _, _, hi => absurd hi not_mem_nil
  | b :: _, crc, i, hi => by
    rcases mem_cons.mp hi with rfl | hi
    · exact index_lt crc b
    · exact indices_lt i hi

theorem mem_entries : ∀ {bs : List UInt8} {crc e : Nat}, e ∈ entries w table crc bs →
    ∃ i, e = table (i &&& 0xFF)
  | b :: bs, crc, e, h => by
    rcases mem_cons.mp h with rfl | h
    · exact ⟨_, rfl⟩
    · exact mem_entries h

theorem step_mod (h : crc % 2 ^ 32 = encode es % 2 ^ 32) (b : UInt8) :
    step w table crc b % 2 ^ 32 = encode (table (index w crc b) :: es) % 2 ^ 32 := by
  have hshift : (crc <<< 8) % 2 ^ 32 = (encode es <<< 8) % 2 ^ 32 := by
    rw [Nat.shiftLeft_eq, Nat.shiftLeft_eq, Nat.mul_mod, h, ← Nat.mul_mod]
  rw [step, Nat.mod_mod, encode, Nat.xor_mod_two_pow, hshift, ← Nat.xor_mod_two_pow, Nat.xor_comm]

/-- **The loop** leaves the entries it has read, behind those the register started
with. -/
theorem foldl_step : ∀ (bs : List UInt8) {crc : Nat} {es : List Nat},
    crc % 2 ^ 32 = encode es % 2 ^ 32 →
    bs.foldl (step w table) crc % 2 ^ 32
      = encode ((entries w table crc bs).reverse ++ es) % 2 ^ 32
  | [], _, _, h => h
  | b :: bs, crc, es, h => by
    rw [foldl_cons, foldl_step bs (step_mod h b), entries, reverse_cons, append_assoc]
    rfl

theorem foldl_step_lt : ∀ (bs : List UInt8) {crc : Nat}, crc < 2 ^ 32 →
    bs.foldl (step w table) crc < 2 ^ 32
  | [], _, h => h
  | _ :: bs, _, _ => foldl_step_lt bs (Nat.mod_lt _ (by decide))

variable (w table) in
/-- The last `w` entries read, the latest first; `es` are those the register started
with. -/
def recent (crc : Nat) (es : List Nat) (bs : List UInt8) : List Nat :=
  ((entries w table crc bs).reverse ++ es).take w

/-- **Two messages have the same CRC** if and only if the last `w` entries read for
them are the same. -/
theorem crc_eq_iff (values : List Nat)
    (hlow : ∀ e ∈ values, ∀ e' ∈ values, e % 2 ^ 8 = e' % 2 ^ 8 → e = e')
    (htable : ∀ i, table (i &&& 0xFF) ∈ values)
    (hes : ∀ e ∈ es, e ∈ values) (hcrc : crc % 2 ^ 32 = encode es % 2 ^ 32) (hw : w ≤ 4)
    (hlen : w ≤ es.length)
    (bs bs' : List UInt8) :
    bs.foldl (step w table) crc % 2 ^ (8 * w) = bs'.foldl (step w table) crc % 2 ^ (8 * w) ↔
      recent w table crc es bs = recent w table crc es bs' := by
  have hread : ∀ bs : List UInt8, ∀ e ∈ (entries w table crc bs).reverse ++ es, e ∈ values := by
    intro bs e he
    rcases mem_append.mp he with he | he
    · obtain ⟨i, rfl⟩ := mem_entries (mem_reverse.mp he)
      exact htable i
    · exact hes e he
  have hdvd : 2 ^ (8 * w) ∣ 2 ^ 32 := Nat.pow_dvd_pow 2 (by omega)
  have hfold : ∀ bs : List UInt8, bs.foldl (step w table) crc % 2 ^ (8 * w)
      = encode ((entries w table crc bs).reverse ++ es) % 2 ^ (8 * w) := by
    intro bs
    rw [← Nat.mod_mod_of_dvd _ hdvd, foldl_step bs hcrc, Nat.mod_mod_of_dvd _ hdvd]
  rw [hfold, hfold]
  exact encode_mod_eq_iff hlow w (hread bs) (hread bs')
    (by rw [length_append]; omega) (by rw [length_append]; omega)

end

end Cant.Crc
