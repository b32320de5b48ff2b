/-
# `CryptoUtils` — the cipher and the secure storage (`crypto_utils.c`)

The software mode only: what the hardware functions do is not in the sources.

`key_length` may be larger than `key`, and no length is checked for an entry that exists, so an
index can lie behind an array. Nothing is said about what happens then: a function has no result,
which is the outer `none`. The answer false is the inner one.
-/
import Cant.Lib.Buf
import Cant.Lib.ByteMem
import Cant.Lib.Keyed
import Cant.Lib.Keystream

namespace Cant.Diagnostic

open Keyed Cant.Keystream

inductive CryptoAlgorithm where
  | xor | aes128 | sha256 | custom
  deriving DecidableEq

structure CryptoConfig where
  algorithm : CryptoAlgorithm
  key : Buf UInt8 32
  keyLength : UInt8
  enableSecureStorage : Bool

structure SecureEntry where
  id : UInt32
  length : Nat
  offset : Nat
  hash : List UInt32

def SecureEntry.blank (id : UInt32) : SecureEntry := ⟨id, 0, 0, List.replicate 8 0⟩

structure CryptoContext where
  config : CryptoConfig
  storage : Mem
  entries : List SecureEntry
  initialized : Bool

def secureStorageSize : Nat := 64 * 1024

def maxSecureEntries : Nat := 256

/-- `config.key[i % config.key_length]`. -/
def CryptoConfig.keyAt (config : CryptoConfig) (i : Nat) : Option UInt8 :=
  if config.keyLength = 0 then none else config.key.get? (i % config.keyLength.toNat)

/-- The loop of `Crypto_CalculateHash`, at index `i` with the words so far. -/
def hashLoop (key : Buf UInt8 32) : Nat → List UInt32 → List UInt8 → List UInt32
  | _, h, [] => h
  | i, h, b :: data =>
    let k := key.cell ⟨i % 16, Nat.lt_of_lt_of_le (Nat.mod_lt i (by decide)) (by decide)⟩
    hashLoop key (i + 1) (h.modify (i % 8) fun w => (w * 31 + b.toUInt32) ^^^ k.toUInt32) data

def calculateHash (config : CryptoConfig) (data : List UInt8) : List UInt32 :=
  hashLoop config.key 0
    [0x6a09e667, 0xbb67ae85, 0x3c6ef372, 0xa54ff53a, 0x510e527f, 0x9b05688c, 0x1f83d9ab, 0x5be0cd19]
    data

namespace CryptoContext

def init (config : CryptoConfig) : CryptoContext := ⟨config, fun _ => 0, [], true⟩

def findSecureEntry (c : CryptoContext) (id : UInt32) : Option SecureEntry :=
  lookup SecureEntry.id id c.entries

/-- The body that `Crypto_Encrypt` and `Crypto_Decrypt` share: what is written for an input
of `length` bytes, which is read only if the checks pass. -/
def cipher (c : CryptoContext) (length : Nat) (input : Option (List UInt8)) :
    Option (Option (List UInt8)) :=
  if !c.initialized || c.config.algorithm ≠ .aes128 || length % 16 ≠ 0 then some none
  else do
    let bytes ← input
    let output ← mask c.config.keyAt 0 bytes
    some (some output)

def encrypt (c : CryptoContext) (data : List UInt8) : Option (Option (List UInt8)) :=
  c.cipher data.length (some data)

def readStorage (c : CryptoContext) (offset length : Nat) : Option (List UInt8) :=
  if offset + length ≤ secureStorageSize then some (c.storage.load offset length) else none

def decrypt (c : CryptoContext) (offset length : Nat) : Option (Option (List UInt8)) :=
  c.cipher length (c.readStorage offset length)

/-- The entry of `id` gets its new length and hash; nothing is encrypted yet. -/
def markEntry (c : CryptoContext) (id : UInt32) (data : List UInt8) : CryptoContext :=
  { c with entries := update SecureEntry.id id (fun e : SecureEntry =>
      { e with length := data.length, hash := calculateHash c.config data }) c.entries }

def sealData (c : CryptoContext) (offset : Nat) (data : List UInt8) :
    Option (CryptoContext × Bool) := do
  match ← c.encrypt data with
  | none => some (c, false)
  | some output =>
    if offset + output.length ≤ secureStorageSize then
      some ({ c with storage := c.storage.store offset output }, true)
    else none

/-- `Crypto_SecureStore`; `none` is a null pointer. -/
def secureStore (c : CryptoContext) (id : UInt32) (data : Option (List UInt8)) :
    Option (CryptoContext × Bool) :=
  if !c.initialized || !c.config.enableSecureStorage then some (c, false)
  else
    match data with
    | none => some (c, false)
    | some data =>
      match c.findSecureEntry id with
      | some entry => (c.markEntry id data).sealData entry.offset data
      | none =>
        if data.length > secureStorageSize then some (c, false)
        else if c.entries.length ≥ maxSecureEntries then some (c, false)
        else
          let c := { c with entries := c.entries ++ [SecureEntry.blank id] }
          (c.markEntry id data).sealData 0 data

def secureRetrieve (c : CryptoContext) (id : UInt32) : Option (Option (List UInt8)) :=
  if !c.initialized || !c.config.enableSecureStorage then some none
  else
    match c.findSecureEntry id with
    | none => some none
    | some entry => do
      match ← c.decrypt entry.offset entry.length with
      | none => some none
      | some data =>
        if calculateHash c.config data = entry.hash then some (some data) else some none

def step (c : CryptoContext) (i : UInt32 × Option (List UInt8)) : Option (CryptoContext × Bool) :=
  c.secureStore i.1 i.2

end CryptoContext

theorem CryptoConfig.mask_isSome_iff {config : CryptoConfig} (hkey : 0 < config.keyLength)
    (data : List UInt8) :
    (∃ output, mask config.keyAt 0 data = some output) ↔
      data.length ≤ 32 ∨ config.keyLength.toNat ≤ 32 := by
  have hpos : 0 < config.keyLength.toNat := UInt8.lt_iff_toNat_lt.mp hkey
  have hat : ∀ j, config.keyAt j ≠ none ↔ j % config.keyLength.toNat < 32 := by
    intro j
    have hne : config.keyLength ≠ 0 := fun hzero => by
      rw [hzero] at hkey
      cases hkey
    rw [keyAt, if_neg hne, Buf.get?, ne_eq, List.getElem?_eq_none_iff, config.key.size_eq]
    omega
  rw [Keystream.mask_isSome_iff]
  constructor
  · intro hall
    by_contra hnot
    have h32 := (hat 32).mp (by
      have := hall 32 (by omega)
      rwa [Nat.zero_add] at this)
    rw [Nat.mod_eq_of_lt (by omega)] at h32
    omega
  · rintro hsmall j hj
    rw [hat]
    rcases hsmall with hshort | hshort
    · exact (Nat.mod_le _ _).trans_lt (by omega)
    · exact (Nat.mod_lt _ hpos).trans_le hshort

end Cant.Diagnostic
