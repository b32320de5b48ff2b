/-
# `Client` — runs of the memory manager with its clients

A `World` is the manager with the list of live allocations, each with the size its
client asked for.

`Legal` is the clients' side of the contract: sizes are `uint32_t`, only NULL and live pointers are
freed or resized, and a write stays inside a live allocation.

A pointer given to `Memory_Free` is no longer live, whatever the call did with it;
one given to `Memory_Realloc` stays live when the call answers NULL, unless the
size was zero.
-/
import Cant.Lib.Run
import Cant.Memory.Manager

namespace Cant.Memory

/-- A live allocation, and the size it was requested with. -/
structure Live where
  ptr : Nat
  size : Nat
  deriving DecidableEq

structure World where
  manager : MemoryManager
  live : List Live

inductive MemOp where
  | alloc (size file line : Nat)
  | free (ptr : Nat)
  | realloc (ptr size file line : Nat)
  | defragment
  | write (addr : Nat) (byte : UInt8)

namespace World

/-- The live allocations without `ptr`. -/
def without (live : List Live) (ptr : Nat) : List Live := live.filter fun l => l.ptr ≠ ptr

/-- The live allocations after `Memory_Realloc(ptr, size)` has answered `newPtr`. -/
def relive (live : List Live) (ptr size newPtr : Nat) : List Live :=
  if newPtr ≠ 0 then ⟨newPtr, size⟩ :: without live ptr
  else if size = 0 then without live ptr
  else live

/-- One call or one write; the output is the pointer a call answers, 0 where
there is none. -/
def step (w : World) : MemOp → Option (World × Nat)
  | .alloc size file line => do
    let (s, ptr) ← w.manager.alloc size file line
    some (⟨s, if ptr ≠ 0 then ⟨ptr, size⟩ :: w.live else w.live⟩, ptr)
  | .free ptr => do
    let (s, _) ← w.manager.free ptr
    some (⟨s, without w.live ptr⟩, 0)
  | .realloc ptr size file line => do
    let (s, newPtr) ← w.manager.realloc ptr size file line
    some (⟨s, relive w.live ptr size newPtr⟩, newPtr)
  | .defragment => do
    let s ← w.manager.defragment
    some (⟨s, w.live⟩, 0)
  | .write addr byte =>
    some (⟨{ w.manager with mem := w.manager.mem.fill addr 1 byte }, w.live⟩, 0)

/-- `ptr` is NULL or live. -/
def Given (w : World) (ptr : Nat) : Prop := ptr = 0 ∨ ∃ l ∈ w.live, l.ptr = ptr
  deriving Decidable

/-- The clients keep their side of the contract. -/
def Legal (w : World) : MemOp → Prop
  | .alloc size _ _ => size < 4294967296
  | .free ptr => w.Given ptr
  | .realloc ptr size _ _ => w.Given ptr ∧ size < 4294967296
  | .defragment => True
  | .write addr _ => ∃ l ∈ w.live, l.ptr ≤ addr ∧ addr < l.ptr + l.size

instance (w : World) (op : MemOp) : Decidable (w.Legal op) := by
  cases op <;> unfold World.Legal <;> infer_instance

end World

def heap256 : MemConfig := ⟨256, none, true, false⟩

end Cant.Memory
