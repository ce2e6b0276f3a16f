import Mathlib.Algebra.Group.Nat.Defs
import Freeflow.Lib.Heap

/-!
# `Memory.Allocator` — the allocators of freeflow

`Sequential_allocator` and `Buffer_allocator` of `memory.hpp` and `memory.cpp`. A block of a sequential allocator is an
object of the heap, and a pointer into one is the address of the block with a position in it; what the bytes hold
plays no part. `operator new` succeeds.

## Contents
- `SequentialAllocator`: `allocateBlock`, `ensure`, `allocate`, `destroy`, `allocated`.
- `Range`, `request`: a call together with the range it was asked for.
- `BufferAllocator`: `allocate`.
-/

namespace Freeflow
namespace Memory

/-- `sizeof(Block)`. -/
def sizeofBlock : Int := 8

/-- `Sequential_allocator::Block`. -/
structure Block where
  next : Ptr

/-- `Sequential_allocator`. -/
structure SequentialAllocator where
  size : Int
  offset : Int
  head : Ptr
  tail : Ptr
  heap : Heap Block

/-- A pointer into a block. -/
structure Address where
  block : Nat
  pos : Int
deriving DecidableEq, Repr

namespace SequentialAllocator

/-- An allocator for blocks of `n` bytes. -/
def new (n : Int) : SequentialAllocator := ⟨n, 0, none, none, Heap.empty⟩

/-- `Sequential_allocator::allocate_block`. -/
def allocateBlock (a : SequentialAllocator) : Checked SequentialAllocator :=
  -- the header is written, whether there is room for it or not
  if a.size < sizeofBlock then .error .outOfBounds
  else do
    let b := a.heap.next
    let heap := a.heap.alloc ⟨none⟩
    match a.head with
    | none => return { a with heap, head := some b, tail := some b, offset := 0 }
    | some _ =>
        match a.tail with
        | none => .error .nullDeref
        | some t => do
            let heap ← heap.write t ⟨some b⟩
            return { a with heap, tail := some b, offset := 0 }

/-- Make sure that there is a block with room for `n` bytes at `pos`, as `allocate` sees it. -/
def ensure (a : SequentialAllocator) (pos n : Int) : Checked SequentialAllocator :=
  match a.head with
  | none => a.allocateBlock
  | some _ => do
      let last ← checkInt (pos + n)
      let limit ← checkInt (a.size - sizeofBlock)
      if limit ≤ last then a.allocateBlock else return a

/-- `Sequential_allocator::allocate`. -/
def allocate (a : SequentialAllocator) (n : Int) : Checked (SequentialAllocator × Address) := do
  -- the position is fixed here, before it is known which block it is a position of
  let pos := Int.bmod (sizeofBlock + a.offset) (2 ^ 32)
  let a ← a.ensure pos n
  match a.tail with
  | none => .error .nullDeref
  | some base => do
      let offset ← checkInt (a.offset + n)
      return ({ a with offset }, ⟨base, pos⟩)

/-- The loop of `~Sequential_allocator`, for at most so many rounds. -/
def destroyLoop : Nat → Ptr → Heap Block → Checked (Heap Block)
  | 0, _, _ => .error .outOfFuel
  | _ + 1, none, heap => return heap
  | fuel + 1, some p, heap => do
      let b ← heap.deref p
      let heap ← heap.free (some p)
      destroyLoop fuel b.next heap

/-- `~Sequential_allocator`. -/
def destroy (a : SequentialAllocator) : Checked (Heap Block) := destroyLoop (a.heap.next + 1) a.head a.heap

/-- `alloc += n - sizeof(Block)`, which is computed as a `size_t`. -/
def addAllocated (alloc n : Int) : Int := Int.bmod (alloc + (n - sizeofBlock)) (2 ^ 32)

/-- The loop of `Sequential_allocator::allocated`, for at most so many rounds. -/
def allocatedLoop (a : SequentialAllocator) : Nat → Ptr → Int → Checked Int
  | 0, _, _ => .error .outOfFuel
  | fuel + 1, p, alloc =>
      if p ≠ a.tail then do
        let b ← a.heap.derefPtr p
        allocatedLoop a fuel b.next (addAllocated alloc a.size)
      else return alloc

/-- `Sequential_allocator::allocated`. -/
def allocated (a : SequentialAllocator) : Checked Int := do
  let alloc ← a.allocatedLoop (a.heap.next + 1) a.head 0
  return addAllocated alloc a.offset

end SequentialAllocator

/-- The bytes that a call of `allocate` was asked for. -/
structure Range where
  ptr : Address
  length : Int
deriving DecidableEq, Repr

/-- A call of `allocate`, and the range it returns. -/
def request (a : SequentialAllocator) (n : Int) : Checked (SequentialAllocator × Range) := do
  let (a, ptr) ← a.allocate n
  return (a, ⟨ptr, n⟩)

/-! ## Buffers -/

/-- `Buffer_allocator`; the buffer itself plays no part. -/
structure BufferAllocator where
  size : Int
  offset : Int
deriving DecidableEq, Repr

/-- `Buffer_allocator::allocate`: the position in the buffer, unless the assertion fails. -/
def BufferAllocator.allocate (b : BufferAllocator) (n : Int) : Option (BufferAllocator × Int) :=
  if b.offset + n ≤ b.size then some ({ b with offset := b.offset + n }, b.offset) else none

end Memory
end Freeflow
