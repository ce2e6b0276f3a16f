import Freeflow.Flowpath.Hash
import Freeflow.Lib.Heap

/-!
# `Flowpath.Port` — ports and their ids

`port.h` and `port.c`. A port lives in a heap; a `uintptr_t` that a table holds is a pointer to one. The globals of
`port.c` are the cursor `port_alloc` and the table `ports_`, a pointer that no code sets.

## Contents
- `PortId`, the reserved ids, `Port`.
- `allocatePortId`, `releasePortId`, `portCreate`, `portDelete`.
- `portOutput`.
- `PortOp`, `portStep`: runs of creations and deletions.
-/

namespace Freeflow
namespace Flowpath

variable {D : Type}

/-- `fp_port_id_t`. -/
abbrev PortId := UInt32

/-- `FP_PORT_MAX_ID`. -/
def portMaxId : PortId := 0xffffff00

/-- `FP_PORT_DROP`. -/
def portDrop : PortId := 0xfffffff7

/-- `struct fp_port`, over devices of type `D`. -/
structure Port (D : Type) where
  id : PortId
  device : D
deriving DecidableEq, Repr

/-- A hash table from numbers to pointers, as `fp_uint_hash` and `fp_uint_eq` index them. -/
abbrev PtrTable := ChainedHashTable Nat Ptr

/-- The ports of the process, and the globals of `port.c`. -/
structure PortState (D : Type) where
  heap : Heap (Port D)
  portAlloc : PortId
  ports : Owner PtrTable

/-! ## Port ids -/

/-- The loop of `allocate_port_id`, for at most so many iterations. -/
def allocateLoop (ports : PtrTable) : Nat → PortId → Checked PortId
  | 0, _ => .error .outOfFuel
  | fuel + 1, portAlloc => do
      let ent ← ports.find portAlloc.toNat
      match ent with
      | ⟨_, some _⟩ :: _ => allocateLoop ports fuel (if portAlloc + 1 > portMaxId then 1 else portAlloc + 1)
      | _ => return portAlloc

/-- `allocate_port_id`: the new value of `port_alloc`, which is the id. After one round through the ids the cursor is
    where it was, and the loop never ends. -/
def allocatePortId (s : PortState D) : Checked PortId := do
  let ports ← s.ports.deref
  allocateLoop ports (portMaxId.toNat + 1) s.portAlloc

/-- `release_port_id`. -/
def releasePortId (s : PortState D) (id : PortId) : Checked (PortState D) := do
  let ports ← s.ports.deref
  let ports ← ports.update id.toNat none
  return { s with ports := .owned ports }

/-- `fp_port_create`: the state, and the new port. -/
def portCreate (s : PortState D) (dev : D) : Checked (PortState D × Ptr) := do
  let id ← allocatePortId s
  return ({ s with heap := s.heap.alloc ⟨id, dev⟩, portAlloc := id }, some s.heap.next)

/-- `fp_port_delete`, which also closes the port's device. -/
def portDelete (s : PortState D) (port : Ptr) : Checked (PortState D) := do
  let p ← s.heap.derefPtr port
  let s ← releasePortId s p.id
  let heap ← s.heap.free port
  return { s with heap }

/-! ## Sending -/

/-- A call of a device's `send`. -/
structure Send (D Pkt : Type) where
  device : D
  packet : Pkt
deriving DecidableEq, Repr

/-- `fp_port_output`, through `fp_port_send_packet`. -/
def portOutput {Pkt : Type} (heap : Heap (Port D)) (port : Ptr) (pkt : Pkt) : Checked (Send D Pkt) := do
  let p ← heap.derefPtr port
  return ⟨p.device, pkt⟩

/-! ## Runs -/

/-- A creation over a device, or a deletion. -/
inductive PortOp (D : Type) where
  | create (dev : D)
  | delete (port : Ptr)

/-- Execute one operation; a creation returns the port. -/
def portStep (s : PortState D) : PortOp D → Checked (PortState D × Ptr)
  | .create dev => portCreate s dev
  | .delete port => do let s ← portDelete s port; return (s, none)

end Flowpath
end Freeflow
