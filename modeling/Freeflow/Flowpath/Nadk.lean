import Freeflow.Lib.Slots
import Freeflow.Flowpath.Ring

/-!
# `Flowpath.Nadk` — receiving from a NADK device

`fp_nadk_open`, `fp_nadk_recv_batch` and `fp_nadk_recv` of `port_nadk.c`, and `fp_packet_create` of `packet.c`. What a
call of `nadk_receive` answers is an argument (`Received`), and so is what memory that was just allocated, or a local
array, holds. Allocation succeeds. The device of a port that NADK did not discover has a null handle, which is undefined
to receive from or to send on.
-/

namespace Freeflow
namespace Flowpath
namespace Nadk

/-- `NADK_FP_RX_BUDGET`. -/
def rxBudget : Nat := 16

/-- `NADK_FP_MAX_ETH_DEV`, the length of `rx_rings` and `tx_rings`. -/
def maxEthDev : Nat := 16

/-! ## Packets -/

/-- `fp_buf_t`. -/
inductive BufDev where
  | nadk
  | netmap
  | alloc
deriving DecidableEq, Repr

/-- `struct nadk_mbuf`: its address and the fields that are read. -/
structure Mbuf where
  address : Nat
  data : Nat
  length : Int
  timestamp : Nat
deriving DecidableEq, Repr

/-- `struct fp_packet`. -/
structure Packet where
  data : Nat
  size : Int
  timestamp : Nat
  bufHandle : Nat
  bufDev : BufDev
deriving DecidableEq, Repr

/-- `fp_packet_create`. -/
def packetCreate (data : Nat) (size : Int) (timestamp bufHandle : Nat) (bufDev : BufDev) : Packet :=
  ⟨data, size, timestamp, bufHandle, bufDev⟩

/-- The packet that `fp_nadk_recv_batch` makes of a buffer. -/
def packetOf (m : Mbuf) : Packet := packetCreate m.data m.length m.timestamp m.address .nadk

/-! ## Devices -/

/-- A pointer that is not null. -/
def derefPtr {α : Type} : Option α → Checked α
  | some x => .ok x
  | none => .error .nullDeref

theorem derefPtr_of_ne {α : Type} {x : Option α} (h : x ≠ none) : ∃ a, derefPtr x = .ok a := by
  cases x with
  | none => exact absurd rfl h
  | some a => exact ⟨a, rfl⟩

theorem derefPtr_null {α : Type} {x : Option α} (h : x = none) : derefPtr x = .error .nullDeref := by
  rw [h]
  rfl

/-- `struct fp_nadk_device`. A device of NADK is its address. -/
structure Device where
  handle : Option Nat
  rxRing : Ring Packet
  txRing : Ring Packet
  dprcId : Int

/-- `fp_nadk_state_t`. -/
inductive State where
  | uninit
  | init
  | error
deriving DecidableEq, Repr

/-- What `malloc` left in the cells of a ring of twice the budget. -/
structure RingMemory where
  cells : List (Option Packet)
  length : cells.length = 2 * rxBudget

/-- `fp_nadk_open` of port `p`, where `initialized` says whether `fp_nadk_init` succeeds if it is called, `ethDevCnt` is
    the number of devices found, and `netDev` is the table of them. -/
def nadkOpen (state : State) (initialized : Bool) (ethDevCnt : Nat) (netDev : Slots Nat maxEthDev) (rx tx : RingMemory)
    (p : Int) : Checked (Option Device) :=
  let state := if state = .uninit then (if initialized then .init else .error) else state
  if state = .error then return none
  -- the source joins the two bounds with `&&`; the second one compares unsigned, and a negative port meets both
  else if p < 0 ∧ (ethDevCnt : Int) ≤ p % 4294967296 then return none
  else if 0 ≤ p ∧ p < maxEthDev then do
    let handle ← netDev.get p
    return some {
      handle
      rxRing := Ring.new (2 * rxBudget) rx.cells
      txRing := Ring.new (2 * rxBudget) tx.cells
      dprcId := p }
  else .error .outOfBounds

/-! ## Receiving -/

/-- What a call of `nadk_receive` answers, if it is made: its result, at most the budget, and the buffers it puts
    into `pkt_buf`, as many as the result says; and what `rx_batch` holds before it is filled. -/
structure Received where
  ret : Int
  bufs : List Mbuf
  stale : List (Option Packet)
  ret_le : ret ≤ rxBudget
  bufs_len : bufs.length = ret.toNat
  stale_len : stale.length = rxBudget

/-- The first `i` iterations of the loop of `fp_nadk_recv_batch`, with the array `rx_batch` it fills. -/
def batchLoop (bufs : List Mbuf) (rxBatch : List (Option Packet)) : Nat → Checked (List (Option Packet))
  | 0 => return rxBatch
  | i + 1 => do
      let rxBatch ← batchLoop bufs rxBatch i
      let m ← load bufs i
      store rxBatch i (some (packetOf m))

/-- `fp_nadk_recv_batch`. -/
def nadkRecvBatch (dev : Device) (r : Received) : Checked (Device × Int) := do
  let _ ← derefPtr dev.handle
  if r.ret ≤ 0 then return (dev, 0)
  else do
    let rxBatch ← batchLoop r.bufs r.stale r.ret.toNat
    let (rxRing, pushed) ← dev.rxRing.pushN rxBatch r.ret
    return ({ dev with rxRing }, pushed)

/-- What a call of `fp_nadk_recv` does: the packet it returns, the buffers that `nadk_receive` delivered to it, and the
    result of `fp_nadk_recv_batch`, which it does not look at. -/
structure Outcome where
  packet : Option Packet
  delivered : List Mbuf
  pushed : Int
deriving DecidableEq, Repr

/-- `fp_nadk_recv`. -/
def nadkRecv (dev : Device) (r : Received) : Checked (Device × Outcome) := do
  let count ← dev.rxRing.count
  if count < rxBudget then
    let (dev, pushed) ← nadkRecvBatch dev r
    let (rxRing, packet) ← dev.rxRing.pop
    return ({ dev with rxRing }, ⟨packet, r.bufs, pushed⟩)
  else
    let (rxRing, packet) ← dev.rxRing.pop
    return ({ dev with rxRing }, ⟨packet, [], 0⟩)

end Nadk
end Flowpath
end Freeflow
