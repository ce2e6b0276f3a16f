import Freeflow.Flowpath.Nadk

/-!
# `Flowpath.NadkSend` — sending through a NADK device

`fp_nadk_send_batch` and `fp_nadk_send` of `port_nadk.c`. What the driver answers during a call is an argument
(`Driver`). A `struct nadk_mbuf` is the handle of the packet it belongs to, or one that `nadk_mbuf_alloc` returned; those
are numbered in the order of allocation. What happens to buffers is written to a log, and data that was freed may not be
copied from or freed again. The address of a packet's data stands for one allocation.

## Contents
- `MbufPtr`, `Event`, `SendState`.
- `Driver`: the outcomes of a call.
- `useData`, `prepareLoop`, `transmitLoop`, `nadkSendBatch`, `nadkSend`.
-/

namespace Freeflow
namespace Flowpath
namespace Nadk

/-- A pointer to a `struct nadk_mbuf`. -/
inductive MbufPtr where
  | handle (address : Nat)
  | allocated (k : Nat)
deriving DecidableEq, Repr

/-- What is done to a buffer: `nadk_mbuf_alloc`, `nadk_mbuf_data_copy_in`, `fp_deallocate` of a packet's data,
    `nadk_mbuf_free`, and the transmission of a packet by `nadk_send`. -/
inductive Event where
  | alloc (k : Nat)
  | copy (data : Nat) (m : MbufPtr)
  | freeData (data : Nat)
  | freeMbuf (m : MbufPtr)
  | transmit (m : MbufPtr) (pkt : Packet)
deriving DecidableEq, Repr

/-- A device, the number of mbufs allocated so far, and the log. -/
structure SendState where
  dev : Device
  mbufs : Nat
  log : List Event

/-- What becomes of the mbuf for a packet that does not have one. -/
inductive MbufOutcome where
  | allocFails
  | copyFails
  | ready
deriving DecidableEq, Repr

/-- What the driver answers during a call: for each position of the batch what becomes of its mbuf, and how many of
    the buffers it is offered it takes; and what the two local arrays hold before they are filled. -/
structure Driver where
  mbuf : Nat → MbufOutcome
  sent : Nat → Nat
  staleBuf : List (Option MbufPtr)
  staleBatch : List (Option Packet)
  sent_le : ∀ num, sent num ≤ num
  staleBuf_len : staleBuf.length = rxBudget
  staleBatch_len : staleBatch.length = rxBudget

/-! ## Sending a batch -/

/-- The data of a packet is copied from. It is undefined to copy from data that was freed. -/
def useData (s : SendState) (data : Nat) : Checked Unit :=
  if .freeData data ∈ s.log then .error .useAfterFree else return ()

/-- The first loop of `fp_nadk_send_batch` from index `i` on, for so many iterations: the number of mbufs that are ready,
    `pkt_buf`, and the state. -/
def prepareLoop (d : Driver) (rxBatch : List (Option Packet)) :
    Nat → Nat → List (Option MbufPtr) → SendState → Checked (Nat × List (Option MbufPtr) × SendState)
  | 0, i, pktBuf, s => return (i, pktBuf, s)
  | left + 1, i, pktBuf, s => do
      let ptr ← load rxBatch i
      let pkt ← derefPtr ptr
      if pkt.bufDev = .nadk then
        let pktBuf ← store pktBuf i (some (.handle pkt.bufHandle))
        prepareLoop d rxBatch left (i + 1) pktBuf s
      else
        match d.mbuf i with
        | .allocFails => do
            let pktBuf ← store pktBuf i none
            return (i, pktBuf, s)
        | .copyFails => do
            useData s pkt.data
            let m := MbufPtr.allocated s.mbufs
            let pktBuf ← store pktBuf i (some m)
            return (i, pktBuf, { s with
              mbufs := s.mbufs + 1
              log := s.log ++ [.alloc s.mbufs, .copy pkt.data m, .freeMbuf m] })
        | .ready => do
            useData s pkt.data
            let m := MbufPtr.allocated s.mbufs
            let pktBuf ← store pktBuf i (some m)
            prepareLoop d rxBatch left (i + 1) pktBuf { s with
              mbufs := s.mbufs + 1
              log := s.log ++ [.alloc s.mbufs, .copy pkt.data m, .freeData pkt.data] }

/-- The first `i` buffers that `nadk_send` takes, with the packets they are for, which are then deleted. -/
def transmitLoop (pktBuf : List (Option MbufPtr)) (rxBatch : List (Option Packet)) : Nat → Checked (List Event)
  | 0 => return []
  | i + 1 => do
      let es ← transmitLoop pktBuf rxBatch i
      let buf ← load pktBuf i
      let m ← derefPtr buf
      let ptr ← load rxBatch i
      let pkt ← derefPtr ptr
      return es ++ [.transmit m pkt]

/-- `fp_nadk_send_batch`. -/
def nadkSendBatch (d : Driver) (s : SendState) : Checked (SendState × Int) := do
  let (num, rxBatch) ← s.dev.txRing.topN d.staleBatch rxBudget
  let (num, pktBuf, s) ← prepareLoop d rxBatch num.toNat 0 d.staleBuf s
  if num = 0 then return (s, 0)
  else do
    let _ ← derefPtr s.dev.handle
    let sent := d.sent num
    let es ← transmitLoop pktBuf rxBatch sent
    let (txRing, _) ← s.dev.txRing.removeN sent
    return ({ s with dev := { s.dev with txRing }, log := s.log ++ es }, sent)

/-! ## Sending a packet -/

/-- A call of `fp_nadk_send`: the packet, and what the driver answers. -/
structure Submission where
  pkt : Packet
  driver : Driver

/-- The packet of a call, and what the call returned. -/
structure Sent where
  pkt : Packet
  ret : Int
deriving DecidableEq, Repr

/-- `fp_nadk_send`. -/
def nadkSend (s : SendState) (sub : Submission) : Checked (SendState × Sent) := do
  let (txRing, num) ← s.dev.txRing.push (some sub.pkt)
  let s := { s with dev := { s.dev with txRing } }
  let count ← s.dev.txRing.count
  if (rxBudget : Int) ≤ count then
    let (s, _) ← nadkSendBatch sub.driver s
    return (s, ⟨sub.pkt, num⟩)
  else return (s, ⟨sub.pkt, num⟩)

end Nadk
end Flowpath
end Freeflow
