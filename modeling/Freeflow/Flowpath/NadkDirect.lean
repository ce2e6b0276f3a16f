import Freeflow.Flowpath.NadkSend

/-!
# `Flowpath.NadkDirect` — NADK devices without rings

`fp_nadk_recv_single` and `fp_nadk_send_single` of `port_nadk.c`, which pass one packet on without the rings of the device,
and `fp_nadk_loopback` and `fp_nadk_xloopback`, which pass buffers on without packets. What the driver answers is an
argument, and what becomes of buffers and packets is written to a log. `handle` gives the handle of each device.

## Contents
- `Act`, `Direct`: the log, and the number of mbufs allocated so far.
- `Receipt`, `recvSingle`, `sendSingle`.
- `freeLoop`, `xloopback`, `loopback`.
- `DirectOp`, `directStep`: runs of calls.
-/

namespace Freeflow
namespace Flowpath
namespace Nadk

variable {D : Type} (handle : D → Option Nat)

/-- What is done to a buffer or a packet: an mbuf is received from a device or given to it, allocated, written or freed; the
    data of a packet is freed; a packet is created or deleted. -/
inductive Act (D : Type) where
  | receive (d : D) (m : MbufPtr)
  | transmit (d : D) (m : MbufPtr)
  | alloc (k : Nat)
  | copy (data : Nat) (m : MbufPtr)
  | freeMbuf (m : MbufPtr)
  | freeData (data : Nat)
  | create (pkt : Packet)
  | delete (pkt : Packet)

/-- The number of mbufs allocated so far, and the log. -/
structure Direct (D : Type) where
  mbufs : Nat
  log : List (Act D)

/-- Nothing was done. -/
def Direct.start : Direct D := ⟨0, []⟩

def Direct.note (s : Direct D) (acts : List (Act D)) : Direct D := { s with log := s.log ++ acts }

@[simp] theorem Direct.note_nil (s : Direct D) : s.note [] = s := by
  simp [Direct.note]

@[simp] theorem Direct.note_note (s : Direct D) (acts acts' : List (Act D)) :
    (s.note acts).note acts' = s.note (acts ++ acts') := by
  simp [Direct.note]

/-- What a call of `nadk_receive` for so many buffers answers. -/
structure Receipt (budget : Nat) where
  ret : Int
  bufs : List Mbuf
  ret_le : ret ≤ budget
  bufs_len : bufs.length = ret.toNat

/-- The buffers come from the device. -/
def received (d : D) (bufs : List Mbuf) : List (Act D) := bufs.map fun m => .receive d (.handle m.address)

/-- The device takes the buffers. -/
def transmittedTo (d : D) (bufs : List Mbuf) : List (Act D) := bufs.map fun m => .transmit d (.handle m.address)

/-! ## Single packets -/

/-- `fp_nadk_recv_single`. -/
def recvSingle (s : Direct D) (d : D) (r : Receipt 1) : Checked (Direct D × Option Packet) := do
  let _ ← derefPtr (handle d)
  if r.ret ≤ 0 then return (s, none)
  else do
    let m ← load r.bufs 0
    return (s.note (received d r.bufs ++ [.create (packetOf m)]), some (packetOf m))

/-- What the driver answers to `fp_nadk_send_single`: what becomes of the mbuf for a packet that does not have one, and what
    `nadk_send` returns. -/
structure SingleDriver where
  mbuf : MbufOutcome
  ret : Int

/-- `abort_send`: it is the handle of the packet that is freed. -/
def abortSend (s : Direct D) (pkt : Packet) : Direct D := s.note [.freeMbuf (.handle pkt.bufHandle), .delete pkt]

/-- A field of a packet that was deleted. -/
def deletedField : Checked Int := .error .useAfterFree

/-- The last part of `fp_nadk_send_single`, with the mbuf. -/
def transmitSingle (s : Direct D) (d : D) (pkt : Packet) (m : MbufPtr) (ret : Int) : Checked (Direct D × Int) := do
  let _ ← derefPtr (handle d)
  if ret ≠ 1 then return (abortSend s pkt, 0)
  else do
    let s := s.note [.transmit d m, .delete pkt]
    -- `return ret = pkt->size`
    let size ← deletedField
    return (s, size)

/-- A packet gets an mbuf, and its data is freed. -/
def Direct.copied (s : Direct D) (pkt : Packet) : Direct D :=
  ⟨s.mbufs + 1, s.log ++ [.alloc s.mbufs, .copy pkt.data (.allocated s.mbufs), .freeData pkt.data]⟩

/-- `fp_nadk_send_single`. -/
def sendSingle (s : Direct D) (d : D) (pkt : Packet) (a : SingleDriver) : Checked (Direct D × Int) :=
  if pkt.bufDev = .nadk then transmitSingle handle s d pkt (.handle pkt.bufHandle) a.ret
  else
    match a.mbuf with
    | .allocFails => return (s.note [.delete pkt], 0)
    | .copyFails => return (abortSend (s.copied pkt) pkt, 0)
    | .ready => transmitSingle handle (s.copied pkt) d pkt (.allocated s.mbufs) a.ret

/-! ## Whole batches -/

/-- `BATCH`. -/
def batch : Nat := 16

/-- The loop that frees the buffers from index `i` on, for so many iterations. -/
def freeLoop (pktBuf : List Mbuf) : Nat → Int → Checked (List (Act D))
  | 0, _ => return []
  | left + 1, i => do
      let m ← load pktBuf i
      let rest ← freeLoop pktBuf left (i + 1)
      return .freeMbuf (.handle m.address) :: rest

/-- What the driver answers to a loopback: the buffers, and what `nadk_send` returns. It takes no more than it is offered. -/
structure LoopDriver where
  receipt : Receipt batch
  sent : Int
  sent_le : sent ≤ receipt.ret

/-- `fp_nadk_xloopback`. -/
def xloopback (s : Direct D) (src dst : D) (a : LoopDriver) : Checked (Direct D × Int) := do
  let pktBuf := a.receipt.bufs
  let _ ← derefPtr (handle src)
  if a.receipt.ret ≤ 0 then return (s, 0)
  else do
    let _ ← derefPtr (handle dst)
    let s := s.note (received src pktBuf ++ transmittedTo dst (pktBuf.take a.sent.toNat))
    if a.sent ≠ a.receipt.ret then do
      let freed ← freeLoop pktBuf (a.receipt.ret - a.sent).toNat a.sent
      return (s.note freed, a.sent)
    else return (s, a.sent)

/-- `fp_nadk_loopback`. -/
def loopback (s : Direct D) (d : D) (a : LoopDriver) : Checked (Direct D × Int) := xloopback handle s d d a

/-! ## Runs -/

/-- A call of a loopback; or a packet is received with `fp_nadk_recv_single` and sent on with `fp_nadk_send_single`. -/
inductive DirectOp (D : Type) where
  | loopback (d : D) (a : LoopDriver)
  | xloopback (src dst : D) (a : LoopDriver)
  | single (src dst : D) (r : Receipt 1) (a : SingleDriver)

/-- A packet is received and sent on. -/
def passSingle (s : Direct D) (src dst : D) (r : Receipt 1) (a : SingleDriver) : Checked (Direct D × Int) := do
  let (s, pkt) ← recvSingle handle s src r
  match pkt with
  | some pkt => sendSingle handle s dst pkt a
  | none => return (s, 0)

def directStep (s : Direct D) : DirectOp D → Checked (Direct D × Int)
  | .loopback d a => loopback handle s d a
  | .xloopback src dst a => xloopback handle s src dst a
  | .single src dst r a => passSingle handle s src dst r a

end Nadk
end Flowpath
end Freeflow
