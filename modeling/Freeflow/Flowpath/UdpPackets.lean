import Freeflow.Flowpath.Relay
import Freeflow.Flowpath.Udp

/-!
# `Flowpath.UdpPackets` — packets of UDP devices

`fp_udp_recv`, `fp_udp_send` and `fp_udp_drop` of `port_udp.c`. A packet of a UDP device is two objects of the memory, a
`struct fp_packet` and the bytes it points at. What `recvfrom` and `sendto` answer are arguments, and the calls of `sendto`
are recorded.

The ledger is what a user of these functions may think of instead: the packets that were received and neither sent nor
dropped, with their bytes. `Flowpath.Correctness.UdpPackets` is about the two.

## Contents
- `Sendto`, `UdpMemory`, `readBytes`.
- `udpRecv`, `udpSend`, `udpDrop`, and `udpVtbl`.
- `UdpOp`, `udpStep`: runs of calls.
- `Ledger` with `packetIn`, `ledgerRecv`, `ledgerSend`, `ledgerDrop`, `ledgerVtbl`, `ledgerStep`.
-/

namespace Freeflow
namespace Flowpath
namespace Udp

open Nadk (Packet packetCreate)

/-- `INIT_BUF_SIZE`. -/
def initBufSize : Nat := 4096

/-- A call of `sendto`: where to, what, and what it returned. -/
structure Sendto where
  addr : SockaddrIn
  bytes : List UInt8
  ret : Int
deriving DecidableEq, Repr

/-- The bytes of packets, the packets, and the calls of `sendto` so far. -/
structure UdpMemory where
  data : Heap (List UInt8)
  packets : Heap Packet
  calls : List Sendto

/-- Nothing is allocated. -/
def UdpMemory.start : UdpMemory := ⟨Heap.empty, Heap.empty, []⟩

/-- The first `n` bytes of an object. -/
def readBytes (bytes : List UInt8) (n : Int) : Checked (List UInt8) :=
  if 0 ≤ n ∧ n ≤ bytes.length then .ok (bytes.take n.toNat) else .error .outOfBounds

/-! ## The functions of a device -/

/-- `fp_udp_recv`, where `recvfrom` fails or puts the beginning of a datagram into the buffer. -/
def udpRecv (m : UdpMemory) (_dev : UdpDevice) (datagram : Option (List UInt8)) : Checked (UdpMemory × Ptr) :=
  match datagram with
  | none => return (m, none)
  | some text =>
      let buf := text.take initBufSize
      let bytes := buf.length
      if bytes = 0 then return (m, none)
      else
        let packet := packetCreate m.data.next bytes 0 0 .alloc
        return ({ m with data := m.data.alloc buf, packets := m.packets.alloc packet }, some m.packets.next)

/-- `fp_deallocate(pkt->data); fp_packet_delete(pkt);` -/
def deletePacket (m : UdpMemory) (pkt : Ptr) : Checked UdpMemory := do
  let p ← m.packets.derefPtr pkt
  let data ← m.data.free (some p.data)
  let packets ← m.packets.free pkt
  return { m with data, packets }

/-- `fp_udp_send`, where `sendto` returns `bytes`. The device sends to the address it is bound to. -/
def udpSend (m : UdpMemory) (dev : UdpDevice) (pkt : Ptr) (bytes : Int) : Checked (UdpMemory × Int) := do
  let p ← m.packets.derefPtr pkt
  let object ← m.data.deref p.data
  let payload ← readBytes object p.size
  let m := { m with calls := m.calls ++ [⟨dev.addr, payload, bytes⟩] }
  if bytes < 0 then return (m, bytes)
  else if bytes = 0 then return (m, 0)
  else do
    let m ← deletePacket m pkt
    return (m, bytes)

/-- `fp_udp_drop`. -/
def udpDrop (m : UdpMemory) (_dev : UdpDevice) (pkt : Ptr) : Checked UdpMemory := deletePacket m pkt

/-- `udp_vtbl`. -/
def udpVtbl : Vtbl UdpMemory UdpDevice Nat (Option (List UInt8)) Ptr Int where
  recv := udpRecv
  packet := id
  send := fun m dev pkt bytes => udpSend m dev (some pkt) bytes

/-! ## Runs of calls -/

/-- A call of one of the functions. -/
inductive UdpOp where
  | recv (dev : UdpDevice) (datagram : Option (List UInt8))
  | send (dev : UdpDevice) (pkt : Ptr) (bytes : Int)
  | drop (dev : UdpDevice) (pkt : Ptr)

/-- What a call gives back. -/
inductive UdpAnswer where
  | received (pkt : Ptr)
  | sent (bytes : Int)
  | dropped
deriving DecidableEq, Repr

def udpStep (m : UdpMemory) : UdpOp → Checked (UdpMemory × UdpAnswer)
  | .recv dev datagram => do
      let (m, pkt) ← udpRecv m dev datagram
      return (m, .received pkt)
  | .send dev pkt bytes => do
      let (m, n) ← udpSend m dev pkt bytes
      return (m, .sent n)
  | .drop dev pkt => do
      let m ← udpDrop m dev pkt
      return (m, .dropped)

/-! ## The ledger -/

/-- The packets at hand with their bytes, the name of the next one, and the calls of `sendto` so far. -/
structure Ledger where
  owned : Nat → Option (List UInt8)
  next : Nat
  calls : List Sendto

namespace Ledger

/-- No packet is at hand. -/
def start : Ledger := ⟨fun _ => none, 0, []⟩

/-- The bytes of a packet at hand. -/
def look (l : Ledger) : Ptr → Checked (List UInt8)
  | none => .error .nullDeref
  | some a =>
      match l.owned a with
      | none => .error .useAfterFree
      | some bytes => .ok bytes

/-- A packet is taken in. -/
def accept (l : Ledger) (bytes : List UInt8) : Ledger :=
  { l with owned := Function.update l.owned l.next (some bytes), next := l.next + 1 }

/-- A packet is given away. -/
def release (l : Ledger) (pkt : Ptr) : Ledger :=
  match pkt with
  | none => l
  | some a => { l with owned := Function.update l.owned a none }

end Ledger

/-- A datagram that is not empty is a packet, up to the size of the buffer. -/
def packetIn (datagram : Option (List UInt8)) : Option (List UInt8) :=
  (datagram.map (List.take initBufSize)).filter (fun bytes => !bytes.isEmpty)

def ledgerRecv (l : Ledger) (datagram : Option (List UInt8)) : Ledger × Ptr :=
  match packetIn datagram with
  | none => (l, none)
  | some bytes => (l.accept bytes, some l.next)

/-- A packet at hand is sent; it is given away if something was sent. -/
def ledgerSend (l : Ledger) (dev : UdpDevice) (pkt : Ptr) (ret : Int) : Checked (Ledger × Int) := do
  let bytes ← l.look pkt
  let l := { l with calls := l.calls ++ [⟨dev.addr, bytes, ret⟩] }
  return (if 0 < ret then l.release pkt else l, ret)

/-- A packet at hand is given away. -/
def ledgerDrop (l : Ledger) (pkt : Ptr) : Checked Ledger := do
  let _ ← l.look pkt
  return l.release pkt

/-- Devices over a ledger. -/
def ledgerVtbl : Vtbl Ledger UdpDevice Nat (Option (List UInt8)) Ptr Int where
  recv := fun l _ datagram => .ok (ledgerRecv l datagram)
  packet := id
  send := fun l dev pkt ret => ledgerSend l dev (some pkt) ret

def ledgerStep (l : Ledger) : UdpOp → Checked (Ledger × UdpAnswer)
  | .recv _ datagram =>
      let r := ledgerRecv l datagram
      .ok (r.1, .received r.2)
  | .send dev pkt ret => do
      let (l, n) ← ledgerSend l dev pkt ret
      return (l, .sent n)
  | .drop _ pkt => do
      let l ← ledgerDrop l pkt
      return (l, .dropped)

end Udp
end Flowpath
end Freeflow
