import Freeflow.Flowpath.NadkSend
import Freeflow.Flowpath.Wire

/-!
# `Flowpath.Relay` — packets from device to device

`fp_port_recv_packet` and `fp_port_send_packet` of `port.h` call a device through its table of functions, and `wire.c` and
the tests of `test-nadk.c` do nothing else with a packet: it is received from one port and sent on another. The table is
a parameter (`Vtbl`), so the same programs run over devices of any kind; `Nadk.vtbl` is the one of `port_nadk.c`.

## Contents
- `Vtbl`, `Answers`.
- `forward`, `reflectTest`, `xreflectTest`.
- `sendAll`, `insertTest`, `dataplaneTest`.
- `Hop`, `hop`: runs of packets along a route.
- `Nadk.vtbl`.
-/

namespace Freeflow
namespace Flowpath

/-- The functions `recv` and `send` of `struct fp_device_vtbl`, for devices `D` in the state `σ`. What the system answers
    to a call of them is an argument, of type `ρ` or `κ`. A call of `recv` gives more than the packet. -/
structure Vtbl (σ D Pkt ρ R κ : Type) where
  recv : σ → D → ρ → Checked (σ × R)
  packet : R → Option Pkt
  send : σ → D → Pkt → κ → Checked (σ × Int)

/-- What the system answers while a packet is received and sent on, and what `malloc` leaves in the `out_port` of a
    context. -/
structure Answers (ρ κ : Type) where
  recv : ρ
  send : κ
  raw : PortId

/-- What came of it: where and what was received, and what sending it returned. -/
structure Hopped (D R : Type) where
  src : D
  received : R
  sent : Option Int
deriving DecidableEq, Repr

section
variable {σ D Pkt ρ R κ ν : Type} (V : Vtbl σ D Pkt ρ R κ)

/-- A packet is received from one device and, if there is one, sent on the other. -/
def forward (s : σ) (src dst : D) (a : Answers ρ κ) : Checked (σ × Hopped D R) := do
  let (s, r) ← V.recv s src a.recv
  match V.packet r with
  | some pkt => do
      let (s, n) ← V.send s dst pkt a.send
      return (s, ⟨src, r, some n⟩)
  | none => return (s, ⟨src, r, none⟩)

section
variable {V} {s s₁ s₂ : σ} {src dst : D} {a : Answers ρ κ} {r : R}

theorem forward_none (hrecv : V.recv s src a.recv = .ok (s₁, r)) (hnone : V.packet r = none) :
    forward V s src dst a = .ok (s₁, ⟨src, r, none⟩) := by
  simp [forward, hrecv, hnone]

theorem forward_some {pkt : Pkt} {n : Int} (hrecv : V.recv s src a.recv = .ok (s₁, r)) (hsome : V.packet r = some pkt)
    (hsend : V.send s₁ dst pkt a.send = .ok (s₂, n)) : forward V s src dst a = .ok (s₂, ⟨src, r, some n⟩) := by
  simp [forward, hrecv, hsome, hsend]

end

/-- `reflect_test`. -/
def reflectTest (port1 port2 : Port D) (s : σ) (a : Answers ρ κ × Answers ρ κ) :
    Checked (σ × List (Hopped D R)) := do
  let (s, h1) ← forward V s port1.device port1.device a.1
  let (s, h2) ← forward V s port2.device port2.device a.2
  return (s, [h1, h2])

/-- `xreflect_test`. -/
def xreflectTest (port1 port2 : Port D) (s : σ) (a : Answers ρ κ × Answers ρ κ) :
    Checked (σ × List (Hopped D R)) := do
  let (s, h1) ← forward V s port1.device port2.device a.1
  let (s, h2) ← forward V s port2.device port1.device a.2
  return (s, [h1, h2])

/-! ## Through the wire -/

/-- The calls of `send` that an insertion leads to, and what the last of them returns. -/
def sendAll (a : κ) : σ → List (Send D Pkt) → Checked (σ × Option Int)
  | s, [] => return (s, none)
  | s, call :: calls => do
      let (s, n) ← V.send s call.device call.packet a
      let (s, last) ← sendAll a s calls
      return (s, last.orElse fun _ => some n)

/-- One half of `dataplane_test`: a packet that arrives at a port is inserted into the pipeline. -/
def insertTest (heap : Heap (Port D)) (dp : Dataplane ν Wire) (port : Port D) (s : σ) (a : Answers ρ κ) :
    Checked (σ × Hopped D R) := do
  let (s, r) ← V.recv s port.device a.recv
  match V.packet r with
  | some pkt => do
      let calls ← wireInsert heap dp pkt ⟨port.id, port.id, 0⟩ a.raw
      let (s, n) ← sendAll V a.send s calls
      return (s, ⟨port.device, r, n⟩)
  | none => return (s, ⟨port.device, r, none⟩)

/-- `dataplane_test`. -/
def dataplaneTest (heap : Heap (Port D)) (dp : Dataplane ν Wire) (port1 port2 : Port D) (s : σ)
    (a : Answers ρ κ × Answers ρ κ) : Checked (σ × List (Hopped D R)) := do
  let (s, h1) ← insertTest V heap dp port1 s a.1
  let (s, h2) ← insertTest V heap dp port2 s a.2
  return (s, [h1, h2])

/-! ## Runs -/

/-- A device to receive from, and what the system answers. -/
structure Hop (D ρ κ : Type) where
  src : D
  answers : Answers ρ κ

/-- What is received from a device is sent where the route says. -/
def hop (route : D → D) (s : σ) (h : Hop D ρ κ) : Checked (σ × Hopped D R) :=
  forward V s h.src (route h.src) h.answers

end

/-! ## NADK devices -/

namespace Nadk

variable {D : Type} [DecidableEq D]

/-- `nadk_vtbl`, for the NADK devices `D`. -/
def vtbl : Vtbl (D → SendState) D Packet Received Outcome Driver where
  recv := fun s d r => do
    let (dev, o) ← nadkRecv (s d).dev r
    return (Function.update s d { s d with dev }, o)
  packet := Outcome.packet
  send := fun s d pkt driver => do
    let (sd, sent) ← nadkSend (s d) ⟨pkt, driver⟩
    return (Function.update s d sd, sent.ret)

end Nadk

end Flowpath
end Freeflow
