import Freeflow.Flowpath.Dataplane

/-!
# `Flowpath.Wire` — the wire pipeline

`pipelines/wire/wire.c`, and the packet context of `packet.h`. The pipeline's object is a pair of slots for ports. A
packet that is inserted is traced by the calls of `send` that it leads to.

## Contents
- `Wire` with `addPort`, `delPort`, `start`, `stop`, and the pipeline made of them.
- `Arrival`, `Context`, `wireRoute`, `wireEgress`, `wireInsert`.
-/

namespace Freeflow
namespace Flowpath

variable {ν D Pkt : Type}

/-- `struct wire`. -/
structure Wire where
  port0 : Ptr
  port1 : Ptr
deriving DecidableEq, Repr

namespace Wire

/-- The object that `wire_load` allocates. -/
def load : Wire := ⟨none, none⟩

/-- `wire_add_port`. -/
def addPort (w : Wire) (p : Ptr) : Wire × Int :=
  if w.port0 = none then ({ w with port0 := p }, fpOk)
  else if w.port1 = none then ({ w with port1 := p }, fpOk)
  else (w, fpError)

/-- `wire_del_port`. -/
def delPort (w : Wire) (p : Ptr) : Wire × Int :=
  if w.port0 = p then ({ w with port0 := none }, fpOk)
  else if w.port1 = p then ({ w with port1 := none }, fpOk)
  else (w, fpError)

/-- `wire_start`. -/
def start (w : Wire) : Wire × Int :=
  if w.port0 = none ∨ w.port1 = none then (w, fpError) else (w, fpOk)

/-- `wire_stop`. -/
def stop (w : Wire) : Wire × Int := (w, fpOk)

/-- The function pointers that `pipeline_init` stores. -/
def ops : PipelineOps Wire := ⟨addPort, delPort, start, stop⟩

/-- The pipeline of a data plane whose wire is `w`. -/
def pipeline (w : Wire) : Pipeline Wire := ⟨ops, w⟩

end Wire

/-! ## Packets -/

/-- `struct fp_arrival`. -/
structure Arrival where
  inPort : PortId
  inPhyPort : PortId
  tunnelId : Int
deriving DecidableEq, Repr

/-- `struct fp_context`. -/
structure Context (Pkt : Type) where
  packet : Pkt
  inPort : PortId
  inPhyPort : PortId
  tunnelId : Int
  outPort : PortId

/-- `fp_context_create`, where `malloc` left `raw` in `out_port`. -/
def contextCreate (pkt : Pkt) (arr : Arrival) (raw : PortId) : Context Pkt :=
  ⟨pkt, arr.inPort, arr.inPhyPort, arr.tunnelId, raw⟩

/-- `wire_route`. -/
def wireRoute (heap : Heap (Port D)) (w : Wire) (cxt : Context Pkt) : Checked (Context Pkt × Int) :=
  if w.port0 = none ∨ w.port1 = none then return ({ cxt with outPort := portDrop }, fpError)
  else do
    let p0 ← heap.derefPtr w.port0
    if cxt.inPort = p0.id then
      let p1 ← heap.derefPtr w.port1
      return ({ cxt with outPort := p1.id }, fpOk)
    else
      -- any other port counts as the second one
      return ({ cxt with outPort := p0.id }, fpOk)

/-- `wire_egress`, whatever `fp_dataplane_get_port` gives. -/
def wireEgress (heap : Heap (Port D)) (dp : Dataplane ν Wire) (cxt : Context Pkt) : Checked (Send D Pkt) := do
  let port ← dp.getPort cxt.outPort
  portOutput heap port cxt.packet

/-- `wire_insert`: the calls of `send` that are made. -/
def wireInsert (heap : Heap (Port D)) (dp : Dataplane ν Wire) (pkt : Pkt) (arr : Arrival) (raw : PortId) :
    Checked (List (Send D Pkt)) := do
  let pl ← dp.derefPipeline
  let cxt := contextCreate pkt arr raw
  let (cxt, _) ← wireRoute heap pl.object cxt
  let sent ← wireEgress heap dp cxt
  return [sent]

end Flowpath
end Freeflow
