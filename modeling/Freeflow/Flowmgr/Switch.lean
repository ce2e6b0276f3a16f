import Freeflow.Flowpath.Manage

/-!
# `Flowmgr.Switch` — one message from the switch

`Switch_channel::on_input` of `switch.cpp`, from `recv` to the dispatch of the reply. The control channel is a
pointer that may be null.
-/

namespace Freeflow
namespace Flowmgr

open Flowpath (Received Delivery recvInto)

/-- `Switch_channel::on_input`: whether the channel stays open, and what is passed to `on_reply`. -/
def switchOnInput (ctrl : Bool) (stale chunk : List UInt8) : Checked (Bool × Option Received) :=
  if chunk = [] then .ok (false, none)
  else if ctrl then .ok (true, some (recvInto stale chunk))
  else .error .nullDeref

/-- One call, with a control channel or without. -/
def switchStep (ctrl : Bool) (_ : Unit) (d : Delivery) : Checked (Unit × Option Received) := do
  let (_, reply) ← switchOnInput ctrl d.inbuf d.chunk
  return ((), reply)

end Flowmgr
end Freeflow
