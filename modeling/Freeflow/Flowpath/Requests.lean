import Freeflow.Flowpath.Dataplane
import Freeflow.Flowpath.Error

/-!
# `Flowpath.Requests` — the request functions of `manage.c`

The five functions that `fp_on_request` dispatches to, on the registry of data planes and the ports. A request's
arguments are pointers into `inbuf`, and `fp_dataplane_create` keeps two of them; so the name of a data plane is an
offset into whatever `inbuf` holds when it is compared. Every call of `fp_mgr_incoming` has its `inbuf` in one place.

## Contents
- `strcmpEq`: comparing two strings in memory.
- `Managed`, `Env`: the state, and what a call meets outside of it.
- `onDataplaneAdd`, `onDataplaneDel`, `onPortAdd`, `onPortDel`, `onPortList`.
- `requestHandlers`, `manageStep`: one call of `fp_mgr_incoming`.
-/

namespace Freeflow
namespace Flowpath

variable {ω D : Type}

/-! ## Strings -/

/-- `!strcmp` of the strings that begin two pieces of memory: it reads on until they differ or end together. -/
def strcmpEq : List UInt8 → List UInt8 → Checked Bool
  | a :: as, b :: bs => if a ≠ b then .ok false else if a = 0 then .ok true else strcmpEq as bs
  | _, _ => .error .outOfBounds

/-- `!strcmp` of two strings in `inbuf`, by their offsets. -/
def strEqAt (inbuf : List UInt8) (i j : Nat) : Checked Bool := strcmpEq (inbuf.drop i) (inbuf.drop j)

/-- `"udp"`. -/
def udpText : List UInt8 := [117, 100, 112, 0]

/-! ## State -/

/-- The data planes and the ports of the process. The names of the data planes are offsets into `inbuf`. -/
structure Managed (ω D : Type) where
  registry : Registry Nat ω
  ports : PortState D

/-- What a call meets outside of the state: the contents of the memory it allocates, what loading the pipeline and
    opening the device give, the value of a device pointer that is not set, and the address of the port id in the message
    that is taken for the id. -/
structure Env (ω D : Type) where
  raw : RawPlane
  load : Loading ω
  udp : D × Int
  dev : D
  pid : PortId

/-- The offset of `args->name`. -/
def nameOffset : Nat := dataOffset

/-- The offset of `args->type`. -/
def typeOffset : Nat := dataOffset + stringMaxLen

/-- `fp_dataplane_lookup(args->name)`. -/
def lookupName (req : List UInt8) (s : Managed ω D) : Checked Ptr :=
  s.registry.lookup (strEqAt req) nameOffset

/-! ## Request functions -/

/-- `fp_on_dataplane_add`. -/
def onDataplaneAdd (e : Env ω D) (req : List UInt8) (s : Managed ω D) : Checked (Managed ω D × Int) := do
  let found ← lookupName req s
  if found.isSome then return (s, fpDataplaneExists)
  else do
    let (registry, _, err) ← s.registry.create (strEqAt req) nameOffset typeOffset e.raw e.load
    return ({ s with registry }, err)

/-- `fp_on_dataplane_del`. -/
def onDataplaneDel (req : List UInt8) (s : Managed ω D) : Checked (Managed ω D × Int) := do
  let found ← lookupName req s
  match found with
  | some a => do
      let registry ← s.registry.delete a
      return ({ s with registry }, fpOk)
  | none => return (s, fpBadDataplane)

/-- `fp_on_port_add`. Only the type `udp` opens a device. -/
def onPortAdd (e : Env ω D) (req : List UInt8) (s : Managed ω D) : Checked (Managed ω D × Int) := do
  let found ← lookupName req s
  match found with
  | some a => do
      let udp ← strcmpEq (req.drop typeOffset) udpText
      let (dev, derr) := if udp then e.udp else (e.dev, fpOk)
      if derr ≠ fpOk then return (s, -1)
      else do
        let (ports, port) ← portCreate s.ports dev
        let dp ← s.registry.heap.deref a
        let (dp, err) ← dp.addPort ports.heap port
        let heap ← s.registry.heap.write a dp
        return (⟨{ s.registry with heap }, ports⟩, if err ≠ fpOk then -1 else err)
  | none => return (s, fpBadDataplane)

/-- `fp_on_port_del`. -/
def onPortDel (e : Env ω D) (req : List UInt8) (s : Managed ω D) : Checked (Managed ω D × Int) := do
  let found ← lookupName req s
  match found with
  | some a => do
      let dp ← s.registry.heap.deref a
      let port ← dp.getPort e.pid
      let (dp, err) ← dp.removePort port
      let heap ← s.registry.heap.write a dp
      return ({ s with registry := { s.registry with heap } }, err)
  | none => return (s, fpBadDataplane)

/-- `fp_on_port_list`, which does nothing with the list. -/
def onPortList (req : List UInt8) (s : Managed ω D) : Checked (Managed ω D × Int) := do
  let found ← lookupName req s
  match found with
  | some a => do
      let dp ← s.registry.heap.deref a
      let _ ← dp.listPorts
      return (s, fpOk)
  | none => return (s, fpOk)

/-! ## One message -/

/-- A request function as `fp_on_request` calls it: on a state that earlier calls have reached without a fault. -/
def lift (f : List UInt8 → Managed ω D → Checked (Managed ω D × Int)) (req : List UInt8) (s : Checked (Managed ω D)) :
    Checked (Managed ω D) × Int :=
  match s >>= f req with
  | .ok (s, result) => (.ok s, result)
  | .error fault => (.error fault, 0)

/-- The request functions. -/
def requestHandlers (e : Env ω D) : Handlers (Checked (Managed ω D)) where
  onDataplaneAdd := lift (onDataplaneAdd e)
  onDataplaneDel := lift onDataplaneDel
  onPortAdd := lift (onPortAdd e)
  onPortDel := lift (onPortDel e)
  onPortList := lift onPortList

/-- A call of `fp_mgr_incoming`: what `inbuf` holds after the `recv`, what `outbuf` holds, and what the call meets. -/
structure Message (ω D : Type) where
  received : Received
  outbuf : List UInt8
  env : Env ω D
  length_eq : received.buf.length = messageLen

/-- One call of `fp_mgr_incoming`. -/
def manageStep (s : Managed ω D) (msg : Message ω D) : Checked (Managed ω D × Incoming) := do
  let (s', inc) := mgrIncoming (requestHandlers msg.env) msg.received msg.outbuf (.ok s)
  let s' ← s'
  inc.describe
  return (s', inc)

end Flowpath
end Freeflow
