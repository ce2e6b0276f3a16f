import Freeflow.Flowpath.Requests
import Freeflow.Lib.Agree

/-!
# `Flowpath.Management` — the process behind the management interface

The process that `main` of `flowpath` starts, and what it amounts to for whoever sends it messages: a machine that knows
the pipeline of a data plane, or that there is none. It has no names, no slots, no tables and no ports. That the
process behaves like this machine is shown in `Flowpath.Correctness.Management`.

## Contents
- `RequestFns`: the functions behind the request kinds, and one message for them (`RequestFns.step`).
- `Managed.start`: the process before its first message.
- `Plane`, `planeAdd` … `planePortList`, `planeStep`.
-/

namespace Freeflow
namespace Flowpath

variable {σ ω D : Type}

/-! ## One message -/

/-- The functions that `fp_on_request` calls, each of which may fault. -/
structure RequestFns (σ : Type) where
  onDataplaneAdd : List UInt8 → σ → Checked (σ × Int)
  onDataplaneDel : List UInt8 → σ → Checked (σ × Int)
  onPortAdd : List UInt8 → σ → Checked (σ × Int)
  onPortDel : List UInt8 → σ → Checked (σ × Int)
  onPortList : List UInt8 → σ → Checked (σ × Int)

namespace RequestFns

/-- A function as `fp_on_request` calls it. -/
def lift (f : List UInt8 → σ → Checked (σ × Int)) (req : List UInt8) (s : Checked σ) : Checked σ × Int :=
  match s >>= f req with
  | .ok (s, result) => (.ok s, result)
  | .error fault => (.error fault, 0)

/-- The functions as handlers. -/
def handlers (r : RequestFns σ) : Handlers (Checked σ) where
  onDataplaneAdd := lift r.onDataplaneAdd
  onDataplaneDel := lift r.onDataplaneDel
  onPortAdd := lift r.onPortAdd
  onPortDel := lift r.onPortDel
  onPortList := lift r.onPortList

/-- What `fp_mgr_incoming` does with the message in `received`, and the reply that it makes. -/
def incoming (r : RequestFns σ) (received : Received) (outbuf : List UInt8) (s : σ) : Checked (σ × Incoming) :=
  let (s', inc) := mgrIncoming r.handlers received outbuf (.ok s)
  s'.map (fun s' => (s', inc))

/-- One call of `fp_mgr_incoming`: the result is looked up before the reply is sent. -/
def step (r : RequestFns σ) (received : Received) (outbuf : List UInt8) (s : σ) : Checked (σ × Incoming) := do
  let (s, inc) ← r.incoming received outbuf s
  inc.describe
  return (s, inc)

end RequestFns

/-- The request functions of the process. -/
def managedFns (e : Env ω D) : RequestFns (Managed ω D) where
  onDataplaneAdd := onDataplaneAdd e
  onDataplaneDel := onDataplaneDel
  onPortAdd := onPortAdd e
  onPortDel := onPortDel e
  onPortList := onPortList

/-- The process before its first message. Nothing has set `ports_`. -/
def Managed.start : Managed ω D := ⟨Registry.empty, ⟨Heap.empty, 1, .null⟩⟩

/-! ## The machine -/

/-- The pipeline of the data plane, if there is one. -/
abbrev Plane (ω : Type) := Option (Pipeline ω)

/-- The name in a request is compared with the one of the data plane, which is in the same place. -/
def compareNames (req : List UInt8) : Checked Unit := if 0 ∈ req.drop nameOffset then .ok () else .error .outOfBounds

/-- To add a data plane: there is none yet, and its pipeline loads. When it does not, the tables are released that were
    never made. -/
def planeAdd (e : Env ω D) (req : List UInt8) : Plane ω → Checked (Plane ω × Int)
  | some pl => do
      compareNames req
      return (some pl, fpDataplaneExists)
  | none =>
      match pipelineLoad e.load with
      | (some pl, err) => return (some pl, err)
      | (none, err) => do
          e.raw.ports.delete
          e.raw.tables.delete
          return (none, err)

/-- To delete the data plane. -/
def planeDel (req : List UInt8) : Plane ω → Checked (Plane ω × Int)
  | some _ => do
      compareNames req
      return (none, fpOk)
  | none => return (none, fpBadDataplane)

/-- To add a port: a device that cannot be opened is reported, and the search for a port id ends at the null `ports_`. -/
def planePortAdd (e : Env ω D) (req : List UInt8) : Plane ω → Checked (Plane ω × Int)
  | some pl => do
      compareNames req
      let udp ← strcmpEq (req.drop typeOffset) udpText
      if udp ∧ e.udp.2 ≠ fpOk then return (some pl, -1) else .error .nullDeref
  | none => return (none, fpBadDataplane)

/-- To delete a port: there is none with any id, and the pipeline is told to remove the null port. -/
def planePortDel (req : List UInt8) : Plane ω → Checked (Plane ω × Int)
  | some pl => do
      compareNames req
      let (object, err) := pl.ops.delPort pl.object none
      return (some { pl with object }, err)
  | none => return (none, fpBadDataplane)

/-- To list the ports. -/
def planePortList (req : List UInt8) : Plane ω → Checked (Plane ω × Int)
  | some pl => do
      compareNames req
      return (some pl, fpOk)
  | none => return (none, fpOk)

/-- The request functions of the machine. -/
def planeFns (e : Env ω D) : RequestFns (Plane ω) where
  onDataplaneAdd := planeAdd e
  onDataplaneDel := planeDel
  onPortAdd := planePortAdd e
  onPortDel := planePortDel
  onPortList := planePortList

/-- One message. -/
def planeStep (p : Plane ω) (msg : Message ω D) : Checked (Plane ω × Incoming) :=
  (planeFns msg.env).step msg.received msg.outbuf p

/-! ## What a message comes to -/

theorem lift_eq (f : List UInt8 → Managed ω D → Checked (Managed ω D × Int)) : lift f = RequestFns.lift f := by
  funext req s
  unfold lift RequestFns.lift
  cases s >>= f req <;> rfl

/-- A call of `fp_mgr_incoming` of the process. -/
theorem manageStep_eq (s : Managed ω D) (msg : Message ω D) :
    manageStep s msg = (managedFns msg.env).step msg.received msg.outbuf s := by
  have hhandlers : requestHandlers msg.env = (managedFns msg.env).handlers := by
    simp only [requestHandlers, RequestFns.handlers, managedFns, lift_eq]
  rw [manageStep, hhandlers, RequestFns.step, RequestFns.incoming]
  obtain ⟨s', inc⟩ := mgrIncoming (managedFns msg.env).handlers msg.received msg.outbuf (.ok s)
  cases s' <;> rfl

namespace RequestFns

/-- What a handler gives, as one computation. -/
def settle (r : Checked σ × Int) : Checked (σ × Int) := r.1.map (fun s => (s, r.2))

/-- What `fp_on_request` does with a request. -/
def handle (r : RequestFns σ) (req : List UInt8) (s : σ) : Checked (σ × Int) := settle (onRequest r.handlers req (.ok s))

@[simp] theorem settle_ok (s : σ) (result : Int) : settle (.ok s, result) = .ok (s, result) := rfl

/-- A request function as a call of it shows. -/
@[simp] theorem settle_lift (f : List UInt8 → σ → Checked (σ × Int)) (req : List UInt8) (s : σ) :
    settle (lift f req (.ok s)) = f req s := by
  rw [settle, lift, ok_bind]
  cases f req s <;> rfl

/-- The dispatch. -/
theorem handle_eq (r : RequestFns σ) (req : List UInt8) (s : σ) :
    r.handle req s =
      if reqKind req = dataplaneAdd then r.onDataplaneAdd req s
      else if reqKind req = dataplaneDel then r.onDataplaneDel req s
      else if reqKind req = portAdd then r.onPortAdd req s
      else if reqKind req = portDel then r.onPortDel req s
      else if reqKind req = portList then r.onPortList req s
      else .ok (s, fpFailure) := by
  simp only [handle, onRequest, handlers, apply_ite settle, settle_lift, settle_ok]
  -- the kinds that are not implemented and those that are not known fail alike
  simp only [fpFailure, ite_self]

/-- The reply to a request, for the result that its function gives. -/
def answer (received : Received) (outbuf : List UInt8) (result : Int) : Incoming :=
  ⟨some received, makeReply outbuf (reqKind received.buf) result⟩

/-- A request is handled and answered; a message of another type is answered only. -/
theorem incoming_eq (r : RequestFns σ) (received : Received) (outbuf : List UInt8) (s : σ) :
    r.incoming received outbuf s =
      if reqType received.buf = fpRequest then
        (r.handle received.buf s).map (fun x => (x.1, answer received outbuf x.2))
      else .ok (s, ⟨none, makeReply outbuf (reqKind received.buf) fpBadRequest⟩) := by
  unfold incoming mgrIncoming handle settle
  dsimp only
  by_cases htype : reqType received.buf = fpRequest
  · rw [if_pos htype, if_pos htype]
    cases (onRequest r.handlers received.buf (.ok s)).1 <;> rfl
  · rw [if_neg htype, if_neg htype]
    rfl

/-- **Requests agree when their functions do.** -/
theorem handle_agree {τ : Type} {r : RequestFns σ} {r' : RequestFns τ} {R : σ → τ → Prop} {req : List UInt8} {s : σ}
    {t : τ} (hR : R s t) (hadd : Agree R (r.onDataplaneAdd req s) (r'.onDataplaneAdd req t))
    (hdel : Agree R (r.onDataplaneDel req s) (r'.onDataplaneDel req t))
    (hportAdd : Agree R (r.onPortAdd req s) (r'.onPortAdd req t))
    (hportDel : Agree R (r.onPortDel req s) (r'.onPortDel req t))
    (hlist : Agree R (r.onPortList req s) (r'.onPortList req t)) : Agree R (r.handle req s) (r'.handle req t) := by
  rw [handle_eq, handle_eq]
  exact .ite hadd (.ite hdel (.ite hportAdd (.ite hportDel (.ite hlist (.ok hR _)))))

end RequestFns

end Flowpath
end Freeflow
