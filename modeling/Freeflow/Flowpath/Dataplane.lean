import Freeflow.Flowpath.Port
import Freeflow.Lib.Slots

/-!
# `Flowpath.Dataplane` — data planes and their registry

`dataplane.h`, `dataplane.c` and `pipeline.c`. The functions that work on one data plane take it and give it back; the
registry keeps all data planes in a heap, and the table `dps_` points at them. Names are pointers of any type `ν`;
whether the strings behind two of them are equal now is an argument, `same`. What memory from `malloc` held before is an
argument (`RawPlane`), and so is what loading a pipeline gives (`Loading`).

## Contents
- `Pipeline`, `Dataplane`.
- `addPort`, `removePort`, `listPorts`, `getPort`.
- `isUp`, `up`, `down`, `start`, `stop`.
- `Registry` with `create`, `delete`, `lookup`, and `Registry.step` for runs of them.
-/

namespace Freeflow
namespace Flowpath

variable {ν ω D : Type}

/-! ## Error codes -/

/-- `FP_OK`. -/
def fpOk : Int := 0

/-- `FP_ERROR`. -/
def fpError : Int := 1

/-- `FP_BAD_DATAPLANE`. -/
def fpBadDataplane : Int := 5

/-- `FP_DATAPLANE_EXISTS`. -/
def fpDataplaneExists : Int := 6

/-- `FP_DATAPLANE_LIMIT_EXCEEED`. -/
def fpDataplaneLimitExceeded : Int := 7

/-- `FP_BAD_PIPELINE`. -/
def fpBadPipeline : Int := 8

/-- `FP_BAD_PIPELINE_MODULE`. -/
def fpBadPipelineModule : Int := 9

/-! ## Data planes -/

/-- The function pointers of `struct fp_pipeline` that the data plane calls. Each works on the object behind
    `pipeline_object`, and returns an error code. -/
structure PipelineOps (ω : Type) where
  addPort : ω → Ptr → ω × Int
  delPort : ω → Ptr → ω × Int
  start : ω → ω × Int
  stop : ω → ω × Int

/-- `struct fp_pipeline`. -/
structure Pipeline (ω : Type) where
  ops : PipelineOps ω
  object : ω

/-- `struct fp_dataplane`. -/
structure Dataplane (ν ω : Type) where
  id : Int
  state : BitVec 32
  name : ν
  type : ν
  ports : Owner PtrTable
  tables : Owner PtrTable
  pipeline : Option (Pipeline ω)

namespace Dataplane

/-- `dp->pipeline->...` -/
def derefPipeline (dp : Dataplane ν ω) : Checked (Pipeline ω) :=
  match dp.pipeline with
  | some pl => .ok pl
  | none => .error .nullDeref

/-! ## Ports -/

/-- `fp_dataplane_add_port`: the data plane, and what is stored in `*err`. -/
def addPort (heap : Heap (Port D)) (dp : Dataplane ν ω) (port : Ptr) : Checked (Dataplane ν ω × Int) := do
  let p ← heap.derefPtr port
  let t ← dp.ports.deref
  let (t, _) ← t.insert p.id.toNat port
  let pl ← dp.derefPipeline
  let (object, err) := pl.ops.addPort pl.object port
  return ({ dp with ports := .owned t, pipeline := some { pl with object } }, err)

/-- `fp_dataplane_remove_port`: the data plane, and what is stored in `*err`. The test `err == FP_OK` behind the store
    compares the pointer, which is not null, so the port table is left as it is. -/
def removePort (dp : Dataplane ν ω) (port : Ptr) : Checked (Dataplane ν ω × Int) := do
  let pl ← dp.derefPipeline
  let (object, err) := pl.ops.delPort pl.object port
  return ({ dp with pipeline := some { pl with object } }, err)

/-- The loop of `fp_dataplane_list_ports`, whose counter is an `int`: the values at the heads of the first chains. -/
def listPorts (dp : Dataplane ν ω) : Checked (List Ptr) := do
  let t ← dp.ports.deref
  (List.range t.size).mapM (fun (i : Nat) => do
    let chain ← load t.data i
    match chain with
    | ent :: _ => do
        let _ ← checkInt (i + 1)
        return ent.value
    | [] => .error .nullDeref)

/-- `fp_dataplane_get_port`. -/
def getPort (dp : Dataplane ν ω) (p : PortId) : Checked Ptr := do
  let t ← dp.ports.deref
  let ent ← t.find p.toNat
  match ent with
  | ent :: _ => return ent.value
  | [] => return none

/-! ## Up and down -/

/-- `FP_DATAPLANE_UP`. -/
def upBit : BitVec 32 := 1

/-- `fp_dataplane_is_up`. -/
def isUp (dp : Dataplane ν ω) : Bool := dp.state &&& upBit != 0

/-- `fp_dataplane_up`. -/
def up (dp : Dataplane ν ω) : Dataplane ν ω := { dp with state := dp.state ||| upBit }

/-- `fp_dataplane_down`. -/
def down (dp : Dataplane ν ω) : Dataplane ν ω := { dp with state := dp.state &&& ~~~upBit }

/-- `fp_dataplane_start`. -/
def start (dp : Dataplane ν ω) : Checked (Dataplane ν ω × Int) :=
  if dp.isUp then return (dp, fpOk)
  else do
    let pl ← dp.derefPipeline
    let (object, err) := pl.ops.start pl.object
    let dp := { dp with pipeline := some { pl with object } }
    return (if err = fpOk then dp.up else dp, err)

/-- `fp_dataplane_stop`, which calls `start` and `fp_dataplane_up` like `fp_dataplane_start`. -/
def stop (dp : Dataplane ν ω) : Checked (Dataplane ν ω × Int) :=
  if !dp.isUp then return (dp, fpOk)
  else do
    let pl ← dp.derefPipeline
    let (object, err) := pl.ops.start pl.object
    let dp := { dp with pipeline := some { pl with object } }
    return (if err = fpOk then dp.up else dp, err)

/-! ## Calls -/

/-- A call of one of the functions that change a data plane. -/
inductive Call where
  | addPort (port : Ptr)
  | removePort (port : Ptr)
  | start
  | stop
deriving DecidableEq, Repr

/-- Execute one call; the result is what it returns or stores in `*err`. -/
def step (heap : Heap (Port D)) (dp : Dataplane ν ω) : Call → Checked (Dataplane ν ω × Int)
  | .addPort port => dp.addPort heap port
  | .removePort port => dp.removePort port
  | .start => dp.start
  | .stop => dp.stop

end Dataplane

/-! ## The registry -/

/-- `FP_DATAPLANE_MAX`. -/
def dataplaneMax : Nat := 64

/-- The data planes of the process, and the table `dps_` of pointers to them. -/
structure Registry (ν ω : Type) where
  heap : Heap (Dataplane ν ω)
  dps : Slots Nat dataplaneMax

/-- What `malloc` leaves in the fields of a data plane that are not set before they may be used. -/
structure RawPlane where
  state : BitVec 32
  ports : Owner PtrTable
  tables : Owner PtrTable

/-- What `dlopen`, the pipeline's constructor and its `load` give. -/
inductive Loading (ω : Type) where
  | noModule
  | noSymbol
  | initFailed
  | loadFailed (err : Int) (h : err ≠ fpOk)
  | loaded (pl : Pipeline ω)

/-- `fp_pipeline_load`: the pipeline, and what is stored in `*err`. -/
def pipelineLoad : Loading ω → Option (Pipeline ω) × Int
  | .noModule => (none, fpBadPipeline)
  | .noSymbol => (none, fpBadPipelineModule)
  | .initFailed => (none, fpBadPipelineModule)
  | .loadFailed err _ => (none, err)
  | .loaded pl => (some pl, fpOk)

namespace Registry

/-- The process starts without data planes. -/
def empty : Registry ν ω := ⟨Heap.empty, Slots.empty⟩

variable (same : ν → ν → Checked Bool)

/-- The loop of `find_dataplane`, over the rest of the table. -/
def findLoop (heap : Heap (Dataplane ν ω)) (name : ν) : List Ptr → Checked Ptr
  | [] => return none
  | none :: rest => findLoop heap name rest
  | some a :: rest => do
      let dp ← heap.deref a
      let eq ← same dp.name name
      if eq then return some a else findLoop heap name rest

/-- `fp_dataplane_lookup`, which is `find_dataplane`. -/
def lookup (r : Registry ν ω) (name : ν) : Checked Ptr := findLoop same r.heap name r.dps.cells

/-- `deallocate_dataplane`. -/
def deallocateDataplane (r : Registry ν ω) (a : Nat) : Checked (Registry ν ω) := do
  let dp ← r.heap.deref a
  let p ← r.dps.get dp.id
  let heap ← r.heap.free p
  let dps ← r.dps.assign dp.id none
  return ⟨heap, dps⟩

/-- `fp_dataplane_delete`; `fp_pipeline_unload` leaves a null pipeline. -/
def delete (r : Registry ν ω) (a : Nat) : Checked (Registry ν ω) := do
  let dp ← r.heap.deref a
  let heap ← r.heap.write a { dp with pipeline := none }
  let _ ← dp.ports.delete
  let _ ← dp.tables.delete
  deallocateDataplane { r with heap } a

/-- `fp_dataplane_create`: the registry, the new data plane, and what is stored in `*err`. -/
def create (r : Registry ν ω) (name type : ν) (raw : RawPlane) (load : Loading ω) :
    Checked (Registry ν ω × Ptr × Int) := do
  let found ← r.lookup same name
  if found.isSome then return (r, none, fpDataplaneExists)
  else
    match r.dps.firstFree with
    | none => return (r, none, fpDataplaneLimitExceeded)
    | some i =>
        let (pipeline, err) := pipelineLoad load
        let dp : Dataplane ν ω := ⟨i, raw.state, name, type, raw.ports, raw.tables, pipeline⟩
        let a := r.heap.next
        match pipeline with
        | none => do
            let r ← delete ⟨r.heap.alloc dp, r.dps.put i (some a)⟩ a
            return (r, none, err)
        | some _ =>
            let dp := { dp with
              ports := .owned (ChainedHashTable.new 17 uintHash uintEq)
              tables := .owned (ChainedHashTable.new 17 uintHash uintEq) }
            return (⟨r.heap.alloc dp, r.dps.put i (some a)⟩, some a, err)

/-- A call of one of the functions of the registry. -/
inductive Op (ν ω : Type) where
  | create (name type : ν) (raw : RawPlane) (load : Loading ω)
  | delete (dp : Nat)
  | lookup (name : ν)

/-- What a call gives back. -/
inductive Answer where
  | created (dp : Ptr) (err : Int)
  | deleted
  | found (dp : Ptr)
deriving DecidableEq, Repr

/-- Execute one call. -/
def step (r : Registry ν ω) : Op ν ω → Checked (Registry ν ω × Answer)
  | .create name type raw load => do
      let (r, dp, err) ← r.create same name type raw load
      return (r, .created dp err)
  | .delete dp => do
      let r ← r.delete dp
      return (r, .deleted)
  | .lookup name => do
      let dp ← r.lookup same name
      return (r, .found dp)

end Registry

end Flowpath
end Freeflow
