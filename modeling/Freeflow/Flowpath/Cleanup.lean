import Freeflow.Flowpath.Dataplane
import Freeflow.Lib.Trace

/-!
# `Flowpath.Cleanup` — what creating a data plane does to its fields

`fp_dataplane_create`, `fp_pipeline_load` and `fp_dataplane_delete` once more, with a log: which fields of the data plane
are assigned, read, and released through, and when a pipeline object is allocated and freed. Without the log they are
`Registry.create` and `Registry.delete`.

## Contents
- `PlaneField`, `Access`.
- `loadTraced`, `deleteTraced`, `createTraced`.
-/

namespace Freeflow
namespace Flowpath

variable {ν ω : Type}

/-- The fields of `struct fp_dataplane` that creation and deletion use. -/
inductive PlaneField where
  | id
  | name
  | type
  | pipeline
  | ports
  | tables
deriving DecidableEq, Repr

/-- An entry of the log: an access to a field of the data plane, or to the pipeline object. -/
inductive Access where
  | assign (f : PlaneField)
  | read (f : PlaneField)
  | release (f : PlaneField)
  | newPipeline
  | freePipeline
deriving DecidableEq, Repr

open Traced

/-- `fp_pipeline_load`; on each failure the pipeline object is freed. -/
def loadTraced : Loading ω → Traced Access (Option (Pipeline ω) × Int)
  | .noModule => do
      note .newPipeline
      note .freePipeline
      return (none, fpBadPipeline)
  | .noSymbol => do
      note .newPipeline
      note .freePipeline
      return (none, fpBadPipelineModule)
  | .initFailed => do
      note .newPipeline
      note .freePipeline
      return (none, fpBadPipelineModule)
  | .loadFailed err _ => do
      note .newPipeline
      note (.assign .pipeline)
      note .freePipeline
      return (none, err)
  | .loaded pl => do
      note .newPipeline
      note (.assign .pipeline)
      return (some pl, fpOk)

/-- `fp_chained_hash_table_delete` of the table in a field. -/
def tableDelete (f : PlaneField) (table : Owner PtrTable) : Traced Access Unit := do
  note (.read f)
  match table with
  | .null => return ()
  | .owned _ => note (.release f)
  | .wild => do
      note (.release f)
      ofChecked (.error .useAfterFree)

/-- `fp_pipeline_unload`, unless the pipeline is null. -/
def unloadTraced : Option (Pipeline ω) → Traced Access Unit
  | none => return ()
  | some _ => do
      note .freePipeline
      note (.assign .pipeline)

namespace Registry

variable (same : ν → ν → Checked Bool)

/-- `fp_dataplane_delete`. -/
def deleteTraced (r : Registry ν ω) (a : Nat) : Traced Access (Registry ν ω) := do
  let dp ← ofChecked (r.heap.deref a)
  note (.read .pipeline)
  unloadTraced dp.pipeline
  let heap ← ofChecked (r.heap.write a { dp with pipeline := none })
  tableDelete .ports dp.ports
  tableDelete .tables dp.tables
  note (.read .id)
  ofChecked (deallocateDataplane { r with heap } a)

/-- `fp_dataplane_create` from the assignment of what `fp_pipeline_load` has returned. -/
def finishTraced (r : Registry ν ω) (i : Nat) (name type : ν) (raw : RawPlane) (loaded : Option (Pipeline ω) × Int) :
    Traced Access (Registry ν ω × Ptr × Int) := do
  note (.assign .pipeline)
  note (.read .pipeline)
  let dp : Dataplane ν ω := ⟨i, raw.state, name, type, raw.ports, raw.tables, loaded.1⟩
  let a := r.heap.next
  match loaded.1 with
  | none => do
      let r ← deleteTraced ⟨r.heap.alloc dp, r.dps.put i (some a)⟩ a
      return (r, none, loaded.2)
  | some _ => do
      let dp := { dp with
        ports := .owned (ChainedHashTable.new 17 uintHash uintEq)
        tables := .owned (ChainedHashTable.new 17 uintHash uintEq) }
      note (.assign .ports)
      note (.assign .tables)
      return (⟨r.heap.alloc dp, r.dps.put i (some a)⟩, some a, loaded.2)

/-- `fp_dataplane_create`. -/
def createTraced (r : Registry ν ω) (name type : ν) (raw : RawPlane) (load : Loading ω) :
    Traced Access (Registry ν ω × Ptr × Int) := do
  let found ← ofChecked (r.lookup same name)
  if found.isSome then return (r, none, fpDataplaneExists)
  else
    match r.dps.firstFree with
    | none => return (r, none, fpDataplaneLimitExceeded)
    | some i => do
        note (.assign .id)
        note (.assign .name)
        note (.assign .type)
        let loaded ← loadTraced load
        finishTraced r i name type raw loaded

end Registry

end Flowpath
end Freeflow
