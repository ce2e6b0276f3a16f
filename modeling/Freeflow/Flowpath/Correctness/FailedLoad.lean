import Freeflow.Flowpath.Cleanup
import Freeflow.Flowpath.Correctness.DataplaneMap

/-!
# `Flowpath.Correctness.FailedLoad` — what a failed load leaves behind

When the pipeline does not load, `fp_dataplane_create` has `fp_dataplane_delete` clean up, which releases the port table
and the flow tables. They are assigned behind the load only, so what `malloc` left in them is read. If that happens to be
a pointer that can be released, everything else is as it should be (`create_failed_eq`): an error, the registry as it was,
and the pipeline object freed once.
-/

namespace Freeflow
namespace Flowpath
namespace Registry

open Traced

variable {ν ω : Type} {same : ν → ν → Checked Bool} {r : Registry ν ω} {name type : ν} {raw : RawPlane}
  {load : Loading ω}

/-- Every field that is read or released through was assigned before. -/
def ReadsAssigned (log : List Access) : Prop :=
  ∀ pre post f, log = pre ++ .read f :: post ∨ log = pre ++ .release f :: post → .assign f ∈ pre

/-- **LeavesNoTrace.** The creation returns no data plane and an error; the registry is as it was; the pipeline object was
    freed once; and only fields that were assigned are read. -/
def LeavesNoTrace (same : ν → ν → Checked Bool) (r : Registry ν ω) (name type : ν) (raw : RawPlane) (load : Loading ω) :
    Prop :=
  ∃ r' err log, createTraced same r name type raw load [] = .ok (r', none, err) log ∧ err ≠ fpOk ∧
    r'.dps = r.dps ∧ r'.heap.cells = r.heap.cells ∧ log.count .freePipeline = 1 ∧ ReadsAssigned log

/-! ## The log belongs to the functions without one -/

theorem loadTraced_forgets (load : Loading ω) : Forgets (loadTraced load) (.ok (pipelineLoad load)) := by
  cases load with
  | noModule => exact Forgets.note_bind (Forgets.note_bind (Forgets.pure _))
  | noSymbol => exact Forgets.note_bind (Forgets.note_bind (Forgets.pure _))
  | initFailed => exact Forgets.note_bind (Forgets.note_bind (Forgets.pure _))
  | loadFailed err h => exact Forgets.note_bind (Forgets.note_bind (Forgets.note_bind (Forgets.pure _)))
  | loaded pl => exact Forgets.note_bind (Forgets.note_bind (Forgets.pure _))

theorem tableDelete_forgets (f : PlaneField) (table : Owner PtrTable) : Forgets (tableDelete f table) table.delete := by
  apply Forgets.note_bind
  cases table with
  | null => exact Forgets.pure ()
  | wild => exact Forgets.note_bind (Forgets.ofChecked _)
  | owned t => exact Forgets.note _

theorem unloadTraced_forgets (pl : Option (Pipeline ω)) : Forgets (unloadTraced pl) (.ok ()) := by
  cases pl with
  | none => exact Forgets.pure ()
  | some pl => exact Forgets.note_bind (Forgets.note _)

/-- `deleteTraced` is `delete` with a log. -/
theorem deleteTraced_forgets (r : Registry ν ω) (a : Nat) : Forgets (deleteTraced r a) (r.delete a) := by
  refine (Forgets.ofChecked _).bind (fun dp => Forgets.note_bind ((unloadTraced_forgets _).bind_ok ?_))
  refine (Forgets.ofChecked _).bind (fun heap => ?_)
  refine (tableDelete_forgets _ _).bind (fun _ => (tableDelete_forgets _ _).bind (fun _ => ?_))
  exact Forgets.note_bind (Forgets.ofChecked _)

/-- `createTraced` is `create` with a log. -/
theorem createTraced_forgets (same : ν → ν → Checked Bool) (r : Registry ν ω) (name type : ν) (raw : RawPlane)
    (load : Loading ω) : Forgets (createTraced same r name type raw load) (r.create same name type raw load) := by
  refine (Forgets.ofChecked _).bind (fun found => ?_)
  by_cases hfound : found.isSome = true
  · rw [if_pos hfound, if_pos hfound]
    exact Forgets.pure _
  · rw [if_neg hfound, if_neg hfound]
    cases r.dps.firstFree with
    | none => exact Forgets.pure _
    | some i =>
        refine Forgets.note_bind (Forgets.note_bind (Forgets.note_bind ((loadTraced_forgets load).bind_ok ?_)))
        refine Forgets.note_bind (Forgets.note_bind ?_)
        cases hpl : pipelineLoad load with
        | mk pipeline err =>
            cases pipeline with
            | none => exact (deleteTraced_forgets _ _).bind (fun r => Forgets.pure _)
            | some pl => exact Forgets.note_bind (Forgets.note_bind (Forgets.pure _))

/-! ## What is logged -/

/-- What `fp_pipeline_load` logs. -/
def loaderLog : Loading ω → List Access
  | .noModule => [.newPipeline, .freePipeline]
  | .noSymbol => [.newPipeline, .freePipeline]
  | .initFailed => [.newPipeline, .freePipeline]
  | .loadFailed _ _ => [.newPipeline, .assign .pipeline, .freePipeline]
  | .loaded _ => [.newPipeline, .assign .pipeline]

/-- What the deletion of a table logs. -/
def tableLog (f : PlaneField) : Owner PtrTable → List Access
  | .null => [.read f]
  | .wild => [.read f, .release f]
  | .owned _ => [.read f, .release f]

theorem loadTraced_run (load : Loading ω) (log : List Access) :
    loadTraced load log = .ok (pipelineLoad load) (log ++ loaderLog load) := by
  cases load with
  | noModule => exact congrArg _ (List.append_assoc log [_] [_])
  | noSymbol => exact congrArg _ (List.append_assoc log [_] [_])
  | initFailed => exact congrArg _ (List.append_assoc log [_] [_])
  | loadFailed err h =>
      exact congrArg _ ((List.append_assoc (log ++ [_]) [_] [_]).trans (List.append_assoc log [_] [_, _]))
  | loaded pl => exact congrArg _ (List.append_assoc log [_] [_])

theorem tableDelete_run {f : PlaneField} {table : Owner PtrTable} (h : table.delete = .ok ()) (log : List Access) :
    tableDelete f table log = .ok () (log ++ tableLog f table) := by
  cases table with
  | null => rfl
  | wild => cases h
  | owned t => exact congrArg _ (List.append_assoc log [_] [_])

/-- The log of a deletion that returns. -/
theorem deleteTraced_run {a : Nat} {dp : Dataplane ν ω} {r' : Registry ν ω} (ha : r.heap.cells a = some dp)
    (hpl : dp.pipeline = none) (h : r.delete a = .ok r') (log : List Access) :
    deleteTraced r a log = .ok r'
      (log ++ ([.read .pipeline] ++ tableLog .ports dp.ports ++ tableLog .tables dp.tables ++ [.read .id])) := by
  obtain ⟨hports, htables⟩ := delete_owners ha h
  unfold delete at h
  rw [Heap.deref_eq ha, ok_bind] at h
  obtain ⟨heap, hwrite, h⟩ := bind_eq_ok h
  rw [hports, ok_bind, htables, ok_bind] at h
  unfold deleteTraced
  rw [ofChecked_run (Heap.deref_eq ha), note_run, hpl]
  show (ofChecked _ >>= _) _ = _
  rw [ofChecked_run hwrite, bind_run (tableDelete_run hports _), bind_run (tableDelete_run htables _), note_run, h]
  simp only [List.append_assoc]
  rfl

/-- What a creation logs whose pipeline does not load. -/
def failedLog (raw : RawPlane) (load : Loading ω) : List Access :=
  [.assign .id, .assign .name, .assign .type] ++ loaderLog load ++ [.assign .pipeline, .read .pipeline] ++
    ([.read .pipeline] ++ tableLog .ports raw.ports ++ tableLog .tables raw.tables ++ [.read .id])

/-- The data plane that the pipeline was to be loaded for. -/
def barePlane (i : Nat) (name type : ν) (raw : RawPlane) : Dataplane ν ω :=
  ⟨i, raw.state, name, type, raw.ports, raw.tables, none⟩

/-- The port table is read without having been assigned. -/
theorem not_readsAssigned_failedLog (raw : RawPlane) (load : Loading ω) : ¬ ReadsAssigned (failedLog raw load) := by
  intro h
  obtain ⟨rest, hrest⟩ : ∃ rest, tableLog .ports raw.ports = .read .ports :: rest := by
    cases raw.ports with
    | null => exact ⟨_, rfl⟩
    | wild => exact ⟨_, rfl⟩
    | owned t => exact ⟨_, rfl⟩
  have hmem := h ([.assign .id, .assign .name, .assign .type] ++ loaderLog load ++
      [.assign .pipeline, .read .pipeline, .read .pipeline]) (rest ++ tableLog .tables raw.tables ++ [.read .id])
    .ports (Or.inl (by simp [failedLog, hrest]))
  cases load <;> simp [loaderLog] at hmem

section Failed

variable {i : Nat} (hfound : r.lookup same name = .ok none) (hfree : r.dps.firstFree = some i)
  (hload : (pipelineLoad load).1 = none)
include hfound hfree hload

/-- The deletion that a failed load leads to. -/
theorem create_failed_of_delete {r' : Registry ν ω}
    (h : (r.added i (barePlane i name type raw)).delete r.heap.next = .ok r') :
    createTraced same r name type raw load [] = .ok (r', none, (pipelineLoad load).2) (failedLog raw load) := by
  have hrun := deleteTraced_run (added_cells_next (r := r) i (barePlane i name type raw)) rfl h
    ([.assign .id, .assign .name, .assign .type] ++ loaderLog load ++ [.assign .pipeline, .read .pipeline])
  have hfinish : ∀ log, finishTraced r i name type raw (pipelineLoad load) log =
      (deleteTraced (r.added i (barePlane i name type raw)) r.heap.next >>= fun r' =>
        pure (r', none, (pipelineLoad load).2)) (log ++ [.assign .pipeline, .read .pipeline]) := by
    intro log
    unfold finishTraced
    rw [note_run, note_run, hload, List.append_assoc]
    rfl
  unfold createTraced
  rw [ofChecked_run hfound, hfree]
  show (note _ >>= _) [] = _
  rw [note_run, note_run, note_run, bind_run (loadTraced_run load _), hfinish]
  exact bind_run hrun

/-- A creation that returned has deleted what it had created. -/
theorem delete_of_create {r' : Registry ν ω} {p : Ptr} {err : Int}
    (h : r.create same name type raw load = .ok (r', p, err)) :
    (r.added i (barePlane i name type raw)).delete r.heap.next = .ok r' := by
  unfold create at h
  rw [hfound, ok_bind, hfree] at h
  cases hpl : pipelineLoad load with
  | mk pipeline err' =>
      rw [hpl] at h hload
      cases hload
      obtain ⟨r₁, h₁, h⟩ := bind_eq_ok h
      cases h
      exact h₁

/-- **What is right about a failed load**: with contents of the new memory that can be released, the creation returns no
    data plane and an error, the registry is as it was, and the pipeline object was freed once. -/
theorem create_failed_eq (hports : raw.ports.delete = .ok ()) (htables : raw.tables.delete = .ok ()) :
    ∃ r' err, createTraced same r name type raw load [] = .ok (r', none, err) (failedLog raw load) ∧ err ≠ fpOk ∧
      r'.dps = r.dps ∧ r'.heap.cells = r.heap.cells ∧ (failedLog raw load).count .freePipeline = 1 := by
  have hslot := Slots.firstFree_eq_some hfree
  obtain ⟨r', h, -⟩ := delete_eq_of (added_cells_next (r := r) i (barePlane (ω := ω) i name type raw))
    (Slots.holds_put_self hslot _) rfl hports htables
  obtain ⟨hdps, hcells⟩ := unload_eq hslot rfl h
  refine ⟨r', (pipelineLoad load).2, create_failed_of_delete hfound hfree hload h, ?_, hdps, hcells, ?_⟩
  · cases load with
    | noModule => exact (by decide : fpBadPipeline ≠ fpOk)
    | noSymbol => exact (by decide : fpBadPipelineModule ≠ fpOk)
    | initFailed => exact (by decide : fpBadPipelineModule ≠ fpOk)
    | loadFailed err herr => exact herr
    | loaded pl => cases hload
  · have htable : ∀ f table, (tableLog f table).count .freePipeline = 0 := by
      intro f table
      cases table with
      | null => rfl
      | wild => rfl
      | owned t => rfl
    have hloader : (loaderLog load).count .freePipeline = 1 := by
      cases load with
      | noModule => rfl
      | noSymbol => rfl
      | initFailed => rfl
      | loadFailed err herr => rfl
      | loaded pl => cases hload
    unfold failedLog
    simp only [List.count_append, htable, hloader]
    rfl

end Failed

/-- **A failed load always leaves a trace**: whatever the registry and the reason of the failure, the cleanup reads the
    port table of the new data plane, which was not assigned. -/
theorem failed_load_leaves_trace (same : ν → ν → Checked Bool) (r : Registry ν ω) (name type : ν) (raw : RawPlane)
    (load : Loading ω) (i : Nat) (hfound : r.lookup same name = .ok none) (hfree : r.dps.firstFree = some i)
    (hload : (pipelineLoad load).1 = none) : ¬ LeavesNoTrace same r name type raw load := by
  rintro ⟨r', err, log, hrun, -, -, -, -, hreads⟩
  have hcreate := (createTraced_forgets same r name type raw load).ok hrun
  rw [create_failed_of_delete hfound hfree hload (delete_of_create hfound hfree hload hcreate)] at hrun
  cases hrun
  exact not_readsAssigned_failedLog raw load hreads

theorem failed_load_leaves_trace_first :
    ¬ LeavesNoTrace (fun a b => .ok (a == b)) (empty : Registry Nat Unit) 1 2 ⟨0, .null, .null⟩
      (.loadFailed 3 (by decide)) :=
  failed_load_leaves_trace _ _ _ _ _ _ 0 rfl rfl rfl

/-- The first data plane of the process, whose module is not found: a null pointer in the new memory is read, and one
    that is not null is released. -/
theorem noModule_leaves_trace :
    ¬ LeavesNoTrace (fun a b => .ok (a == b)) (empty : Registry Nat Unit) 1 2 ⟨0, .null, .null⟩ .noModule ∧
    (empty : Registry Nat Unit).create (fun a b => .ok (a == b)) 1 2 ⟨0, .wild, .wild⟩ .noModule =
      .error .useAfterFree := by
  refine ⟨?_, rfl⟩
  rintro ⟨r', err, log, hrun, -, -, -, -, hreads⟩
  obtain ⟨r₁, err₁, h₁, -⟩ := @create_failed_eq Nat Unit (fun a b => .ok (a == b)) empty 1 2 ⟨0, .null, .null⟩
    .noModule 0 rfl rfl rfl rfl rfl
  rw [hrun] at h₁
  cases h₁
  exact not_readsAssigned_failedLog _ _ hreads

end Registry
end Flowpath
end Freeflow
